import HciBridge.Replay

namespace HciBridge.Ota

open Auth

theorem nonceOf_inj {r r' : Block 16} {c : UInt32} (h : nonceOf r c = nonceOf r' c) : r = r' :=
  (Block.append_inj (congrArg Block.bytes h)).1

section

variable (sha256 : Bytes → Digest) (holderKey : Psk → Bool)

structure AuthInv (s : State) : Prop where
  key : s.board.gClaimed = true → holderKey s.board.gPsk = true
  flash : ∀ k, s.board.nvs = some k → holderKey k = true
  counter : s.up = true → s.board.gHttpCounter = 0
  rand : s.up = true → s.board.gHttpRand ∈ s.rands
  authWire : ∀ k path nonce sha, (Use.auth path nonce sha).mac k ∈ s.wire →
    ∃ a ∈ s.authorised, a.path = path ∧ a.nonce = nonce ∧ sha256 a.body = sha
  preWire : ∀ k path nonce len, (Use.pre path nonce len).mac k ∈ s.wire →
    ∃ a ∈ s.authorised, a.path = path ∧ a.nonce = nonce
  spent : ∀ e ∈ s.acts, ∃ r ∈ s.rands, e.nonce = nonceOf r 0 ∧ (s.up = true → r ≠ s.board.gHttpRand)
  once : (s.acts.map Act.nonce).Nodup

variable {sha256 holderKey}

theorem authInv_start {nvs : Option Psk} (h : nvs.all holderKey = true) :
    AuthInv sha256 holderKey (start nvs) := by
  constructor <;> cases nvs <;> simp_all [start, authInit]

theorem authClaim_spec {b : Board} {key : Option Psk} {r : NvsResult} (hkey : key.all holderKey = true) :
    (authClaim b key r).1.gHttpRand = b.gHttpRand ∧
    (authClaim b key r).1.gHttpCounter = b.gHttpCounter ∧
    ((∀ k, b.nvs = some k → holderKey k = true) →
      ∀ k, (authClaim b key r).1.nvs = some k → holderKey k = true) ∧
    ((b.gClaimed = true → holderKey b.gPsk = true) →
      (authClaim b key r).1.gClaimed = true → holderKey (authClaim b key r).1.gPsk = true) := by
  unfold authClaim
  split
  case isTrue => exact ⟨rfl, rfl, id, id⟩
  case isFalse =>
    split
    case h_1 => exact ⟨rfl, rfl, id, id⟩
    case h_2 k =>
      have hk : holderKey k = true := by simpa using hkey
      cases r with
      | ok => simp [NvsResult.durable, hk]
      | failed durable => cases durable <;> simp +contextual [NvsResult.durable, hk]

theorem AuthInv.boot {s : State} {rand : Block 16} (hi : AuthInv sha256 holderKey s)
    (hnew : rand ∉ s.rands) :
    AuthInv sha256 holderKey
      { s with board := authInit s.board.nvs rand, up := true, rands := rand :: s.rands } := by
  refine ⟨?_, hi.flash, fun _ => rfl, fun _ => List.mem_cons_self, hi.authWire, hi.preWire, ?_, hi.once⟩
  · intro hc
    obtain ⟨k, hk⟩ := Option.isSome_iff_exists.mp hc
    simp only [authInit, hk, Option.getD_some]
    exact hi.flash k hk
  · intro e he
    obtain ⟨r, hr, hn, _⟩ := hi.spent e he
    refine ⟨r, List.mem_cons_of_mem _ hr, hn, fun _ heq => hnew ?_⟩
    simp only [authInit] at heq
    rwa [← heq]

theorem AuthInv.claim {s : State} {key : Option Psk} {r : NvsResult} (hi : AuthInv sha256 holderKey s)
    (hkey : key.all holderKey = true) :
    AuthInv sha256 holderKey { s with board := (authClaim s.board key r).1 } := by
  obtain ⟨hrand, hcounter, hnvs, hclaimed⟩ := authClaim_spec (b := s.board) (r := r) hkey
  refine ⟨hclaimed hi.key, hnvs hi.flash, ?_, ?_, hi.authWire, hi.preWire, ?_, hi.once⟩
  · intro hup
    exact hcounter.trans (hi.counter hup)
  · intro hup
    simp only [hrand]
    exact hi.rand hup
  · simp only [hrand]
    exact hi.spent

theorem AuthInv.authorise {s : State} {a : Authorisation} (hi : AuthInv sha256 holderKey s) :
    AuthInv sha256 holderKey
      { s with wire := a.authMac sha256 :: a.preMac :: s.wire, authorised := s.authorised ++ [a] } := by
  have hlast : a ∈ s.authorised ++ [a] := by simp
  refine ⟨hi.key, hi.flash, hi.counter, hi.rand, ?_, ?_, hi.spent, hi.once⟩
  · intro k path nonce sha hm
    rcases List.mem_cons.mp hm with he | hm
    · obtain ⟨hp, hn, hd⟩ := auth_input_inj (mac_inj he).2.2
      exact ⟨a, hlast, hp.symm, hn.symm, hd.symm⟩
    rcases List.mem_cons.mp hm with he | hm
    · cases (mac_inj he).2.1
    · obtain ⟨a', ha', hrest⟩ := hi.authWire k path nonce sha hm
      exact ⟨a', List.mem_append_left _ ha', hrest⟩
  · intro k path nonce len hm
    rcases List.mem_cons.mp hm with he | hm
    · cases (mac_inj he).2.1
    rcases List.mem_cons.mp hm with he | hm
    · obtain ⟨hp, hn, _⟩ := pre_input_inj (mac_inj he).2.2
      exact ⟨a, hlast, hp.symm, hn.symm⟩
    · obtain ⟨a', ha', hrest⟩ := hi.preWire k path nonce len hm
      exact ⟨a', List.mem_append_left _ ha', hrest⟩

theorem AuthInv.sign {s : State} {key : Psk} {u : Use} (hi : AuthInv sha256 holderKey s)
    (hauth : u.kind ≠ .auth) (hpre : u.kind ≠ .pre) :
    AuthInv sha256 holderKey { s with wire := u.mac key :: s.wire } := by
  refine ⟨hi.key, hi.flash, hi.counter, hi.rand, ?_, ?_, hi.spent, hi.once⟩
  · intro k path nonce sha hm
    rcases List.mem_cons.mp hm with he | hm
    · exact absurd (mac_inj he).2.1.symm hauth
    · exact hi.authWire k path nonce sha hm
  · intro k path nonce len hm
    rcases List.mem_cons.mp hm with he | hm
    · exact absurd (mac_inj he).2.1.symm hpre
    · exact hi.preWire k path nonce len hm

theorem AuthInv.unspent {s : State} (hi : AuthInv sha256 holderKey s) (hup : s.up = true) :
    ∀ e ∈ s.acts, e.nonce ≠ s.board.httpNonce := by
  intro e he hn
  obtain ⟨r, _, hr, hne⟩ := hi.spent e he
  rw [hr, Board.httpNonce, hi.counter hup] at hn
  exact hne hup (nonceOf_inj hn)

theorem AuthInv.serve {s : State} {r : Request} (hi : AuthInv sha256 holderKey s) (hup : s.up = true) :
    AuthInv sha256 holderKey (serve sha256 s r) := by
  have hserved := served_handle sha256 s.board r
  unfold Ota.serve
  generalize handle sha256 s.board r = o at hserved
  cases hserved with
  | eraseFailed resp hr hp hauth =>
    refine ⟨hi.key, by simp, fun _ => hi.counter hup, fun _ => hi.rand hup, hi.authWire, hi.preWire, ?_, ?_⟩
    · simpa [Outcome.acts, hup] using hi.spent
    · simpa [Outcome.acts] using hi.once
  | refused | failed =>
    refine ⟨hi.key, hi.flash, fun _ => hi.counter hup, fun _ => hi.rand hup, hi.authWire, hi.preWire, ?_, ?_⟩
    · simpa [Outcome.acts, hup] using hi.spent
    · simpa [Outcome.acts] using hi.once
  | done b' flash resp e hp hauth hflash hnvs hkey =>
    refine ⟨fun hc => ?_, ?_, by simp, by simp, hi.authWire, hi.preWire, ?_, ?_⟩
    · simp only [hkey hc]
      exact hi.key hp.claimed
    · rcases hnvs with hn | hn
      · simpa only [hn] using hi.flash
      · simp [hn]
    · intro e' he'
      simp only [Outcome.acts, Option.isSome_some, if_true, List.mem_append, List.mem_singleton] at he'
      rcases he' with he' | rfl
      · obtain ⟨r', hr', hn, _⟩ := hi.spent e' he'
        exact ⟨r', hr', hn, by simp⟩
      · exact ⟨s.board.gHttpRand, hi.rand hup, by rw [Board.httpNonce, hi.counter hup], by simp⟩
    · simp only [Outcome.acts, Option.isSome_some, if_true, List.map_append, List.map_cons, List.map_nil]
      apply hi.once.append (List.nodup_singleton _)
      intro n hn hn'
      obtain ⟨e', he', rfl⟩ := List.mem_map.mp hn
      exact hi.unspent hup e' he' (List.mem_singleton.mp hn')

theorem authInv_step {s s' : State} {l : Label} (hi : AuthInv sha256 holderKey s)
    (h : Step sha256 holderKey s l s') : AuthInv sha256 holderKey s' := by
  cases h with
  | boot rand hnew => exact hi.boot hnew
  | claim key r hkey => exact hi.claim hkey
  | authorise a => exact hi.authorise
  | sign key u hauth hpre => exact hi.sign hauth hpre
  | request r hup => exact hi.serve hup

theorem authInv_of_reachable {C : State → Label → Bool} {s : State}
    (h : Runs.ReachableWhile (step sha256 holderKey) (IsInit holderKey) C s) : AuthInv sha256 holderKey s :=
  h.invariant (AuthInv sha256 holderKey) (by rintro _ ⟨nvs, hn, rfl⟩; exact authInv_start hn)
    fun _ _ _ _ hi _ hs => authInv_step hi (step_cases hs)

def Act.provedBody (e : Act) : Bytes := if e.path = .ota then e.body else []

def Acted (s : State) : Prop :=
  ∀ e ∈ s.acts, ∃ a ∈ s.authorised, a.path = e.path ∧ a.nonce = e.nonce ∧ a.body = e.provedBody

theorem mem_of_sendable {s : State} {k : Psk} {u : Use} (hk : holderKey k = true)
    (h : s.sendable holderKey (.mac (u.mac k)) = true) : u.mac k ∈ s.wire := by
  rw [Use.mac_eq] at h ⊢
  simpa [State.sendable, hk] using h

theorem Acted.grow {s s' : State} (hi : Acted s) (hacts : s'.acts = s.acts)
    (hauthorised : s.authorised ⊆ s'.authorised) : Acted s' := by
  intro e he
  rw [hacts] at he
  obtain ⟨a, ha, hrest⟩ := hi e he
  exact ⟨a, hauthorised ha, hrest⟩

theorem acted_serve {s : State} {r : Request} (ha : AuthInv sha256 holderKey s) (hi : Acted s)
    (hsend : s.sendable holderKey r.authHeader = true) (hc : noCollision sha256 s (.request r) = true) :
    Acted (serve sha256 s r) := by
  have hserved := served_handle sha256 s.board r
  unfold serve
  generalize handle sha256 s.board r = o at hserved
  cases hserved with
  | refused | eraseFailed | failed => exact hi.grow (by simp [Outcome.acts]) (List.Subset.refl _)
  | done b' flash resp e hp hauth hflash hnvs hkey =>
    intro e' he'
    simp only [Outcome.acts, Option.isSome_some, if_true, List.mem_append, List.mem_singleton] at he'
    rcases he' with he' | rfl
    · exact hi e' he'
    · rw [hauth] at hsend
      obtain ⟨a, hmem, hpath, hnonce, hsha⟩ :=
        ha.authWire _ _ _ _ (mem_of_sendable (ha.key hp.claimed) hsend)
      have hbody : a.body = r.hashed := by
        have := List.all_eq_true.mp hc a hmem
        simpa [hsha] using this
      refine ⟨a, hmem, hpath, hnonce, hbody.trans ?_⟩
      cases r <;> rfl

theorem acted_step {s s' : State} {l : Label} (ha : AuthInv sha256 holderKey s) (hi : Acted s)
    (hc : noCollision sha256 s l = true) (h : Step sha256 holderKey s l s') : Acted s' := by
  cases h with
  | request r hup hauth => exact acted_serve ha hi hauth hc
  | authorise a => exact hi.grow rfl (List.subset_append_left _ _)
  | boot | claim | sign => exact hi.grow rfl (List.Subset.refl _)

theorem filter_length_le_one {α β : Type} [DecidableEq β] {f : α → β} {l : List α} (h : (l.map f).Nodup)
    (b : β) : (l.filter fun a => f a = b).length ≤ 1 := by
  have hnodup : ((l.filter fun a => f a = b).map f).Nodup := h.sublist (List.filter_sublist.map f)
  have hsame : (l.filter fun a => f a = b).map f = List.replicate (l.filter fun a => f a = b).length b := by
    apply List.eq_replicate_of_mem _ |>.trans
    · rw [List.length_map]
    · intro x hx
      obtain ⟨a, ha, rfl⟩ := List.mem_map.mp hx
      simpa using (List.mem_filter.mp ha).2
  rw [hsame] at hnodup
  exact List.nodup_replicate.mp hnodup

theorem acts_authorised_once {s : State}
    (h : Runs.ReachableWhile (step sha256 holderKey) (IsInit holderKey) (noCollision sha256) s) :
    (∀ e ∈ s.acts, ∃ a ∈ s.authorised, a.path = e.path ∧ a.nonce = e.nonce ∧ a.body = e.provedBody) ∧
    ∀ a ∈ s.authorised, (s.acts.filter fun e => e.nonce = a.nonce).length ≤ 1 := by
  have hi : Acted s := h.invariant Acted (by rintro _ ⟨nvs, _, rfl⟩; intro e he; cases he)
    fun _ _ _ hr hi hc hs => acted_step (authInv_of_reachable hr) hi hc (step_cases hs)
  exact ⟨hi, fun a _ => filter_length_le_one (authInv_of_reachable h).once a.nonce⟩

end

def emptySha : Digest :=
  ⟨[0xe3, 0xb0, 0xc4, 0x42, 0x98, 0xfc, 0x1c, 0x14, 0x9a, 0xfb, 0xf4, 0xc8, 0x99, 0x6f, 0xb9, 0x24,
    0x27, 0xae, 0x41, 0xe4, 0x64, 0x9b, 0x93, 0x4c, 0xa4, 0x95, 0x99, 0x1b, 0x78, 0x52, 0xb8, 0x55], rfl⟩

def rebootOnce : Authorisation := ⟨.fill 32 0x42, .reboot, nonceOf (.fill 16 1) 0, []⟩

/-- The proofs of `rebootOnce` arrive with some body, and once more after the restart. -/
def rebootWith (body : Bytes) : List Label :=
  [.boot (.fill 16 1), .authorise rebootOnce,
    .request (.reboot (.mac (rebootOnce.authMac fun _ => emptySha)) (.mac rebootOnce.preMac) body),
    .boot (.fill 16 2),
    .request (.reboot (.mac (rebootOnce.authMac fun _ => emptySha)) (.mac rebootOnce.preMac) body)]

theorem rebooted_once :
    ∃ s, Runs.ReachableWhile (step (fun _ => emptySha) fun k => k = .fill 32 0x42)
        (IsInit fun k => k = .fill 32 0x42) (noCollision fun _ => emptySha) s ∧
      s.acts = [⟨.reboot, nonceOf (.fill 16 1) 0, []⟩] ∧
      (∃ a ∈ s.authorised, a.path = .reboot ∧ a.nonce = nonceOf (.fill 16 1) 0 ∧ a.body = []) ∧
      ∀ a ∈ s.authorised, (s.acts.filter fun e => e.nonce = a.nonce).length ≤ 1 := by
  obtain ⟨s, hs, hp⟩ := Runs.exists_of_run (step (fun _ => emptySha) fun k => k = .fill 32 0x42)
    (IsInit fun k => k = .fill 32 0x42) (noCollision fun _ => emptySha) (start (some (.fill 32 0x42)))
    (rebootWith []) (fun s => s.acts = [⟨.reboot, nonceOf (.fill 16 1) 0, []⟩])
    ⟨_, by decide +kernel, rfl⟩ (by decide +kernel)
  simp only [decide_eq_true_eq] at hp
  obtain ⟨hauthorised, honce⟩ := acts_authorised_once hs
  exact ⟨s, hs, hp, hauthorised ⟨.reboot, nonceOf (.fill 16 1) 0, []⟩ (by simp [hp]), honce⟩

theorem rebooted_with_another_body :
    ¬∀ (sha256 : Bytes → Digest) (holderKey : Psk → Bool) (s : State),
      Runs.ReachableWhile (step sha256 holderKey) (IsInit holderKey) (noCollision sha256) s →
      ∀ e ∈ s.acts, ∃ a ∈ s.authorised, a.path = e.path ∧ a.body = e.body := by
  intro h
  obtain ⟨s, hs, hp⟩ := Runs.exists_of_run (step (fun _ => emptySha) fun k => k = .fill 32 0x42)
    (IsInit fun k => k = .fill 32 0x42) (noCollision fun _ => emptySha) (start (some (.fill 32 0x42)))
    (rebootWith [0x78]) (fun s => s.acts.map Act.body = [[0x78]] && s.authorised.map Authorisation.body = [[]])
    ⟨_, by decide +kernel, rfl⟩ (by decide +kernel)
  simp only [Bool.and_eq_true, decide_eq_true_eq] at hp
  obtain ⟨e, he, hbody⟩ := List.map_eq_singleton_iff.mp hp.1
  obtain ⟨a, ha, _, hab⟩ := h _ _ s hs e (by simp [he])
  have hnil : a.body ∈ s.authorised.map Authorisation.body := List.mem_map_of_mem ha
  rw [hp.2, List.mem_singleton, hab, hbody] at hnil
  cases hnil

end HciBridge.Ota
