import HciBridge.Admission
import HciBridge.Descent
import HciBridge.Revocation

/-!
What becomes of the announce of a board whose key is configured: how `run` gets from it to a thread
of the board while the threads of the other boards go on.
-/

namespace HciBridge.Manager

open Text
open Auth (Bytes Block Psk bdaddrText)
open Config (Settings lookupPsk)
open KeyProtocol (Hashes CString)
open KeyProtocol.Firmware (announceDatagram)

def Label.ofManager : Label → Bool
  | .board .. => false
  | _ => true

/-- `kill` in `Active.claim` comes after the link was set, or is not called. -/
def killReaches (s : State) (m : Heard) : Bool :=
  (s.find m.ann.bdaddr).all fun old =>
    (s.boards[old]?).all fun c => c.ip = m.src || !c.thread.beforeLink

/-- No allocation and no thread fails, and the key `k` of the board is in force after the refresh. -/
def smooth (env : Env) (k : Psk) (s : State) : Label → Bool
  | .refresh result now stamp =>
    match s.pc with
    | .announced m =>
      lookupPsk (s.keys.refresh (reload env result) now stamp).2.entries m.ann.bdaddr = some k
    | _ => true
  | .create r => r = .ok
  | .claim putFails =>
    match s.pc with
    | .claiming _ m => !putFails && killReaches s m
    | _ => true
  | .spawn fails => !fails
  | _ => true

def Attached (s : State) (m : Heard) (k : Psk) (t : State) : Prop :=
  ∃ id c entries, t.started = ⟨id, m.data, m.src, entries⟩ :: s.started ∧ (m.ann.bdaddr, id) ∈ t.map ∧
    t.boards[id]? = some c ∧ c.thread = .connecting ∧ SameCtx (.new m k) c

def Met (s : State) (m : Heard) (boards : List Board) : Prop :=
  ∃ old c, (m.ann.bdaddr, old) ∈ s.map ∧ boards[old]? = some c ∧ c.bdaddr = m.ann.bdaddr ∧
    (c.ip = m.src ∨ Cut c)

structure Unclaimed (s t : State) : Prop where
  map : t.map.Sublist s.map
  started : t.started = s.started

inductive OnTheWay (s : State) (m : Heard) (k : Psk) (t : State) : Prop
  | announced (hpc : t.pc = .announced m) (h : Unclaimed s t)
  | revoking (rest : List ℕ) (hpc : t.pc = .revoking rest m) (h : Unclaimed s t)
      (hkey : lookupPsk t.keys.entries m.ann.bdaddr = some k)
  | keyed (hpc : t.pc = .keyed m) (h : Unclaimed s t) (hkey : lookupPsk t.keys.entries m.ann.bdaddr = some k)
  | admitted (hpc : t.pc = .admitted m k) (h : Unclaimed s t)
  | claiming (id : ℕ) (hpc : t.pc = .claiming id m) (h : Unclaimed s t)
      (hctx : t.boards[id]? = some (.new m k))
  | spawning (id : ℕ) (hpc : t.pc = .spawning id m) (hstarted : t.started = s.started)
      (hctx : t.boards[id]? = some { Board.new m k with claimed := true }) (hin : (m.ann.bdaddr, id) ∈ t.map)
  | discarding (id : ℕ) (hpc : t.pc = .discarding id) (hmet : Met s m t.boards)

def State.left (t : State) : ℕ :=
  match t.pc with
  | .announced _ => t.map.length + 5
  | .revoking rest _ => rest.length + 4
  | .keyed _ => 3
  | .admitted .. => 2
  | .claiming .. => 1
  | _ => 0

variable {env : Env} {H : Hashes} {s t t' : State} {m : Heard} {k : Psk} {l : Label} {b b' c : Board} {a : Act}
  {f : Board → Board} {boards : List Board} {i j : ℕ}

theorem Met.modify (h : Met s m boards)
    (hf : ∀ b, boards[i]? = some b → SameCtx b (f b) ∧ (Cut b → Cut (f b))) : Met s m (boards.modify i f) := by
  obtain ⟨old, c, hin, hc, hbd, hlink⟩ := h
  by_cases hi : i = old
  · subst hi
    obtain ⟨hctx, hcut⟩ := hf c hc
    exact ⟨i, f c, hin, modify_same hc, hctx.bdaddr.trans hbd, hlink.imp hctx.ip.trans hcut⟩
  · exact ⟨old, c, hin, by rw [List.getElem?_modify_ne _ _ hi, hc], hbd, hlink⟩

theorem Met.act (h : Met s m boards) (hb : boards[i]? = some b) (hact : b.act a = some b') :
    Met s m (boards.modify i fun _ => b') := by
  refine h.modify fun c hc => ?_
  cases hb.symm.trans hc
  exact ⟨.act hact, fun hcut => hcut.act hact⟩

theorem absent_act (hc : boards[j]? = some c) (habsent : c.thread = .absent) (hb : boards[i]? = some b)
    (hact : b.act a = some b') : (boards.modify i fun _ => b')[j]? = some c := by
  have hne : i ≠ j := by
    rintro rfl
    cases hb.symm.trans hc
    exact (act_present hact).1 habsent
  rw [List.getElem?_modify_ne _ _ hne, hc]

theorem left_le (hpc : t'.pc = t.pc) (hmap : t'.map.length ≤ t.map.length) : t'.left ≤ t.left := by
  unfold State.left
  rw [hpc]
  split
  case h_1 => exact Nat.add_le_add_right hmap 5
  all_goals exact Nat.le_refl _

theorem OnTheWay.other (h : OnTheWay s m k t) (hpc : t'.pc = t.pc) (hkeys : t'.keys = t.keys)
    (hstarted : t'.started = t.started) (hmap : t'.map.Sublist t.map)
    (hin : ∀ id m, t.pc = .spawning id m → ∀ bd, (bd, id) ∈ t.map → (bd, id) ∈ t'.map)
    (habsent : ∀ (id : ℕ) (c : Board), t.boards[id]? = some c → c.thread = .absent → t'.boards[id]? = some c)
    (hmet : Met s m t.boards → Met s m t'.boards) : OnTheWay s m k t' := by
  have hun : Unclaimed s t → Unclaimed s t' := fun h => ⟨hmap.trans h.map, hstarted.trans h.started⟩
  cases h with
  | announced hat h => exact .announced (hpc.trans hat) (hun h)
  | revoking rest hat h hkey => exact .revoking rest (hpc.trans hat) (hun h) (hkeys ▸ hkey)
  | keyed hat h hkey => exact .keyed (hpc.trans hat) (hun h) (hkeys ▸ hkey)
  | admitted hat h => exact .admitted (hpc.trans hat) (hun h)
  | claiming id hat h hctx => exact .claiming id (hpc.trans hat) (hun h) (habsent id _ hctx rfl)
  | spawning id hat h hctx hmem =>
    exact .spawning id (hpc.trans hat) (hstarted.trans h) (habsent id _ hctx rfl) (hin id m hat _ hmem)
  | discarding id hat h => exact .discarding id (hpc.trans hat) (hmet h)

theorem OnTheWay.board (h : OnTheWay s m k t) (hreg : Registry t.pc t.map t.boards)
    (hs : Step env H t (.board i a) t') : OnTheWay s m k t' ∧ t'.left ≤ t.left := by
  cases hs with
  | act _ _ b b' hb hact =>
    refine ⟨h.other rfl rfl rfl (List.Sublist.refl _) (fun _ _ _ _ hmem => hmem) (fun id c hc habsent => ?_)
      (fun hmet => hmet.act hb hact), left_le rfl (Nat.le_refl _)⟩
    exact absent_act hc habsent hb hact
  | released _ b b' hb hact =>
    refine ⟨h.other rfl rfl rfl List.filter_sublist (fun id m hpc bd hmem => ?_) (fun id c hc habsent => ?_)
      (fun hmet => hmet.act hb hact), left_le rfl (List.length_filter_le _ _)⟩
    · have hthread := (release_spec hact).1
      have hin := (hreg.own hb).entered.mpr (.inr (by rw [hthread]; rfl))
      have hentry : (b.bdaddr, i) ∈ t.map := (hreg.entries _ _).mpr ⟨b, hb, hin.1, hin.2, rfl⟩
      refine (hreg.mem_remove hentry _).mpr ⟨hmem, fun heq => ?_⟩
      cases heq
      have habsent := (hreg.own hb).alone (by rw [hpc]; rfl)
      rw [hthread] at habsent
      cases habsent
    · exact absent_act hc habsent hb hact

def Answered (s : State) (m : Heard) (k : Psk) (t : State) : Prop :=
  t.pc = .receive ∧ (Attached s m k t ∨ Met s m t.boards)

def Advances (s : State) (m : Heard) (k : Psk) (t t' : State) : Prop :=
  Answered s m k t' ∨ OnTheWay s m k t' ∧ t'.left + 1 ≤ t.left

theorem advances_refresh (hpc : t.pc = .announced m) (h : Unclaimed s t) (hl : l.ofManager = true)
    (hc : smooth env k t l = true) (hs : step env H t l = some t') : Advances s m k t t' := by
  cases l with
  | refresh result now stamp =>
    simp only [step, hpc, Option.some.injEq] at hs
    simp only [smooth, hpc, decide_eq_true_eq] at hc
    subst hs
    right
    unfold onRefresh
    cases hrefreshed : (t.keys.refresh (reload env result) now stamp).1 with
    | true =>
      simp only [hrefreshed, if_true]
      exact ⟨.revoking _ rfl ⟨h.map, h.started⟩ hc, by simp [State.left, hpc]⟩
    | false =>
      simp only [hrefreshed, Bool.false_eq_true, if_false]
      refine ⟨.keyed rfl ⟨h.map, h.started⟩ hc, ?_⟩
      simp only [State.left, hpc]
      omega
  | board => cases hl
  | _ => simp [step, hpc] at hs

theorem advances_revoke {rest : List ℕ} (hpc : t.pc = .revoking rest m) (h : Unclaimed s t)
    (hkey : lookupPsk t.keys.entries m.ann.bdaddr = some k) (hl : l.ofManager = true)
    (hs : step env H t l = some t') : Advances s m k t t' := by
  cases l with
  | revoke =>
    right
    cases step_cases hs with
    | spared id rest' m' hat | revoked id rest' m' b hat =>
      cases hpc.symm.trans hat
      exact ⟨.revoking _ rfl ⟨h.map, h.started⟩ hkey, by simp [State.left, hpc]⟩
    | revokedAll m' hat =>
      cases hpc.symm.trans hat
      exact ⟨.keyed rfl ⟨h.map, h.started⟩ hkey, by simp [State.left, hpc]⟩
  | board => cases hl
  | _ => simp [step, hpc] at hs

theorem advances_verify (hpc : t.pc = .keyed m) (h : Unclaimed s t)
    (hkey : lookupPsk t.keys.entries m.ann.bdaddr = some k) (hsig : verifies H k m = true)
    (hsubnet : ∀ cidr ∈ env.subnet, cidr.contains m.src = true) (hl : l.ofManager = true)
    (hs : step env H t l = some t') : Advances s m k t t' := by
  cases l with
  | verify result now stamp =>
    have hall : (env.subnet.all fun cidr => cidr.contains m.src) = true := by
      simpa [Option.all_eq_true] using hsubnet
    simp only [step, hpc, onVerify, hkey, hsig, if_true, State.admit, hall, Option.some.injEq] at hs
    subst hs
    exact .inr ⟨.admitted rfl ⟨h.map, h.started⟩, by simp [State.left, hpc]⟩
  | board => cases hl
  | _ => simp [step, hpc] at hs

theorem advances_create (hpc : t.pc = .admitted m k) (h : Unclaimed s t) (hl : l.ofManager = true)
    (hc : smooth env k t l = true) (hs : step env H t l = some t') : Advances s m k t t' := by
  cases l with
  | create r =>
    simp only [smooth, decide_eq_true_eq] at hc
    subst hc
    simp only [step, hpc, onCreate, Option.some.injEq] at hs
    subst hs
    exact .inr ⟨.claiming _ rfl ⟨h.map, h.started⟩ (by simp), by simp [State.left, hpc]⟩
  | board => cases hl
  | _ => simp [step, hpc] at hs

theorem met_found {old : ℕ} (hreg : Registry t.pc t.map t.boards) (h : Unclaimed s t)
    (hfind : t.find m.ann.bdaddr = some old) (hreaches : killReaches t m = true) :
    Met s m (t.boards.modify old fun b => if b.ip ≠ m.src then b.kill else b) := by
  have hin := find_eq_some hfind
  obtain ⟨c, hc, -, -, hbd⟩ := (hreg.entries _ _).mp hin
  simp only [killReaches, hfind, hc, Option.all_some, Bool.or_eq_true, decide_eq_true_eq, Bool.not_eq_true'] at hreaches
  refine ⟨old, _, h.map.subset hin, modify_same hc, ?_, ?_⟩
  · split
    · rw [kill_frame]
      exact hbd
    · exact hbd
  · by_cases hip : c.ip = m.src
    · exact .inl (by simp [hip])
    · rw [if_pos hip]
      exact .inr ((hreg.wired hc).cut (hreaches.resolve_left hip))

theorem advances_claim {id : ℕ} (hreg : Registry t.pc t.map t.boards) (hpc : t.pc = .claiming id m)
    (h : Unclaimed s t) (hctx : t.boards[id]? = some (.new m k)) (hl : l.ofManager = true)
    (hc : smooth env k t l = true) (hs : step env H t l = some t') : Advances s m k t t' := by
  cases l with
  | claim putFails =>
    simp only [smooth, hpc, Bool.and_eq_true, Bool.not_eq_true'] at hc
    obtain ⟨rfl, hreaches⟩ := hc
    simp only [step, hpc, hctx, Option.map_some, Option.some.injEq] at hs
    subst hs
    right
    unfold onClaim
    split
    case h_1 old hfind =>
      exact ⟨.discarding id rfl (met_found hreg h hfind hreaches), by simp [State.left, hpc]⟩
    case h_2 =>
      refine ⟨.spawning id rfl h.started ?_ List.mem_cons_self, by simp [State.left, hpc]⟩
      exact modify_same hctx
  | board => cases hl
  | _ => simp [step, hpc] at hs

theorem advances_spawn {id : ℕ} (hpc : t.pc = .spawning id m) (hstarted : t.started = s.started)
    (hctx : t.boards[id]? = some { Board.new m k with claimed := true }) (hin : (m.ann.bdaddr, id) ∈ t.map)
    (hl : l.ofManager = true) (hc : smooth env k t l = true) (hs : step env H t l = some t') :
    Advances s m k t t' := by
  cases l with
  | spawn fails =>
    simp only [smooth, Bool.not_eq_true'] at hc
    subst hc
    simp only [step, hpc, onSpawn, Bool.false_eq_true, if_false, Option.some.injEq] at hs
    subst hs
    refine .inl ⟨rfl, .inl ⟨id, _, t.keys.entries, ?_, hin, modify_same hctx, rfl, ⟨rfl, rfl, rfl, rfl⟩⟩⟩
    rw [hstarted]
  | board => cases hl
  | _ => simp [step, hpc] at hs

theorem advances_discard {id : ℕ} (hpc : t.pc = .discarding id) (hmet : Met s m t.boards)
    (hl : l.ofManager = true) (hs : step env H t l = some t') : Advances s m k t t' := by
  cases l with
  | discard =>
    simp only [step, hpc, Option.some.injEq] at hs
    subst hs
    exact .inl ⟨rfl, .inr (hmet.modify fun b _ => ⟨⟨rfl, rfl, rfl, rfl⟩, fun hcut => ⟨hcut.past, hcut.shut⟩⟩)⟩
  | board => cases hl
  | _ => simp [step, hpc] at hs

theorem OnTheWay.manager (h : OnTheWay s m k t) (hreg : Registry t.pc t.map t.boards)
    (hsig : verifies H k m = true) (hsubnet : ∀ cidr ∈ env.subnet, cidr.contains m.src = true)
    (hl : l.ofManager = true) (hc : smooth env k t l = true) (hs : step env H t l = some t') :
    Advances s m k t t' := by
  cases h with
  | announced hpc h => exact advances_refresh hpc h hl hc hs
  | revoking rest hpc h hkey => exact advances_revoke hpc h hkey hl hs
  | keyed hpc h hkey => exact advances_verify hpc h hkey hsig hsubnet hl hs
  | admitted hpc h => exact advances_create hpc h hl hc hs
  | claiming id hpc h hctx => exact advances_claim hreg hpc h hctx hl hc hs
  | spawning id hpc hstarted hctx hin => exact advances_spawn hpc hstarted hctx hin hl hc hs
  | discarding id hpc hmet => exact advances_discard hpc hmet hl hs

theorem onTheWay_descends (s : State) (hsig : verifies H k m = true)
    (hsubnet : ∀ cidr ∈ env.subnet, cidr.contains m.src = true) :
    Runs.Descends (step env H) (smooth env k) Label.ofManager (fun t => Reachable env H t ∧ OnTheWay s m k t)
      (Answered s m k) State.left := by
  rintro t l t' ⟨hr, h⟩ hc hs
  have hnext : Reachable env H t' := hr.next rfl hs
  cases hl : l.ofManager with
  | true =>
    refine (h.manager hr.registry hsig hsubnet hl hc hs).imp_right fun hon => ?_
    exact ⟨⟨hnext, hon.1⟩, by simpa using hon.2⟩
  | false =>
    cases l with
    | board i a =>
      obtain ⟨hon, hle⟩ := h.board hr.registry (step_cases hs)
      exact .inr ⟨⟨hnext, hon⟩, by simpa using hle⟩
    | _ => cases hl

theorem OnTheWay.enabled (h : OnTheWay s m k t) :
    ∃ l, l.ofManager = true ∧ (step env H t l).isSome = true := by
  cases h with
  | announced hpc => exact ⟨.refresh (.ok .default) 0 0, rfl, by simp [step, hpc]⟩
  | revoking rest hpc =>
    refine ⟨.revoke, rfl, ?_⟩
    cases rest <;> simp [step, hpc]
  | keyed hpc => exact ⟨.verify (.ok .default) 0 0, rfl, by simp [step, hpc]⟩
  | admitted hpc => exact ⟨.create .ok, rfl, by simp [step, hpc]⟩
  | claiming id hpc h hctx => exact ⟨.claim false, rfl, by simp [step, hpc, hctx]⟩
  | spawning id hpc => exact ⟨.spawn false, rfl, by simp [step, hpc]⟩
  | discarding id hpc => exact ⟨.discard, rfl, by simp [step, hpc]⟩

theorem OnTheWay.away (h : OnTheWay s m k t) : t.pc ≠ .receive := by
  intro hreceive
  cases h <;> simp_all

theorem announce_attaches (env : Env) (H : Hashes) (b : KeyProtocol.Firmware.Board) (mac : Block 6) (port : ℕ)
    (name : CString) (ip : Block 4) (data : Bytes) (s s' : State) (ls : List Label)
    (hclaimed : b.claimed = true) (hport : port ≤ 65535) (hne : name.text ≠ []) (htab : 9 ∉ name.text)
    (hdata : announceDatagram H b mac port name ip = some data)
    (hpermits : permits env.opts (bdaddrText mac) = true) (hpinned : ip ∉ env.pinned)
    (hsubnet : ∀ cidr ∈ env.subnet, cidr.contains ip = true) (hs : Reachable env H s) (hpc : s.pc = .receive)
    (hr : Runs.run (step env H) (smooth env b.psk) s (.datagram data (some ip) :: ls) = some s') :
    ∃ ann, Discovery.parse data = .ok (.announce ann) ∧ ann.bdaddr = bdaddrText mac ∧ ann.port = port ∧
      ((∃ ls' t, ls' <+: ls ∧
          Runs.run (step env H) (smooth env b.psk) s (.datagram data (some ip) :: ls') = some t ∧
          Answered s ⟨data, ip, ann⟩ b.psk t) ∨
        ls.countP Label.ofManager ≤ s.map.length + 5 ∧ s'.pc ≠ .receive ∧
          ∃ l, l.ofManager = true ∧ (step env H s' l).isSome = true) := by
  obtain ⟨ann, hparse, hbd, hannport, -, hsig⟩ :=
    KeyProtocol.announceDatagram_accepted H b mac name ip hclaimed hport hne htab hdata
  have hheard : step env H s (.datagram data (some ip)) = some { s with pc := .announced ⟨data, ip, ann⟩ } := by
    simp [step, hpc, onDatagram, hparse, hbd, hpermits, hpinned]
  have hfirst : Runs.run (step env H) (smooth env b.psk) s [.datagram data (some ip)] =
      some { s with pc := .announced ⟨data, ip, ann⟩ } := by
    simp [Runs.run, smooth, hheard]
  have hrest : Runs.run (step env H) (smooth env b.psk) { s with pc := .announced ⟨data, ip, ann⟩ } ls = some s' := by
    simpa [Runs.run, smooth, hheard] using hr
  refine ⟨ann, hparse, hbd, hannport, ?_⟩
  have hstart : OnTheWay s ⟨data, ip, ann⟩ b.psk { s with pc := .announced ⟨data, ip, ann⟩ } :=
    .announced rfl ⟨List.Sublist.refl _, rfl⟩
  have hreach : Reachable env H { s with pc := .announced ⟨data, ip, ann⟩ } := hs.next rfl hheard
  have hdesc := onTheWay_descends (m := ⟨data, ip, ann⟩) s hsig hsubnet
  rcases hdesc.reaches_or ⟨hreach, hstart⟩ hrest with ⟨bs, u, hbs, hu, hdone⟩ | ⟨hon, hle⟩
  · exact .inl ⟨bs, u, hbs, Runs.run_trans hfirst hu, hdone⟩
  · exact .inr ⟨(Nat.le_add_left _ _).trans hle, hon.2.away, hon.2.enabled⟩

section Vector

def attachOn : List Label := attach.tail ++ [.datagram vectorAnnounce none]

theorem announce_attaches_vector :
    ∃ s ann ls t, Reachable vectorEnv KeyProtocol.vectorHashes s ∧
      Runs.run (step vectorEnv KeyProtocol.vectorHashes) (smooth vectorEnv vectorKey) s ls = some t ∧
      Answered s ⟨vectorAnnounce, vectorSource, ann⟩ vectorKey t := by
  have hstart : Reachable vectorEnv KeyProtocol.vectorHashes (start vectorOptions) := .start rfl
  obtain ⟨s', hs'⟩ : ∃ s', Runs.run (step vectorEnv KeyProtocol.vectorHashes) (smooth vectorEnv vectorKey)
      (start vectorOptions) (.datagram vectorAnnounce (some vectorSource) :: attachOn) = some s' :=
    Option.isSome_iff_exists.mp (by decide +kernel)
  obtain ⟨ann, -, -, -, ⟨ls, t, -, ht, hdone⟩ | ⟨hcount, -⟩⟩ :=
    announce_attaches vectorEnv KeyProtocol.vectorHashes ⟨vectorKey, true, .fill 16 0, 0⟩
      ⟨[160, 163, 179, 47, 97, 30], rfl⟩ 4444 ⟨Auth.ascii "esp-hci-bridge", by decide⟩ vectorSource vectorAnnounce
      (start vectorOptions) s' attachOn rfl (by norm_num) (by decide) (by decide) (by decide +kernel)
      (by decide +kernel) (by decide) (by decide +kernel) hstart rfl hs'
  · exact ⟨_, ann, _, t, hstart, ht, hdone⟩
  · have hlen : attachOn.countP Label.ofManager = 6 := by decide
    rw [hlen] at hcount
    exact absurd hcount (by decide)

end Vector

end HciBridge.Manager
