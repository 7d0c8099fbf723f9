import HciBridge.ReplayOnce

namespace HciBridge.Ota

open Auth

section

variable (sha256 : Bytes → Digest) (holderKey : Psk → Bool)

def admitted (b : Board) (auth pre : Header) (contentLen : ℕ) (env : OtaEnv) : Bool :=
  getProofs b auth pre && (env.partition.any fun part => contentLen ≤ part.size) &&
    authCheckHttpPre b "POST" "/ota" contentLen.toUInt32 pre

/-- No upload that reaches `esp_ota_begin` takes one of the failing exits after it, the ones without
`auth_nonce_bump`. -/
def uploadsComplete (s : State) : Label → Bool
  | .request (.ota auth pre contentLen env) =>
    !admitted s.board auth pre contentLen env ||
      (env.beginErr.isNone && (upload contentLen env.recvs).stop.isNone &&
        authCheckHttp s.board "POST" "/ota" (sha256 (upload contentLen env.recvs).got) auth &&
        env.endErr.isNone && env.setBootErr.isNone)
  | _ => true

variable {sha256 holderKey}

theorem otaPost_of_not_admitted {b : Board} {auth pre : Header} {contentLen : ℕ} {env : OtaEnv}
    (h : admitted b auth pre contentLen env = false) :
    (otaPost sha256 b auth pre contentLen env).flash = [] := by
  unfold otaPost
  split
  case isTrue => rfl
  case isFalse hproofs =>
    split
    case h_1 => rfl
    case h_2 part hpart =>
      split
      case isTrue => rfl
      case isFalse hsize =>
        split
        case isTrue => rfl
        case isFalse hpre =>
          simp only [Bool.not_eq_true', Bool.not_eq_false] at hproofs hpre
          have hfits : contentLen ≤ part.size := by omega
          simp [admitted, hproofs, hpart, hfits, hpre] at h

theorem otaPost_of_complete {b : Board} {auth pre : Header} {contentLen : ℕ} {env : OtaEnv}
    (h : admitted b auth pre contentLen env = true) (hbegin : env.beginErr = none)
    (hstop : (upload contentLen env.recvs).stop = none)
    (hauth : authCheckHttp b "POST" "/ota" (sha256 (upload contentLen env.recvs).got) auth = true)
    (hend : env.endErr = none) (hboot : env.setBootErr = none) :
    (otaPost sha256 b auth pre contentLen env).effect = some (.update (upload contentLen env.recvs).got) := by
  simp only [admitted, Bool.and_eq_true, Option.any_eq_true, decide_eq_true_eq] at h
  obtain ⟨⟨hproofs, part, hpart, hfits⟩, hpre⟩ := h
  have hsize : ¬part.size < contentLen := by omega
  simp [otaPost, otaReceive, otaActivate, hproofs, hpart, hsize, hpre, hbegin, hstop, hauth, hend, hboot]

theorem mem_begins {o : Outcome} {n nonce : HttpNonce} :
    n ∈ o.begins nonce ↔ n = nonce ∧ .begin ∈ o.flash := by
  unfold Outcome.begins
  split
  case isTrue h => simp [h]
  case isFalse h => simp [h]

theorem proofs_of_begin {b : Board} {r : Request} (h : .begin ∈ (handle sha256 b r).flash) :
    r.path = .ota ∧ Proofs b r := by
  have hserved := served_handle sha256 b r
  generalize handle sha256 b r = o at hserved h
  cases hserved with
  | refused | eraseFailed => cases h
  | failed flash resp hr hp => exact ⟨hr, hp⟩
  | done b' flash resp e hp hauth hota hnvs hkey => exact ⟨hota h, hp⟩

theorem begins_spec {s : State} {r : Request} {n : HttpNonce} (ha : AuthInv sha256 holderKey s)
    (hsend : s.sendable holderKey r.preHeader = true)
    (hn : n ∈ (handle sha256 s.board r).begins s.board.httpNonce) :
    n = s.board.httpNonce ∧ ∃ a ∈ s.authorised, a.path = .ota ∧ a.nonce = n := by
  obtain ⟨rfl, hflash⟩ := mem_begins.mp hn
  obtain ⟨hr, hp⟩ := proofs_of_begin hflash
  rw [hp.pre] at hsend
  obtain ⟨a, hmem, hpath, hnonce⟩ := ha.preWire _ _ _ _ (mem_of_sendable (ha.key hp.claimed) hsend)
  exact ⟨rfl, a, hmem, hpath.trans hr, hnonce⟩

theorem acts_of_begins {s : State} {r : Request} {n : HttpNonce}
    (hc : uploadsComplete sha256 s (.request r) = true)
    (hn : n ∈ (handle sha256 s.board r).begins s.board.httpNonce) :
    (handle sha256 s.board r).acts r s.board.httpNonce = [⟨r.path, s.board.httpNonce, r.body⟩] := by
  have hflash := (mem_begins.mp hn).2
  have hr := (proofs_of_begin hflash).1
  cases r with
  | reboot | unclaim => cases hr
  | ota auth pre contentLen env =>
    have hadmitted : admitted s.board auth pre contentLen env = true := by
      by_contra hno
      simp only [handle, otaPost_of_not_admitted (Bool.eq_false_iff.mpr hno)] at hflash
      cases hflash
    simp only [uploadsComplete, hadmitted, Bool.not_true, Bool.false_or, Bool.and_eq_true,
      Option.isNone_iff_eq_none] at hc
    obtain ⟨⟨⟨⟨hbegin, hstop⟩, hauth⟩, hend⟩, hboot⟩ := hc
    simp [Outcome.acts, handle, otaPost_of_complete hadmitted hbegin hstop hauth hend hboot]

structure BegunInv (s : State) : Prop where
  announced : ∀ n ∈ s.begun, ∃ a ∈ s.authorised, a.path = .ota ∧ a.nonce = n
  acted : ∀ n ∈ s.begun, n ∈ s.acts.map Act.nonce
  once : s.begun.Nodup

theorem begunInv_start (nvs : Option Psk) : BegunInv (start nvs) := by
  constructor <;> simp [start]

theorem begunInv_serve {s : State} {r : Request} (ha : AuthInv sha256 holderKey s) (hi : BegunInv s)
    (hup : s.up = true) (hsend : s.sendable holderKey r.preHeader = true)
    (hc : uploadsComplete sha256 s (.request r) = true) : BegunInv (serve sha256 s r) := by
  refine ⟨?_, ?_, ?_⟩
  · intro n hn
    rcases List.mem_append.mp hn with hn | hn
    · exact hi.announced n hn
    · exact (begins_spec ha hsend hn).2
  · intro n hn
    simp only [serve, List.map_append, List.mem_append]
    rcases List.mem_append.mp hn with hn | hn
    · exact .inl (hi.acted n hn)
    · right
      rw [acts_of_begins hc hn, (begins_spec ha hsend hn).1]
      simp
  · apply hi.once.append
    · unfold Outcome.begins
      split <;> simp
    · -- the nonce in force has had no effect yet, every earlier upload has
      intro n hn hn'
      obtain ⟨e, he, hen⟩ := List.mem_map.mp (hi.acted n hn)
      exact ha.unspent hup e he (hen.trans (begins_spec ha hsend hn').1)

theorem BegunInv.grow {s s' : State} (hi : BegunInv s) (hacts : s'.acts = s.acts) (hbegun : s'.begun = s.begun)
    (hauthorised : s.authorised ⊆ s'.authorised) : BegunInv s' := by
  obtain ⟨hannounced, hacted, honce⟩ := hi
  refine ⟨?_, by rwa [hbegun, hacts], by rwa [hbegun]⟩
  intro n hn
  rw [hbegun] at hn
  obtain ⟨a, ha, hrest⟩ := hannounced n hn
  exact ⟨a, hauthorised ha, hrest⟩

theorem begunInv_step {s s' : State} {l : Label} (ha : AuthInv sha256 holderKey s) (hi : BegunInv s)
    (hc : uploadsComplete sha256 s l = true) (h : Step sha256 holderKey s l s') : BegunInv s' := by
  cases h with
  | request r hup _ hpre => exact begunInv_serve ha hi hup hpre hc
  | authorise a => exact hi.grow rfl rfl (List.subset_append_left _ _)
  | boot | claim | sign => exact hi.grow rfl rfl (List.Subset.refl _)

theorem begun_le_authorised {s : State}
    (h : Runs.ReachableWhile (step sha256 holderKey) (IsInit holderKey) (uploadsComplete sha256) s) :
    s.begun.length ≤ (s.authorised.filter fun a => a.path = .ota).length ∧
    ∀ n ∈ s.begun, ∃ a ∈ s.authorised, a.path = .ota ∧ a.nonce = n := by
  have hi : BegunInv s := h.invariant BegunInv (by rintro _ ⟨nvs, _, rfl⟩; exact begunInv_start nvs)
    fun _ _ _ hr hi hc hs => begunInv_step (authInv_of_reachable hr) hi hc (step_cases hs)
  refine ⟨?_, hi.announced⟩
  have hsub : s.begun ⊆ (s.authorised.filter fun a => a.path = .ota).map Authorisation.nonce := by
    intro n hn
    obtain ⟨a, ha, hpath, rfl⟩ := hi.announced n hn
    exact List.mem_map_of_mem (List.mem_filter.mpr ⟨ha, by simpa using hpath⟩)
  calc s.begun.length
      ≤ ((s.authorised.filter fun a => a.path = .ota).map Authorisation.nonce).length :=
        (List.subperm_of_subset hi.once hsub).length_le
    _ = (s.authorised.filter fun a => a.path = .ota).length := List.length_map _

end

def imageSha : Digest :=
  ⟨[0xde, 0x2e, 0x33, 0x1d, 0x89, 0x1a, 0xe2, 0x67, 0xa7, 0x00, 0x9c, 0xb4, 0x5b, 0x4e, 0x88, 0x30,
    0xf1, 0x70, 0xe0, 0xc9, 0x37, 0x28, 0x8e, 0xa2, 0x73, 0x1a, 0x19, 0x41, 0xc7, 0xa5, 0x3b, 0x0d], rfl⟩

def updateOnce : Authorisation := ⟨.fill 32 0x42, .ota, nonceOf (.fill 16 1) 0, [0xe9]⟩

def updateRequest (recvs : List Recv) : Label :=
  .request (.ota (.mac (updateOnce.authMac fun _ => imageSha)) (.mac updateOnce.preMac) 1
    ⟨some ⟨0x100000, by decide⟩, none, recvs, none, none⟩)

theorem begun_one_update :
    ∃ s, Runs.ReachableWhile (step (fun _ => imageSha) fun k => k = .fill 32 0x42)
        (IsInit fun k => k = .fill 32 0x42) (uploadsComplete fun _ => imageSha) s ∧
      s.begun.length = 1 ∧ s.begun.length ≤ (s.authorised.filter fun a => a.path = .ota).length := by
  obtain ⟨s, hs, hp⟩ := Runs.exists_of_run (step (fun _ => imageSha) fun k => k = .fill 32 0x42)
    (IsInit fun k => k = .fill 32 0x42) (uploadsComplete fun _ => imageSha) (start (some (.fill 32 0x42)))
    [.boot (.fill 16 1), .authorise updateOnce, updateRequest [.timeout, .data [0xe9] none]]
    (fun s => s.begun.length = 1) ⟨_, by decide +kernel, rfl⟩ (by decide +kernel)
  exact ⟨s, hs, by simpa using hp, (begun_le_authorised hs).1⟩

/-- The key holder's upload stalls; its headers, sent again by anyone, begin another one. -/
def stalledUpload : List Label :=
  [.boot (.fill 16 1), .authorise updateOnce, updateRequest (List.replicate 6 .timeout), updateRequest [.error]]

theorem begun_twice :
    ¬∀ (sha256 : Bytes → Digest) (holderKey : Psk → Bool) (s : State), Reachable sha256 holderKey s →
      s.begun.length ≤ (s.authorised.filter fun a => a.path = .ota).length := by
  intro h
  obtain ⟨s, hs, hp⟩ := Runs.exists_of_run (step (fun _ => imageSha) fun k => k = .fill 32 0x42)
    (IsInit fun k => k = .fill 32 0x42) Runs.always (start (some (.fill 32 0x42))) stalledUpload
    (fun s => s.begun.length = 2 && (s.authorised.filter fun a => a.path = .ota).length = 1)
    ⟨_, by decide +kernel, rfl⟩ (by decide +kernel)
  simp only [Bool.and_eq_true, decide_eq_true_eq] at hp
  have := h _ _ s hs
  omega

end HciBridge.Ota
