import HciBridge.Ota
import HciBridge.Runs

/-!
The board's HTTP server over any number of boots. The key holder sends requests;
an attacker without the key sees every proof and sends requests made of them.
-/

namespace HciBridge.Ota

open Auth

inductive Request
  | ota (auth pre : Header) (contentLen : ℕ) (env : OtaEnv)
  | reboot (auth pre : Header) (body : Bytes)
  | unclaim (auth pre : Header) (body : Bytes) (r : NvsResult)
deriving DecidableEq, Repr

namespace Request

def path : Request → Path
  | ota .. => .ota
  | reboot .. => .reboot
  | unclaim .. => .unclaim

def authHeader : Request → Header
  | ota auth .. | reboot auth .. | unclaim auth .. => auth

def preHeader : Request → Header
  | ota _ pre .. | reboot _ pre .. | unclaim _ pre .. => pre

def body : Request → Bytes
  | ota _ _ contentLen env => (upload contentLen env.recvs).got
  | reboot _ _ body | unclaim _ _ body _ => body

/-- The content length the pre-upload proof is checked for. -/
def announced : Request → UInt32
  | ota _ _ contentLen _ => contentLen.toUInt32
  | reboot .. | unclaim .. => 0

/-- What the handler hashes for the body proof; only `ota_post` reads its body. -/
def hashed : Request → Bytes
  | ota _ _ contentLen env => (upload contentLen env.recvs).got
  | reboot .. | unclaim .. => []

end Request

structure Authorisation where
  key : Psk
  path : Path
  nonce : HttpNonce
  body : Bytes
deriving DecidableEq, Repr

structure Act where
  path : Path
  nonce : HttpNonce
  body : Bytes
deriving DecidableEq, Repr

structure State where
  board : Board
  -- false from an effect, or before the first boot, to the next boot
  up : Bool
  rands : List (Block 16)
  -- every MAC sent so far under a key of the key holder
  wire : List Mac
  authorised : List Authorisation
  acts : List Act
  -- the nonces under which requests reached `esp_ota_begin`
  begun : List HttpNonce
deriving DecidableEq, Repr

def start (nvs : Option Psk) : State := ⟨authInit nvs (.fill 16 0), false, [], [], [], [], []⟩

inductive Label
  | boot (rand : Block 16)
  | claim (key : Option Psk) (r : NvsResult)
  | authorise (a : Authorisation)
  | sign (key : Psk) (u : Use)
  | request (r : Request)
deriving DecidableEq, Repr

section

variable (sha256 : Bytes → Digest) (holderKey : Psk → Bool)

def handle (b : Board) : Request → Outcome
  | .ota auth pre contentLen env => otaPost sha256 b auth pre contentLen env
  | .reboot auth pre _ => rebootPost sha256 b auth pre
  | .unclaim auth pre _ r => unclaimPost sha256 b auth pre r

def Authorisation.authMac (a : Authorisation) : Mac :=
  (Use.auth a.path a.nonce (sha256 a.body)).mac a.key

def Authorisation.preMac (a : Authorisation) : Mac :=
  (Use.pre a.path a.nonce a.body.length.toUInt32).mac a.key

def State.sendable (s : State) : Header → Bool
  | .missing | .malformed | .mac (.other _) => true
  | .mac (.hmac key msg) => !holderKey key || .hmac key msg ∈ s.wire

def Outcome.begins (o : Outcome) (nonce : HttpNonce) : List HttpNonce :=
  if .begin ∈ o.flash then [nonce] else []

def Outcome.acts (o : Outcome) (r : Request) (nonce : HttpNonce) : List Act :=
  if o.effect.isSome then [⟨r.path, nonce, r.body⟩] else []

def serve (s : State) (r : Request) : State :=
  let o := handle sha256 s.board r
  { s with
    board := o.board
    up := o.effect.isNone
    acts := s.acts ++ o.acts r s.board.httpNonce
    begun := s.begun ++ o.begins s.board.httpNonce }

/-- The server restarts after every effect, and may lose power at any time. Boards are claimed by
the key holder. -/
def step (s : State) : Label → Option State
  | .boot rand =>
    if rand ∈ s.rands then none
    else some { s with board := authInit s.board.nvs rand, up := true, rands := rand :: s.rands }
  | .claim key r =>
    if s.up && key.all holderKey then some { s with board := (authClaim s.board key r).1 } else none
  | .authorise a =>
    if holderKey a.key then
      some { s with wire := a.authMac sha256 :: a.preMac :: s.wire, authorised := s.authorised ++ [a] }
    else none
  | .sign key u =>
    if holderKey key && u.kind ≠ .auth && u.kind ≠ .pre then some { s with wire := u.mac key :: s.wire }
    else none
  | .request r =>
    if s.up && s.sendable holderKey r.authHeader && s.sendable holderKey r.preHeader then
      some (serve sha256 s r)
    else none

def IsInit (s : State) : Prop := ∃ nvs, nvs.all holderKey = true ∧ s = start nvs

abbrev Reachable : State → Prop := Runs.Reachable (step sha256 holderKey) (IsInit holderKey)

/-- No request is served that hashes to the digest of an authorised body without being it. -/
def noCollision (s : State) : Label → Bool
  | .request r => s.authorised.all fun a => sha256 a.body ≠ sha256 r.hashed || a.body = r.hashed
  | _ => true

inductive Step (s : State) : Label → State → Prop
  | boot (rand : Block 16) (hnew : rand ∉ s.rands) :
      Step s (.boot rand) { s with board := authInit s.board.nvs rand, up := true, rands := rand :: s.rands }
  | claim (key : Option Psk) (r : NvsResult) (hkey : key.all holderKey = true) :
      Step s (.claim key r) { s with board := (authClaim s.board key r).1 }
  | authorise (a : Authorisation) :
      Step s (.authorise a)
        { s with wire := a.authMac sha256 :: a.preMac :: s.wire, authorised := s.authorised ++ [a] }
  | sign (key : Psk) (u : Use) (hauth : u.kind ≠ .auth) (hpre : u.kind ≠ .pre) :
      Step s (.sign key u) { s with wire := u.mac key :: s.wire }
  | request (r : Request) (hup : s.up = true) (hauth : s.sendable holderKey r.authHeader = true)
      (hpre : s.sendable holderKey r.preHeader = true) : Step s (.request r) (serve sha256 s r)

structure Proofs (b : Board) (r : Request) : Prop where
  claimed : b.gClaimed = true
  pre : r.preHeader = .mac ((Use.pre r.path b.httpNonce r.announced).mac b.gPsk)

inductive Served (b : Board) (r : Request) : Outcome → Prop
  | refused (resp : Response) : Served b r ⟨b, [], resp, none⟩
  | eraseFailed (resp : Response) (hr : r.path = .unclaim) (hp : Proofs b r)
      (hauth : r.authHeader = .mac ((Use.auth r.path b.httpNonce (sha256 r.hashed)).mac b.gPsk)) :
      Served b r ⟨{ b with nvs := none }, [], resp, none⟩
  | failed (flash : List FlashOp) (resp : Response) (hr : r.path = .ota) (hp : Proofs b r) :
      Served b r ⟨b, .begin :: flash, resp, none⟩
  | done (b' : Board) (flash : List FlashOp) (resp : Response) (e : Effect) (hp : Proofs b r)
      (hauth : r.authHeader = .mac ((Use.auth r.path b.httpNonce (sha256 r.hashed)).mac b.gPsk))
      (hflash : .begin ∈ flash → r.path = .ota) (hnvs : b'.nvs = b.nvs ∨ b'.nvs = none)
      (hkey : b'.gClaimed = true → b'.gPsk = b.gPsk) : Served b r ⟨b', flash, resp, some e⟩

variable {sha256}

theorem step_cases {holderKey : Psk → Bool} {s s' : State} {l : Label}
    (h : step sha256 holderKey s l = some s') : Step sha256 holderKey s l s' := by
  cases l with
  | boot rand =>
    simp only [step] at h
    split at h
    case isTrue => cases h
    case isFalse hnew => cases h; exact .boot rand hnew
  | claim key r =>
    simp only [step] at h
    split at h
    case isTrue hg =>
      cases h
      simp only [Bool.and_eq_true] at hg
      exact .claim key r hg.2
    case isFalse => cases h
  | authorise a =>
    simp only [step] at h
    split at h
    case isTrue => cases h; exact .authorise a
    case isFalse => cases h
  | sign key u =>
    simp only [step] at h
    split at h
    case isTrue hg =>
      cases h
      simp only [Bool.and_eq_true, decide_eq_true_eq] at hg
      exact .sign key u hg.1.2 hg.2
    case isFalse => cases h
  | request r =>
    simp only [step] at h
    split at h
    case isTrue hg =>
      cases h
      simp only [Bool.and_eq_true] at hg
      exact .request r hg.1.1 hg.1.2 hg.2
    case isFalse => cases h

theorem checkMac_spec {b : Board} {header : Header} {mac : Psk → Mac} (h : checkMac b header mac = true) :
    b.gClaimed = true ∧ header = .mac (mac b.gPsk) := by
  simpa [checkMac] using h

theorem served_otaActivate {b : Board} {auth pre : Header} {contentLen : ℕ} {env : OtaEnv}
    {flash : List FlashOp} (hp : Proofs b (.ota auth pre contentLen env)) :
    Served sha256 b (.ota auth pre contentLen env)
      (otaActivate sha256 b auth env (upload contentLen env.recvs).got (.begin :: flash)) := by
  unfold otaActivate
  split
  case isTrue => exact .failed _ _ rfl hp
  case isFalse hc =>
    simp only [Bool.not_eq_true', Bool.not_eq_false] at hc
    split
    case h_1 => exact .failed _ _ rfl hp
    case h_2 =>
      split
      case h_1 => exact .failed _ _ rfl hp
      case h_2 => exact .done _ _ _ _ hp (checkMac_spec hc).2 (fun _ => rfl) (.inl rfl) (fun _ => rfl)

theorem served_otaReceive {b : Board} {auth pre : Header} {contentLen : ℕ} {env : OtaEnv}
    (hp : Proofs b (.ota auth pre contentLen env)) :
    Served sha256 b (.ota auth pre contentLen env) (otaReceive sha256 b auth contentLen env) := by
  unfold otaReceive
  split
  case h_1 => exact .failed _ _ rfl hp
  case h_2 =>
    simp only
    split
    case h_4 => exact served_otaActivate hp
    all_goals exact .failed _ _ rfl hp

theorem served_otaPost (b : Board) (auth pre : Header) (contentLen : ℕ) (env : OtaEnv) :
    Served sha256 b (.ota auth pre contentLen env) (otaPost sha256 b auth pre contentLen env) := by
  unfold otaPost
  split
  case isTrue => exact .refused _
  case isFalse =>
    split
    case h_1 => exact .refused _
    case h_2 part _ =>
      split
      case isTrue => exact .refused _
      case isFalse =>
        split
        case isTrue => exact .refused _
        case isFalse hc =>
          simp only [Bool.not_eq_true', Bool.not_eq_false] at hc
          exact served_otaReceive ⟨(checkMac_spec hc).1, (checkMac_spec hc).2⟩

theorem proved_spec {b : Board} {auth pre : Header} (path : Path)
    (h : proved sha256 b path.text auth pre = true) :
    b.gClaimed = true ∧ pre = .mac ((Use.pre path b.httpNonce 0).mac b.gPsk) ∧
      auth = .mac ((Use.auth path b.httpNonce (sha256 [])).mac b.gPsk) := by
  simp only [proved, Bool.and_eq_true] at h
  exact ⟨(checkMac_spec h.2).1, (checkMac_spec h.1.2).2, (checkMac_spec h.2).2⟩

theorem served_rebootPost (b : Board) (auth pre : Header) (body : Bytes) :
    Served sha256 b (.reboot auth pre body) (rebootPost sha256 b auth pre) := by
  unfold rebootPost
  split
  case isTrue => exact .refused _
  case isFalse hc =>
    simp only [Bool.not_eq_true', Bool.not_eq_false] at hc
    obtain ⟨hclaimed, hpre, hauth⟩ := proved_spec .reboot hc
    exact .done _ _ _ _ ⟨hclaimed, hpre⟩ hauth (by simp) (.inl rfl) (fun _ => rfl)

theorem served_unclaimPost (b : Board) (auth pre : Header) (body : Bytes) (r : NvsResult) :
    Served sha256 b (.unclaim auth pre body r) (unclaimPost sha256 b auth pre r) := by
  unfold unclaimPost
  split
  case isTrue => exact .refused _
  case isFalse hc =>
    simp only [Bool.not_eq_true', Bool.not_eq_false] at hc
    obtain ⟨hclaimed, hpre, hauth⟩ := proved_spec .unclaim hc
    cases r with
    | ok => exact .done _ _ _ _ ⟨hclaimed, hpre⟩ hauth (by simp) (.inr rfl) (by simp)
    | failed durable =>
      cases durable with
      | true => exact .eraseFailed _ rfl ⟨hclaimed, hpre⟩ hauth
      | false => exact .refused _

variable (sha256) in
theorem served_handle (b : Board) (r : Request) : Served sha256 b r (handle sha256 b r) := by
  cases r with
  | ota auth pre contentLen env => exact served_otaPost b auth pre contentLen env
  | reboot auth pre body => exact served_rebootPost b auth pre body
  | unclaim auth pre body r => exact served_unclaimPost b auth pre body r

end

end HciBridge.Ota
