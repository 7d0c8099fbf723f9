import HciBridge.Auth
import HciBridge.Runs

/-!
The transport handshake between any number of hosts (`clientWith`) and boards
(`boardWith`, `handshake_inner`) that share a key, over a network that belongs
to an attacker: whatever is read, the attacker chose.
-/

namespace HciBridge.Handshake

open Auth

/-- `clientWith`; the result is there once it has returned, and `true` without an error. -/
structure Host where
  serverNonce : Option Nonce
  clientNonce : Option Nonce
  result : Option Bool
deriving DecidableEq, Repr

/-- `boardWith`; `clientNonce` is the one whose proof it accepted. -/
structure Board where
  serverNonce : Option Nonce
  clientNonce : Option Nonce
  replied : Bool
  closed : Bool
deriving DecidableEq, Repr

structure State where
  hosts : ℕ → Host
  boards : ℕ → Board
  -- the nonces drawn so far, and the MACs under any key that honest parties have sent
  drawn : List Nonce
  wire : List Mac

def init : State where
  hosts := fun _ => ⟨none, none, none⟩
  boards := fun _ => ⟨none, none, false, false⟩
  drawn := []
  wire := []

inductive Label
  | hostReadNonce (i : ℕ) (serverNonce : Nonce)
  | hostProve (i : ℕ) (clientNonce : Nonce)
  | hostReadProof (i : ℕ) (mac : Mac)
  | hostFail (i : ℕ)
  | boardStart (j : ℕ) (serverNonce : Nonce)
  | boardReadProof (j : ℕ) (clientNonce : Nonce) (mac : Mac)
  | boardReply (j : ℕ) (replyPsk : Option Psk)
  | boardFail (j : ℕ)
  | sign (u : Use)
deriving DecidableEq, Repr

/-- What the attacker can send: bytes it saw, MACs under keys of its own, and anything that is no
MAC. -/
def State.knows (s : State) (psk : Psk) : Mac → Bool
  | .hmac key msg => key ≠ psk || .hmac key msg ∈ s.wire
  | .other _ => true

section

variable (psk : Psk)

def clientWith (s : State) (l : Label) : Option State :=
  match l with
  | .hostReadNonce i sn =>
    let h := s.hosts i
    if h.serverNonce = none ∧ h.result = none then
      some { s with hosts := Function.update s.hosts i { h with serverNonce := some sn } }
    else none
  | .hostProve i cn =>
    let h := s.hosts i
    match h.serverNonce with
    | none => none
    | some sn =>
      if h.clientNonce = none ∧ h.result = none ∧ cn ∉ s.drawn then
        some { s with
          hosts := Function.update s.hosts i { h with clientNonce := some cn }
          drawn := cn :: s.drawn
          wire := clientMac psk sn cn :: s.wire }
      else none
  | .hostReadProof i mac =>
    let h := s.hosts i
    match h.serverNonce, h.clientNonce with
    | some sn, some cn =>
      if h.result = none ∧ s.knows psk mac then
        some { s with hosts := Function.update s.hosts i { h with result := some (mac = boardMac psk cn sn) } }
      else none
    | _, _ => none
  | .hostFail i =>
    let h := s.hosts i
    if h.result = none then
      some { s with hosts := Function.update s.hosts i { h with result := some false } }
    else none
  | _ => none

/-- `replyPsk` is the simulator's test hook; the firmware signs with its own key. -/
def boardWith (s : State) (l : Label) : Option State :=
  match l with
  | .boardStart j sn =>
    let b := s.boards j
    if b.serverNonce = none ∧ b.closed = false ∧ sn ∉ s.drawn then
      some { s with
        boards := Function.update s.boards j { b with serverNonce := some sn }
        drawn := sn :: s.drawn }
    else none
  | .boardReadProof j cn mac =>
    let b := s.boards j
    match b.serverNonce with
    | none => none
    | some sn =>
      if b.clientNonce = none ∧ b.closed = false ∧ s.knows psk mac then
        if mac = clientMac psk sn cn then
          some { s with boards := Function.update s.boards j { b with clientNonce := some cn } }
        else some { s with boards := Function.update s.boards j { b with closed := true } }
      else none
  | .boardReply j replyPsk =>
    let b := s.boards j
    match b.serverNonce, b.clientNonce with
    | some sn, some cn =>
      if b.replied = false ∧ b.closed = false then
        some { s with
          boards := Function.update s.boards j { b with replied := true }
          wire := boardMac (replyPsk.getD psk) cn sn :: s.wire }
      else none
    | _, _ => none
  | .boardFail j =>
    let b := s.boards j
    some { s with boards := Function.update s.boards j { b with closed := true } }
  | _ => none

def signOther (s : State) (u : Use) : Option State :=
  match u with
  | .client .. | .board .. => none
  | u => some { s with wire := u.mac psk :: s.wire }

def step (s : State) (l : Label) : Option State :=
  match l with
  | .sign u => signOther psk s u
  | .boardStart .. | .boardReadProof .. | .boardReply .. | .boardFail .. => boardWith psk s l
  | _ => clientWith psk s l

abbrev IsInit (s : State) : Prop := s = init

abbrev Reachable : State → Prop := Runs.Reachable (step psk) IsInit

inductive Step (s : State) : Label → State → Prop
  | hostReadNonce (i : ℕ) (sn : Nonce) (h : (s.hosts i).serverNonce = none) :
      Step s (.hostReadNonce i sn)
        { s with hosts := Function.update s.hosts i { s.hosts i with serverNonce := some sn } }
  | hostProve (i : ℕ) (sn cn : Nonce) (h : (s.hosts i).serverNonce = some sn)
      (hc : (s.hosts i).clientNonce = none) (hr : (s.hosts i).result = none) (hnew : cn ∉ s.drawn) :
      Step s (.hostProve i cn)
        { s with
          hosts := Function.update s.hosts i { s.hosts i with clientNonce := some cn }
          drawn := cn :: s.drawn
          wire := clientMac psk sn cn :: s.wire }
  | hostReadProof (i : ℕ) (sn cn : Nonce) (mac : Mac) (h : (s.hosts i).serverNonce = some sn)
      (hc : (s.hosts i).clientNonce = some cn) (hk : s.knows psk mac = true) :
      Step s (.hostReadProof i mac)
        { s with
          hosts := Function.update s.hosts i
            { s.hosts i with result := some (mac = boardMac psk cn sn) } }
  | hostFail (i : ℕ) :
      Step s (.hostFail i)
        { s with hosts := Function.update s.hosts i { s.hosts i with result := some false } }
  | boardStart (j : ℕ) (sn : Nonce) (h : (s.boards j).serverNonce = none) (hnew : sn ∉ s.drawn) :
      Step s (.boardStart j sn)
        { s with
          boards := Function.update s.boards j { s.boards j with serverNonce := some sn }
          drawn := sn :: s.drawn }
  | boardAccept (j : ℕ) (sn cn : Nonce) (h : (s.boards j).serverNonce = some sn)
      (hc : (s.boards j).clientNonce = none) (hk : s.knows psk (clientMac psk sn cn) = true) :
      Step s (.boardReadProof j cn (clientMac psk sn cn))
        { s with boards := Function.update s.boards j { s.boards j with clientNonce := some cn } }
  | boardRefuse (j : ℕ) (cn : Nonce) (mac : Mac) :
      Step s (.boardReadProof j cn mac)
        { s with boards := Function.update s.boards j { s.boards j with closed := true } }
  | boardReply (j : ℕ) (sn cn : Nonce) (replyPsk : Option Psk) (h : (s.boards j).serverNonce = some sn)
      (hc : (s.boards j).clientNonce = some cn) :
      Step s (.boardReply j replyPsk)
        { s with
          boards := Function.update s.boards j { s.boards j with replied := true }
          wire := boardMac (replyPsk.getD psk) cn sn :: s.wire }
  | boardFail (j : ℕ) :
      Step s (.boardFail j)
        { s with boards := Function.update s.boards j { s.boards j with closed := true } }
  | sign (u : Use) (hc : u.kind ≠ .client) (hb : u.kind ≠ .board) :
      Step s (.sign u) { s with wire := u.mac psk :: s.wire }

variable {psk}

theorem clientWith_step {s s' : State} {l : Label} (h : clientWith psk s l = some s') : Step psk s l s' := by
  unfold clientWith at h
  split at h
  case h_1 i sn =>
    simp only at h
    split at h
    case isTrue hg => cases h; exact .hostReadNonce i sn hg.1
    case isFalse => cases h
  case h_2 i cn =>
    simp only at h
    split at h
    case h_1 => cases h
    case h_2 sn hsn =>
      split at h
      case isTrue hg => cases h; exact .hostProve i sn cn hsn hg.1 hg.2.1 hg.2.2
      case isFalse => cases h
  case h_3 i mac =>
    simp only at h
    split at h
    case h_1 sn cn hsn hcn =>
      split at h
      case isTrue hg => cases h; exact .hostReadProof i sn cn mac hsn hcn hg.2
      case isFalse => cases h
    case h_2 => cases h
  case h_4 i =>
    simp only at h
    split at h
    case isTrue => cases h; exact .hostFail i
    case isFalse => cases h
  case h_5 => cases h

theorem boardWith_step {s s' : State} {l : Label} (h : boardWith psk s l = some s') : Step psk s l s' := by
  unfold boardWith at h
  split at h
  case h_1 j sn =>
    simp only at h
    split at h
    case isTrue hg => cases h; exact .boardStart j sn hg.1 hg.2.2
    case isFalse => cases h
  case h_2 j cn mac =>
    simp only at h
    split at h
    case h_1 => cases h
    case h_2 sn hsn =>
      split at h
      case isTrue hg =>
        split at h
        case isTrue hmac =>
          cases h
          subst hmac
          exact .boardAccept j sn cn hsn hg.1 hg.2.2
        case isFalse => cases h; exact .boardRefuse j cn mac
      case isFalse => cases h
  case h_3 j replyPsk =>
    simp only at h
    split at h
    case h_1 sn cn hsn hcn =>
      split at h
      case isTrue => cases h; exact .boardReply j sn cn replyPsk hsn hcn
      case isFalse => cases h
    case h_2 => cases h
  case h_4 j => cases h; exact .boardFail j
  case h_5 => cases h

theorem signOther_step {s s' : State} {u : Use} (h : signOther psk s u = some s') :
    Step psk s (.sign u) s' := by
  cases u with
  | client | board => cases h
  | announce | auth | pre | legacy => cases h; exact .sign _ (by simp [Use.kind]) (by simp [Use.kind])

theorem step_cases {s s' : State} {l : Label} (h : step psk s l = some s') : Step psk s l s' := by
  unfold step at h
  split at h
  case h_1 => exact signOther_step h
  case h_6 => exact clientWith_step h
  all_goals exact boardWith_step h

end

end HciBridge.Handshake
