import HciBridge.Settings

/-!
The key of a pinned board: `runMode` and `clientThread` of `host/main.zig`, with the errors of
`run` in `host/board.zig`.
-/

namespace HciBridge.PinnedKeys

open Text
open Auth (Bytes Block Psk ascii hexToPsk pskToHex)
open Config

inductive HandshakeError
  | authFailed | handshakeTimeout | endOfStream | io
deriving DecidableEq, Repr

inductive RunError
  | connect | tune | handshakeTimeout | authFailed | vhciOpen | session
deriving DecidableEq, Repr

structure Calls where
  connected : Bool
  tuned : Bool
  handshake : Option HandshakeError
  vhciOpened : Bool
  pumped : Bool

def run (calls : Calls) : Option RunError :=
  if !calls.connected then some .connect
  else if !calls.tuned then some .tune
  else
    match calls.handshake with
    | some .handshakeTimeout => some .handshakeTimeout
    | some _ => some .authFailed
    | none =>
      if !calls.vhciOpened then some .vhciOpen
      else if !calls.pumped then some .session
      else none

structure Client where
  host : Bytes
  port : ℕ
  psk : Option Psk
  warned : Bool

def splitHostPort (client : Bytes) (defaultPort : ℕ) : Bytes × ℕ :=
  match cut 58 client.reverse with
  | none => (client, defaultPort)
  | some (port, host) =>
    match parseInt 65535 port.reverse with
    | some p => (host.reverse, p)
    | none => (client, defaultPort)

def soleName (e : Bytes) : Bytes := ((cut 61 e).map Prod.fst).getD []

def solePsk : List Bytes → Option Psk
  | [e] => lookupPsk [e] (soleName e)
  | _ => none

def startPsk (entries : List Bytes) (host : Bytes) : Option Psk := (lookupPsk entries host).or (solePsk entries)

def startClient (s : Settings) (client : Bytes) : Client :=
  let (host, port) := splitHostPort client s.port
  ⟨host, port, startPsk s.psk host, false⟩

inductive Round
  | noKey (warning : Bool)
  | unresolved (key : Psk)
  | ran (key : Psk) (err : Option RunError)
deriving DecidableEq, Repr

def Round.key : Round → Option Psk
  | noKey _ => none
  | unresolved key => some key
  | ran key _ => some key

def reloadPsk (c : Client) (fresh : Except Error Settings) : Option Psk :=
  match fresh with
  | .ok s => lookupPsk s.psk c.host
  | .error _ => none

def clientRound (c : Client) (fresh : Except Error Settings) (resolved : Bool) (calls : Calls) :
    Client × Round :=
  let psk := c.psk.or (reloadPsk c fresh)
  match psk with
  | none => ({ c with warned := true }, .noKey (!c.warned))
  | some key =>
    if !resolved then ({ c with psk := some key }, .unresolved key)
    else
      let err := run calls
      ({ c with psk := if err = some .authFailed then none else some key }, .ran key err)

def entryPsk (e : Bytes) : Option Psk := (cut 61 e).bind fun p => hexToPsk (trim [32] p.2)

def onlyEntry : List Bytes → Option Psk
  | [e] => entryPsk e
  | _ => none

/-- One entry of the list is well-formed, the others are not. -/
def onlyWellFormed (entries : List Bytes) : Option Psk :=
  match entries.filterMap entryPsk with
  | [key] => some key
  | _ => none

def pinnedKey (sole : List Bytes → Option Psk) (entries : List Bytes) (host : Bytes) : Option Psk :=
  (lookupPsk entries host).or (sole entries)

structure SameKey (sole : List Bytes → Option Psk) (entries : List Bytes) (host : Bytes) : Prop where
  start : ∀ (s : Settings) (client : Bytes), s.psk = entries → (startClient s client).host = host →
    (startClient s client).psk = pinnedKey sole entries host
  reload : ∀ (c : Client) (s : Settings) (resolved : Bool) (calls : Calls), c.host = host → c.psk = none →
    s.psk = entries → (clientRound c (.ok s) resolved calls).2.key = pinnedKey sole entries host

theorem key_of_clientRound (c : Client) (fresh : Except Error Settings) (resolved : Bool) (calls : Calls) :
    (clientRound c fresh resolved calls).2.key = c.psk.or (reloadPsk c fresh) := by
  unfold clientRound
  cases hpsk : c.psk.or (reloadPsk c fresh) with
  | none => rfl
  | some key => cases resolved <;> simp [Round.key]

theorem entryPsk_of_entryKey {name e : Bytes} {key : Psk} (h : entryKey name e = some key) :
    entryPsk e = some key := by
  unfold entryKey at h
  unfold entryPsk
  cases hcut : cut 61 e with
  | none =>
    rw [hcut] at h
    cases h
  | some p =>
    simp only [hcut] at h
    split at h
    case isTrue => exact h
    case isFalse => cases h

theorem solePsk_eq_some {entries : List Bytes} {key : Psk} (h : solePsk entries = some key) :
    ∃ e, entries = [e] ∧ entryPsk e = some key := by
  unfold solePsk at h
  split at h
  case h_1 e =>
    rw [lookupPsk_singleton] at h
    exact ⟨e, rfl, entryPsk_of_entryKey h⟩
  case h_2 => cases h

theorem startClient_psk (s : Settings) (client : Bytes) :
    (startClient s client).psk = startPsk s.psk (startClient s client).host := rfl

theorem sameKey_iff {sole : List Bytes → Option Psk} (hsole : ∀ e, sole [e] = entryPsk e) (entries : List Bytes)
    (host : Bytes) :
    SameKey sole entries host ↔ (lookupPsk entries host).isSome = true ∨ sole entries = none := by
  constructor
  · intro h
    by_contra hno
    rw [not_or, Option.not_isSome_iff_eq_none] at hno
    have hreload := h.reload ⟨host, 0, none, false⟩ { Settings.default with psk := entries } false
      ⟨false, false, none, false, false⟩ rfl rfl rfl
    rw [key_of_clientRound, Option.none_or, reloadPsk, pinnedKey, hno.1, Option.none_or] at hreload
    exact hno.2 hreload.symm
  · intro h
    have hkey : pinnedKey sole entries host = lookupPsk entries host := by
      rcases h with hsome | hnone
      · rw [pinnedKey, Option.or_of_isSome hsome]
      · rw [pinnedKey, hnone, Option.or_none]
    refine ⟨?_, ?_⟩
    · intro s client hentries hhost
      rw [startClient_psk, hentries, hhost, hkey]
      rcases h with hsome | hnone
      · rw [startPsk, Option.or_of_isSome hsome]
      · have hnot : solePsk entries = none := by
          cases hkey' : solePsk entries with
          | none => rfl
          | some key =>
            obtain ⟨e, rfl, he⟩ := solePsk_eq_some hkey'
            rw [hsole, he] at hnone
            cases hnone
        rw [startPsk, hnot, Option.or_none]
    · intro c s resolved calls hhost hpsk hentries
      rw [key_of_clientRound, hpsk, Option.none_or, reloadPsk, hentries, hhost, hkey]

theorem pinned_key_iff (entries : List Bytes) (host : Bytes) :
    (SameKey onlyEntry entries host ↔
      (lookupPsk entries host).isSome = true ∨ onlyEntry entries = none) ∧
    (SameKey onlyWellFormed entries host ↔
      (lookupPsk entries host).isSome = true ∨ onlyWellFormed entries = none) := by
  refine ⟨sameKey_iff (fun _ => rfl) entries host, sameKey_iff (fun e => ?_) entries host⟩
  cases he : entryPsk e <;> simp [onlyWellFormed, he]

/-- A board pinned by its IP address, and the one key of the configuration under its Bluetooth address. -/
theorem sole_key_not_reloaded :
    ¬ ∀ (entries : List Bytes) (host : Bytes), SameKey onlyEntry entries host := by
  intro h
  have hsame := (h [ascii "a0:a3:b3:2f:61:1e=" ++ pskToHex (.fill 32 66)] (ascii "192.168.1.5")).reload
    ⟨ascii "192.168.1.5", 4444, none, false⟩
    { Settings.default with psk := [ascii "a0:a3:b3:2f:61:1e=" ++ pskToHex (.fill 32 66)] } false
    ⟨false, false, none, false, false⟩ rfl rfl rfl
  revert hsame
  decide +kernel

/-- The name in the entry is cut out with the blanks around it, and `lookupPsk` compares without them. -/
theorem startPsk_eq_iff (e host : Bytes) (hhost : lookupPsk [e] host = none) :
    startPsk [e] host = onlyEntry [e] ↔ onlyEntry [e] = none ∨ trim [32] (soleName e) = soleName e := by
  have hlen : ∀ {a b : Bytes}, trim [32] a = b → b.length = a.length → trim [32] a = a := by
    intro a b h hlen
    exact (trim_isInfix [32] a).eq_of_length (by rw [h, hlen])
  rw [startPsk, hhost, Option.none_or]
  simp only [solePsk, lookupPsk_singleton, onlyEntry]
  cases hcut : cut 61 e with
  | none => simp [entryKey, entryPsk, hcut]
  | some p =>
    obtain ⟨before, after⟩ := p
    simp only [entryKey, entryPsk, soleName, hcut, Option.bind_some, Option.map_some, Option.getD_some]
    by_cases hname : trim [32] before = before
    · simp [hname]
    · have hne : eqlIgnoreCase (trim [32] before) before = false := by
        rw [Bool.eq_false_iff]
        intro heq
        exact hname (hlen rfl (length_eq_of_eqlIgnoreCase heq))
      simp [hne, hname, eq_comm]

end HciBridge.PinnedKeys
