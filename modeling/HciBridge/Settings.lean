import HciBridge.AuthHex
import HciBridge.Config

/-!
`host/settings.zig`: one schema for the config file, the environment and the flags, and the key
of a board among the `bdaddr=hex` entries.
-/

namespace HciBridge.Config

open Text
open Auth (Bytes Psk ascii hexToPsk)

inductive Kind
  | str | port | u32v | boolean | list
deriving DecidableEq, Repr

inductive Field
  | discovery | bind | subnet | discoveryPort | port | vhci | reconnectMs | clients | allow | deny | psk
deriving DecidableEq, Repr

structure Desc where
  field : Field
  flag : Bytes
  env : Bytes
  key : Bytes
  kind : Kind
deriving DecidableEq, Repr

def descs : List Desc := [
  ⟨.discovery, ascii "--discovery", ascii "HCIBRIDGE_DISCOVERY", ascii "discovery", .boolean⟩,
  ⟨.bind, ascii "--bind", ascii "HCIBRIDGE_BIND", ascii "bind", .str⟩,
  ⟨.subnet, ascii "--subnet", ascii "HCIBRIDGE_SUBNET", ascii "subnet", .str⟩,
  ⟨.discoveryPort, ascii "--discovery-port", ascii "HCIBRIDGE_DISCOVERY_PORT", ascii "discovery-port", .port⟩,
  ⟨.port, ascii "--port", ascii "HCIBRIDGE_PORT", ascii "port", .port⟩,
  ⟨.vhci, ascii "--vhci", ascii "HCIBRIDGE_VHCI", ascii "vhci", .str⟩,
  ⟨.reconnectMs, ascii "--reconnect-ms", ascii "HCIBRIDGE_RECONNECT_MS", ascii "reconnect-ms", .u32v⟩,
  ⟨.clients, ascii "--client", ascii "HCIBRIDGE_CLIENTS", ascii "client", .list⟩,
  ⟨.allow, ascii "--allow", ascii "HCIBRIDGE_ALLOW", ascii "allow", .list⟩,
  ⟨.deny, ascii "--deny", ascii "HCIBRIDGE_DENY", ascii "deny", .list⟩,
  ⟨.psk, ascii "--psk", ascii "HCIBRIDGE_PSK", ascii "psk", .list⟩]

structure Settings where
  discovery : Bool
  bind : Bytes
  subnet : Bytes
  discoveryPort : ℕ
  port : ℕ
  vhci : Bytes
  reconnectMs : ℕ
  clients : List Bytes
  allow : List Bytes
  deny : List Bytes
  psk : List Bytes
  once : Bool
deriving DecidableEq, Repr

def Settings.default : Settings :=
  ⟨true, ascii "0.0.0.0", [], 4445, 4444, ascii "/dev/vhci", 1000, [], [], [], [], false⟩

def entryKey (bdaddr entry : Bytes) : Option Psk :=
  match cut 61 entry with
  | none => none
  | some (before, after) =>
    if eqlIgnoreCase (trim [32] before) bdaddr then hexToPsk (trim [32] after) else none

def lookupPsk (entries : List Bytes) (bdaddr : Bytes) : Option Psk :=
  entries.reverse.findSome? (entryKey bdaddr)

structure Layer where
  field : Field
  value : Bytes
deriving DecidableEq, Repr

inductive Error
  | missingValue | badArgument
deriving DecidableEq, Repr

def descByFlag (flag : Bytes) : Option Desc := descs.find? fun d => d.flag = flag

def descByKey (key : Bytes) : Option Desc := descs.find? fun d => d.key = key

def parseIntOr (max : ℕ) (l : Layer) (fallback : ℕ) : ℕ := (parseInt max l.value).getD fallback

def parseBool (v : Bytes) : Option Bool :=
  if eqlIgnoreCase v (ascii "on") ∨ eqlIgnoreCase v (ascii "true") ∨ eqlIgnoreCase v (ascii "yes") ∨
      v = ascii "1" then some true
  else if eqlIgnoreCase v (ascii "off") ∨ eqlIgnoreCase v (ascii "false") ∨ eqlIgnoreCase v (ascii "no") ∨
      v = ascii "0" then some false
  else none

def confLayers (pairs : List Pair) : List Layer :=
  pairs.filterMap fun p => (descByKey p.key).map fun d => ⟨d.field, p.value⟩

def listItems (v : Bytes) : List Bytes :=
  ((v.splitOn 44).map (trim [32])).filter fun t => t ≠ []

def envLayers (get : Bytes → Option Bytes) : List Layer :=
  descs.flatMap fun d =>
    match get d.env with
    | none => []
    | some v => if d.kind = .list then (listItems v).map fun t => ⟨d.field, t⟩ else [⟨d.field, v⟩]

def flagLayers : List Bytes → Except Error (Bool × List Layer)
  | [] => .ok (false, [])
  | arg :: rest =>
    if arg = ascii "--once" then
      (flagLayers rest).map fun r => (true, r.2)
    else if arg = ascii "--host" then
      match rest with
      | [] => .error .missingValue
      | v :: rest => (flagLayers rest).map fun r => (r.1, ⟨.clients, v⟩ :: ⟨.discovery, ascii "off"⟩ :: r.2)
    else if arg = ascii "--no-discovery" then
      (flagLayers rest).map fun r => (r.1, ⟨.discovery, ascii "off"⟩ :: r.2)
    else if ascii "--" <+: arg then
      match descByFlag arg with
      | none => .error .badArgument
      | some d =>
        if d.kind = .boolean then
          match rest with
          | [] => .ok (false, [⟨d.field, ascii "on"⟩])
          | v :: after =>
            if (parseBool v).isSome then (flagLayers after).map fun r => (r.1, ⟨d.field, v⟩ :: r.2)
            else (flagLayers (v :: after)).map fun r => (r.1, ⟨d.field, ascii "on"⟩ :: r.2)
        else
          match rest with
          | [] => .error .missingValue
          | v :: rest => (flagLayers rest).map fun r => (r.1, ⟨d.field, v⟩ :: r.2)
    else .error .badArgument

def Settings.apply (s : Settings) (l : Layer) : Settings :=
  match l.field with
  | .discovery => { s with discovery := (parseBool l.value).getD s.discovery }
  | .bind => { s with bind := l.value }
  | .subnet => { s with subnet := l.value }
  | .discoveryPort => { s with discoveryPort := parseIntOr 65535 l s.discoveryPort }
  | .port => { s with port := parseIntOr 65535 l s.port }
  | .vhci => { s with vhci := l.value }
  | .reconnectMs => { s with reconnectMs := parseIntOr 4294967295 l s.reconnectMs }
  | .clients => { s with clients := s.clients ++ [l.value] }
  | .allow => { s with allow := s.allow ++ [l.value] }
  | .deny => { s with deny := s.deny ++ [l.value] }
  | .psk => { s with psk := s.psk ++ [l.value] }

def resolve (confPairs : List Pair) (args : List Bytes) (get : Bytes → Option Bytes) : Except Error Settings := do
  let (once, flags) ← flagLayers args
  let layered := confLayers confPairs ++ envLayers get ++ flags
  return layered.foldl Settings.apply { Settings.default with once := once }

def pskItems (ls : List Layer) : List Bytes := (ls.filter fun l => l.field = .psk).map Layer.value

@[simp] theorem pskItems_append (ls ms : List Layer) : pskItems (ls ++ ms) = pskItems ls ++ pskItems ms := by
  simp only [pskItems, List.filter_append, List.map_append]

def pskOf (p : Pair) : Option Bytes :=
  if (descByKey p.key).map Desc.field = some .psk then some p.value else none

theorem pskItems_confLayers (pairs : List Pair) : pskItems (confLayers pairs) = pairs.filterMap pskOf := by
  induction pairs with
  | nil => rfl
  | cons p pairs ih =>
    have hsplit : confLayers (p :: pairs) = confLayers [p] ++ confLayers pairs := by
      rw [confLayers, confLayers, confLayers, ← List.filterMap_append, List.singleton_append]
    have hone : pskItems (confLayers [p]) = (pskOf p).toList := by
      cases hd : descByKey p.key with
      | none => simp [confLayers, pskItems, pskOf, hd]
      | some d => by_cases hf : d.field = .psk <;> simp [confLayers, pskItems, pskOf, hd, hf]
    rw [hsplit, pskItems_append, ih, hone]
    cases hp : pskOf p <;> simp [hp]

theorem apply_psk (s : Settings) (l : Layer) : (s.apply l).psk = s.psk ++ pskItems [l] := by
  obtain ⟨field, value⟩ := l
  cases field <;> simp [Settings.apply, pskItems]

theorem foldl_apply_psk (ls : List Layer) (s : Settings) :
    (ls.foldl Settings.apply s).psk = s.psk ++ pskItems ls := by
  induction ls generalizing s with
  | nil => simp [pskItems]
  | cons l ls ih =>
    rw [List.foldl_cons, ih, apply_psk, List.append_assoc, ← pskItems_append, List.singleton_append]

theorem resolve_psk {confPairs : List Pair} {args : List Bytes} {get : Bytes → Option Bytes} {s : Settings}
    (h : resolve confPairs args get = .ok s) :
    ∃ once flags, flagLayers args = .ok (once, flags) ∧
      s.psk = pskItems (confLayers confPairs) ++ pskItems (envLayers get) ++ pskItems flags := by
  unfold resolve at h
  cases hf : flagLayers args with
  | error e =>
    rw [hf] at h
    cases h
  | ok r =>
    rw [hf] at h
    cases h
    refine ⟨r.1, r.2, rfl, ?_⟩
    rw [foldl_apply_psk, pskItems_append, pskItems_append]
    rfl

theorem resolve_nil (confPairs : List Pair) (get : Bytes → Option Bytes) :
    ∃ s, resolve confPairs [] get = .ok s ∧
      s.psk = pskItems (confLayers confPairs) ++ pskItems (envLayers get) := by
  refine ⟨_, rfl, ?_⟩
  rw [foldl_apply_psk, pskItems_append, pskItems_append]
  simp [Settings.default, pskItems]

theorem lookupPsk_append (a b : List Bytes) (bdaddr : Bytes) :
    lookupPsk (a ++ b) bdaddr = (lookupPsk b bdaddr).or (lookupPsk a bdaddr) := by
  simp only [lookupPsk, List.reverse_append, List.findSome?_append]

theorem lookupPsk_singleton (e bdaddr : Bytes) : lookupPsk [e] bdaddr = entryKey bdaddr e := by
  simp only [lookupPsk, List.reverse_singleton, List.findSome?_singleton]

theorem lookupPsk_of_unique {entries : List Bytes} {bdaddr e : Bytes} {psk : Auth.Psk} (hmem : e ∈ entries)
    (he : entryKey bdaddr e = some psk) (hother : ∀ e' ∈ entries, e' = e ∨ entryKey bdaddr e' = none) :
    lookupPsk entries bdaddr = some psk := by
  cases hk : lookupPsk entries bdaddr with
  | none =>
    rw [lookupPsk, List.findSome?_eq_none_iff] at hk
    rw [hk e (List.mem_reverse.mpr hmem)] at he
    cases he
  | some k =>
    obtain ⟨e', hmem', hk'⟩ := List.exists_of_findSome?_eq_some hk
    rcases hother e' (List.mem_reverse.mp hmem') with rfl | hnone
    · rw [← hk', he]
    · rw [hnone] at hk'
      cases hk'

end HciBridge.Config
