import Mathlib.Tactic.Common
import HciBridge.H4Calls

/-!
`Session.run` of `host/session.zig`: two pumps on tasks of their own share the stop flag, the first
error and the socket, and `run` waits for both.
-/

namespace HciBridge.Session

open H4 (Reassembler PacketType maxPacketLen)

abbrev Bytes := List UInt8

inductive Err
  | EndOfStream | ConnectionResetByPeer | LocalEndpointClosed
  | framing (e : H4.Error)
  | other (name : ℕ)
deriving DecidableEq, Repr

/-- What a remote end may do without `run` calling it an error. -/
def Err.clean : Err → Bool
  | EndOfStream | ConnectionResetByPeer => true
  | _ => false

structure Stats where
  toController : ℕ
  toHost : ℕ
deriving DecidableEq, Repr

/-- `fail` and `shutdown`, which end both pumps. -/
inductive End
  | testError (e : Err)
  | setError (e : Err)
  | storeStop
  | shutdown
  | ended
deriving DecidableEq, Repr

inductive ToLocalPc
  | unstarted
  | loadStop
  | fill
  | feed (chunk : Bytes)
  | write (pkt rest : Bytes)
  | ending (e : End)
deriving DecidableEq, Repr

inductive ToTcpPc
  | unstarted
  | loadStop
  | poll
  | read
  | write (pkt : Bytes)
  | ending (e : End)
deriving DecidableEq, Repr

inductive RunPc
  | spawnToLocal
  | spawnToTcp
  -- the second pump could not be started
  | storeStop (e : Err)
  | shutdown (e : Err)
  | awaitOnly (e : Err)
  | awaitToLocal
  | awaitToTcp
  | finished (r : Except Err Stats)
deriving DecidableEq

structure State where
  stop : Bool
  shut : Bool
  stats : Stats
  firstError : Option Err
  toLocal : ToLocalPc
  re : Reassembler
  toTcp : ToTcpPc
  run : RunPc
  -- histories: bytes received, packets written to the local endpoint, packets handed to the stream and
  -- those it took whole, errors the pumps ended with, why a task could not be started
  received : Bytes
  written : List Bytes
  offered : List Bytes
  sent : List Bytes
  failures : List Err
  notStarted : Option Err
deriving DecidableEq

def init (storage : Bytes) : State where
  stop := false
  shut := false
  stats := ⟨0, 0⟩
  firstError := none
  toLocal := .unstarted
  re := .init storage
  toTcp := .unstarted
  run := .spawnToLocal
  received := []
  written := []
  offered := []
  sent := []
  failures := []
  notStarted := none

/-- What `poll` says of the local endpoint: nothing for 250 ms, or `POLLIN` and one of the error bits. -/
inductive Polled
  | timeout
  | ready (readable broken : Bool)
deriving DecidableEq, Repr

/-- The results of the calls a step makes; a step that can only go one way is `toLocal`, `toTcp` or `run`. -/
inductive Label
  | run
  | spawn (e : Option Err)
  | toLocal
  | fill (r : Except Err Bytes)
  | writePacket (e : Option Err)
  | toTcp
  | poll (r : Except Err Polled)
  | readPacket (r : Except Err Bytes)
  | writeAll (e : Option Err)
deriving DecidableEq

def endStep (s : State) : End → Option (State × End)
  | .testError e => some (s, if s.firstError = none ∧ e.clean = false then .setError e else .storeStop)
  | .setError e => some ({ s with firstError := some e }, .storeStop)
  | .storeStop => some ({ s with stop := true }, .shutdown)
  | .shutdown => some ({ s with shut := true }, .ended)
  | .ended => none

def State.failToLocal (s : State) (e : Err) : State :=
  { s with toLocal := .ending (.testError e), failures := s.failures ++ [e] }

def State.failToTcp (s : State) (e : Err) : State :=
  { s with toTcp := .ending (.testError e), failures := s.failures ++ [e] }

def readBufLen : ℕ := 4096

/-- `none` of `feed` is a safety check firing, which `feed_spec` rules out. -/
def feedChunk (s : State) (chunk : Bytes) : Option State :=
  match s.re.feed chunk with
  | none => none
  | some (re, .error e) => some ({ s with re := re }.failToLocal (.framing e))
  | some (re, .ok ⟨consumed, none⟩) => some { s with re := re, toLocal := .feed (chunk.drop consumed) }
  | some (re, .ok ⟨consumed, some pkt⟩) =>
    some { s with re := re, toLocal := .write pkt (chunk.drop consumed) }

def pumpTcpToLocal (s : State) (l : Label) : Option State :=
  match s.toLocal, l with
  | .loadStop, .toLocal => some { s with toLocal := if s.stop then .ending .storeStop else .fill }
  | .fill, .fill (.error .EndOfStream) => some { s with toLocal := .ending .storeStop }
  | .fill, .fill (.error e) => some (s.failToLocal e)
  | .fill, .fill (.ok chunk) =>
    if chunk ≠ [] ∧ chunk.length ≤ readBufLen then
      some { s with toLocal := .feed chunk, received := s.received ++ chunk }
    else none
  | .feed chunk, .toLocal => if chunk = [] then some { s with toLocal := .loadStop } else feedChunk s chunk
  | .write _ _, .writePacket (some e) => some (s.failToLocal e)
  | .write pkt rest, .writePacket none =>
    some { s with
      stats := { s.stats with toController := s.stats.toController + 1 }
      written := s.written ++ [pkt]
      toLocal := .feed rest }
  | .ending e, .toLocal => (endStep s e).map fun r => { r.1 with toLocal := .ending r.2 }
  | _, _ => none

def pumpLocalToTcp (s : State) (l : Label) : Option State :=
  match s.toTcp, l with
  | .loadStop, .toTcp => some { s with toTcp := if s.stop then .ending .storeStop else .poll }
  | .poll, .poll (.error e) => some (s.failToTcp e)
  | .poll, .poll (.ok .timeout) => some { s with toTcp := .loadStop }
  | .poll, .poll (.ok (.ready readable broken)) =>
    if broken ∧ ¬readable then some (s.failToTcp .LocalEndpointClosed) else some { s with toTcp := .read }
  | .read, .readPacket (.error e) => some (s.failToTcp e)
  | .read, .readPacket (.ok []) => some (s.failToTcp .EndOfStream)
  | .read, .readPacket (.ok (b :: tl)) =>
    if (b :: tl).length ≤ maxPacketLen then
      if (PacketType.fromByte b).isNone then some { s with toTcp := .loadStop }
      else some { s with toTcp := .write (b :: tl), offered := s.offered ++ [b :: tl] }
    else none
  | .write _, .writeAll (some e) => some (s.failToTcp e)
  | .write pkt, .writeAll none =>
    some { s with
      stats := { s.stats with toHost := s.stats.toHost + 1 }
      sent := s.sent ++ [pkt]
      toTcp := .loadStop }
  | .ending e, .toTcp => (endStep s e).map fun r => { r.1 with toTcp := .ending r.2 }
  | _, _ => none

def State.result (s : State) : Except Err Stats :=
  match s.firstError with
  | some e => .error e
  | none => .ok s.stats

def runTask (s : State) (l : Label) : Option State :=
  match s.run, l with
  | .spawnToLocal, .spawn none => some { s with toLocal := .loadStop, run := .spawnToTcp }
  | .spawnToLocal, .spawn (some e) => some { s with run := .finished (.error e), notStarted := some e }
  | .spawnToTcp, .spawn none => some { s with toTcp := .loadStop, run := .awaitToLocal }
  | .spawnToTcp, .spawn (some e) => some { s with run := .storeStop e, notStarted := some e }
  | .storeStop e, .run => some { s with stop := true, run := .shutdown e }
  | .shutdown e, .run => some { s with shut := true, run := .awaitOnly e }
  | .awaitOnly e, .run =>
    if s.toLocal = .ending .ended then some { s with run := .finished (.error e) } else none
  | .awaitToLocal, .run => if s.toLocal = .ending .ended then some { s with run := .awaitToTcp } else none
  | .awaitToTcp, .run =>
    if s.toTcp = .ending .ended then some { s with run := .finished s.result } else none
  | _, _ => none

def step (s : State) (l : Label) : Option State :=
  match l with
  | .run | .spawn _ => runTask s l
  | .toLocal | .fill _ | .writePacket _ => pumpTcpToLocal s l
  | .toTcp | .poll _ | .readPacket _ | .writeAll _ => pumpLocalToTcp s l

def IsInit (s : State) : Prop := ∃ storage : Bytes, storage.length = maxPacketLen ∧ s = init storage

abbrev Reachable : State → Prop := Runs.Reachable step IsInit

inductive EndStep (s : State) : End → State → End → Prop
  | report {e : Err} (hfirst : s.firstError = none) (he : e.clean = false) : EndStep s (.testError e) s (.setError e)
  | ignore {e : Err} (h : s.firstError ≠ none ∨ e.clean = true) : EndStep s (.testError e) s .storeStop
  | setError {e : Err} : EndStep s (.setError e) { s with firstError := some e } .storeStop
  | storeStop : EndStep s .storeStop { s with stop := true } .shutdown
  | shutdown : EndStep s .shutdown { s with shut := true } .ended

theorem endStep_cases {s s' : State} {e e' : End} (h : endStep s e = some (s', e')) : EndStep s e s' e' := by
  cases e with
  | testError e =>
    simp only [endStep, Option.some.injEq, Prod.mk.injEq] at h
    obtain ⟨rfl, rfl⟩ := h
    split
    case isTrue hc => exact .report hc.1 hc.2
    case isFalse hc =>
      refine .ignore ?_
      rw [not_and_or, Bool.not_eq_false] at hc
      exact hc
  | setError e =>
    cases h
    exact .setError
  | storeStop =>
    cases h
    exact .storeStop
  | shutdown =>
    cases h
    exact .shutdown
  | ended => cases h

inductive Step (s : State) : Label → State → Prop
  -- pumpTcpToLocal
  | readOn (h : s.toLocal = .loadStop) (hs : s.stop = false) : Step s .toLocal { s with toLocal := .fill }
  | readStop (h : s.toLocal = .loadStop) (hs : s.stop = true) : Step s .toLocal { s with toLocal := .ending .storeStop }
  | closed (h : s.toLocal = .fill) : Step s (.fill (.error .EndOfStream)) { s with toLocal := .ending .storeStop }
  | fillFailed {e : Err} (h : s.toLocal = .fill) : Step s (.fill (.error e)) (s.failToLocal e)
  | filled {chunk : Bytes} (h : s.toLocal = .fill) (hne : chunk ≠ []) (hlen : chunk.length ≤ readBufLen) :
      Step s (.fill (.ok chunk)) { s with toLocal := .feed chunk, received := s.received ++ chunk }
  | fed (h : s.toLocal = .feed []) : Step s .toLocal { s with toLocal := .loadStop }
  | feedFailed {chunk : Bytes} {re : Reassembler} {e : H4.Error} (h : s.toLocal = .feed chunk)
      (hfeed : s.re.feed chunk = some (re, .error e)) :
      Step s .toLocal ({ s with re := re }.failToLocal (.framing e))
  | feedOn {chunk : Bytes} {re : Reassembler} {n : ℕ} (h : s.toLocal = .feed chunk) (hne : chunk ≠ [])
      (hfeed : s.re.feed chunk = some (re, .ok ⟨n, none⟩)) :
      Step s .toLocal { s with re := re, toLocal := .feed (chunk.drop n) }
  | feedPacket {chunk pkt : Bytes} {re : Reassembler} {n : ℕ} (h : s.toLocal = .feed chunk) (hne : chunk ≠ [])
      (hfeed : s.re.feed chunk = some (re, .ok ⟨n, some pkt⟩)) :
      Step s .toLocal { s with re := re, toLocal := .write pkt (chunk.drop n) }
  | packetFailed {pkt rest : Bytes} {e : Err} (h : s.toLocal = .write pkt rest) :
      Step s (.writePacket (some e)) (s.failToLocal e)
  | packetWritten {pkt rest : Bytes} (h : s.toLocal = .write pkt rest) :
      Step s (.writePacket none) { s with
        stats := { s.stats with toController := s.stats.toController + 1 }
        written := s.written ++ [pkt]
        toLocal := .feed rest }
  | toLocalEnd {e e' : End} {t : State} (h : s.toLocal = .ending e) (hend : EndStep s e t e') :
      Step s .toLocal { t with toLocal := .ending e' }
  -- pumpLocalToTcp
  | pollOn (h : s.toTcp = .loadStop) (hs : s.stop = false) : Step s .toTcp { s with toTcp := .poll }
  | pollStop (h : s.toTcp = .loadStop) (hs : s.stop = true) : Step s .toTcp { s with toTcp := .ending .storeStop }
  | pollFailed {e : Err} (h : s.toTcp = .poll) : Step s (.poll (.error e)) (s.failToTcp e)
  | pollTimeout (h : s.toTcp = .poll) : Step s (.poll (.ok .timeout)) { s with toTcp := .loadStop }
  | pollBroken (h : s.toTcp = .poll) :
      Step s (.poll (.ok (.ready false true))) (s.failToTcp .LocalEndpointClosed)
  | pollReady {readable broken : Bool} (h : s.toTcp = .poll) :
      Step s (.poll (.ok (.ready readable broken))) { s with toTcp := .read }
  | readFailed {e : Err} (h : s.toTcp = .read) : Step s (.readPacket (.error e)) (s.failToTcp e)
  | readNothing (h : s.toTcp = .read) : Step s (.readPacket (.ok [])) (s.failToTcp .EndOfStream)
  | readUnknown {pkt : Bytes} (h : s.toTcp = .read) : Step s (.readPacket (.ok pkt)) { s with toTcp := .loadStop }
  | readKnown {b : UInt8} {tl : Bytes} (h : s.toTcp = .read) (hb : (PacketType.fromByte b).isSome = true) :
      Step s (.readPacket (.ok (b :: tl))) { s with toTcp := .write (b :: tl), offered := s.offered ++ [b :: tl] }
  | writeFailed {pkt : Bytes} {e : Err} (h : s.toTcp = .write pkt) : Step s (.writeAll (some e)) (s.failToTcp e)
  | written {pkt : Bytes} (h : s.toTcp = .write pkt) :
      Step s (.writeAll none) { s with
        stats := { s.stats with toHost := s.stats.toHost + 1 }
        sent := s.sent ++ [pkt]
        toTcp := .loadStop }
  | toTcpEnd {e e' : End} {t : State} (h : s.toTcp = .ending e) (hend : EndStep s e t e') :
      Step s .toTcp { t with toTcp := .ending e' }
  -- run
  | spawned (h : s.run = .spawnToLocal) : Step s (.spawn none) { s with toLocal := .loadStop, run := .spawnToTcp }
  | notSpawned {e : Err} (h : s.run = .spawnToLocal) :
      Step s (.spawn (some e)) { s with run := .finished (.error e), notStarted := some e }
  | bothSpawned (h : s.run = .spawnToTcp) : Step s (.spawn none) { s with toTcp := .loadStop, run := .awaitToLocal }
  | oneSpawned {e : Err} (h : s.run = .spawnToTcp) :
      Step s (.spawn (some e)) { s with run := .storeStop e, notStarted := some e }
  | runStop {e : Err} (h : s.run = .storeStop e) : Step s .run { s with stop := true, run := .shutdown e }
  | runShutdown {e : Err} (h : s.run = .shutdown e) : Step s .run { s with shut := true, run := .awaitOnly e }
  | gaveUp {e : Err} (h : s.run = .awaitOnly e) (hl : s.toLocal = .ending .ended) :
      Step s .run { s with run := .finished (.error e) }
  | joined (h : s.run = .awaitToLocal) (hl : s.toLocal = .ending .ended) : Step s .run { s with run := .awaitToTcp }
  | returned (h : s.run = .awaitToTcp) (ht : s.toTcp = .ending .ended) :
      Step s .run { s with run := .finished s.result }

section Cases

variable {s s' : State} {l : Label}

theorem feedChunk_cases {chunk : Bytes} (h : feedChunk s chunk = some s') (hpc : s.toLocal = .feed chunk)
    (hne : chunk ≠ []) : Step s .toLocal s' := by
  unfold feedChunk at h
  split at h
  case h_1 => cases h
  case h_2 hfeed =>
    cases h
    exact .feedFailed hpc hfeed
  case h_3 hfeed =>
    cases h
    exact .feedOn hpc hne hfeed
  case h_4 hfeed =>
    cases h
    exact .feedPacket hpc hne hfeed

theorem pumpTcpToLocal_cases (h : pumpTcpToLocal s l = some s') : Step s l s' := by
  unfold pumpTcpToLocal at h
  split at h
  case h_1 hpc =>
    cases h
    by_cases hs : s.stop = true
    · rw [if_pos hs]
      exact .readStop hpc hs
    · rw [if_neg hs]
      exact .readOn hpc (Bool.eq_false_of_not_eq_true hs)
  case h_2 hpc =>
    cases h
    exact .closed hpc
  case h_3 hpc =>
    cases h
    exact .fillFailed hpc
  case h_4 hpc =>
    obtain ⟨⟨hne, hlen⟩, rfl⟩ := Option.ite_some_none_eq_some.mp h
    exact .filled hpc hne hlen
  case h_5 chunk hpc =>
    split at h
    case isTrue hnil =>
      cases h
      exact .fed (hnil ▸ hpc)
    case isFalse hne => exact feedChunk_cases h hpc hne
  case h_6 hpc =>
    cases h
    exact .packetFailed hpc
  case h_7 hpc =>
    cases h
    exact .packetWritten hpc
  case h_8 hpc =>
    obtain ⟨⟨t, e'⟩, hend, rfl⟩ := Option.map_eq_some_iff.mp h
    exact .toLocalEnd hpc (endStep_cases hend)
  case h_9 => cases h

theorem pumpLocalToTcp_cases (h : pumpLocalToTcp s l = some s') : Step s l s' := by
  unfold pumpLocalToTcp at h
  split at h
  case h_1 hpc =>
    cases h
    by_cases hs : s.stop = true
    · rw [if_pos hs]
      exact .pollStop hpc hs
    · rw [if_neg hs]
      exact .pollOn hpc (Bool.eq_false_of_not_eq_true hs)
  case h_2 hpc =>
    cases h
    exact .pollFailed hpc
  case h_3 hpc =>
    cases h
    exact .pollTimeout hpc
  case h_4 readable broken hpc =>
    split at h
    case isTrue hb =>
      cases h
      obtain ⟨rfl, hr⟩ := hb
      rw [Bool.not_eq_true] at hr
      subst hr
      exact .pollBroken hpc
    case isFalse =>
      cases h
      exact .pollReady hpc
  case h_5 hpc =>
    cases h
    exact .readFailed hpc
  case h_6 hpc =>
    cases h
    exact .readNothing hpc
  case h_7 b tl hpc =>
    split at h
    case isTrue =>
      split at h
      case isTrue =>
        cases h
        exact .readUnknown hpc
      case isFalse hb =>
        cases h
        rw [Option.isNone_iff_eq_none, ← ne_eq, ← Option.isSome_iff_ne_none] at hb
        exact .readKnown hpc hb
    case isFalse => cases h
  case h_8 hpc =>
    cases h
    exact .writeFailed hpc
  case h_9 hpc =>
    cases h
    exact .written hpc
  case h_10 hpc =>
    obtain ⟨⟨t, e'⟩, hend, rfl⟩ := Option.map_eq_some_iff.mp h
    exact .toTcpEnd hpc (endStep_cases hend)
  case h_11 => cases h

theorem runTask_cases (h : runTask s l = some s') : Step s l s' := by
  unfold runTask at h
  split at h
  case h_1 hpc =>
    cases h
    exact .spawned hpc
  case h_2 hpc =>
    cases h
    exact .notSpawned hpc
  case h_3 hpc =>
    cases h
    exact .bothSpawned hpc
  case h_4 hpc =>
    cases h
    exact .oneSpawned hpc
  case h_5 hpc =>
    cases h
    exact .runStop hpc
  case h_6 hpc =>
    cases h
    exact .runShutdown hpc
  case h_7 hpc =>
    obtain ⟨hl, rfl⟩ := Option.ite_some_none_eq_some.mp h
    exact .gaveUp hpc hl
  case h_8 hpc =>
    obtain ⟨hl, rfl⟩ := Option.ite_some_none_eq_some.mp h
    exact .joined hpc hl
  case h_9 hpc =>
    obtain ⟨ht, rfl⟩ := Option.ite_some_none_eq_some.mp h
    exact .returned hpc ht
  case h_10 => cases h

theorem step_cases (h : step s l = some s') : Step s l s' := by
  unfold step at h
  split at h
  case h_1 | h_2 => exact runTask_cases h
  case h_3 | h_4 | h_5 => exact pumpTcpToLocal_cases h
  case h_6 | h_7 | h_8 | h_9 => exact pumpLocalToTcp_cases h

end Cases

end HciBridge.Session
