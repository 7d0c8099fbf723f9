import HciBridge.BridgeToController
import HciBridge.BridgeToHost
import HciBridge.SessionStream
import HciBridge.Transport

/-!
A board and a host on one connection: the tasks of the bridge and those of the session run as they
like, and the stream between them delivers what it delivers in order.
-/

namespace HciBridge.Link

open Bridge (Conn Cell)
open H4 (parse framing scan_eq_parse maxPacketLen)
open Transport (WellFormed total_of_wellFormed)

structure State where
  board : Bridge.State
  host : Session.State

inductive Label
  | board (l : Bridge.Label)
  | host (l : Session.Label)
deriving DecidableEq

variable (c : Conn)

def toHost (s : State) : List UInt8 := (s.board.peers c).sent.map Cell.byte

/-- A packet whose write fails may have been sent in part. -/
def toBoard (s : State) : List UInt8 := s.host.offered.flatten

def Carried (s : State) : Prop :=
  s.host.received <+: toHost c s ∧ (s.board.peers c).received <+: toBoard s

instance (s : State) : Decidable (Carried c s) := inferInstanceAs (Decidable (_ ∧ _))

def step (s : State) (l : Label) : Option State :=
  let next := match l with
    | .board l => (Bridge.step s.board l).map fun b => { s with board := b }
    | .host l => (Session.step s.host l).map fun h => { s with host := h }
  next.bind fun s => if Carried c s then some s else none

def IsInit (s : State) : Prop := s.board = Bridge.init ∧ Session.IsInit s.host

def whole (cap : ℕ) (p : List UInt8) : Bool := WellFormed p ∧ p.length ≤ cap

theorem total_of_whole {cap : ℕ} {p : List UInt8} (h : whole cap p = true) : H4.total cap p = .ok (some p.length) := by
  obtain ⟨hwf, hcap⟩ := of_decide_eq_true h
  exact total_of_wellFormed hwf hcap

def controllerSendsWhole : Bridge.Label → Bool
  | .cbCall pkt => whole maxPacketLen pkt
  | _ => true

def framedToHost (s : State) : Label → Bool
  | .board l => Bridge.keepsFraming s.board l && controllerSendsWhole l
  | .host _ => true

section Steps

variable {c} {s s' : State} {l : Label}

theorem step_board {l : Bridge.Label} (h : step c s (.board l) = some s') :
    Bridge.step s.board l = some s'.board ∧ s'.host = s.host ∧ Carried c s' := by
  obtain ⟨t, ht, h⟩ := Option.bind_eq_some_iff.mp h
  obtain ⟨b, hb, rfl⟩ := Option.map_eq_some_iff.mp ht
  obtain ⟨hc, rfl⟩ := Option.ite_some_none_eq_some.mp h
  exact ⟨hb, rfl, hc⟩

theorem step_host {l : Session.Label} (h : step c s (.host l) = some s') :
    Session.step s.host l = some s'.host ∧ s'.board = s.board ∧ Carried c s' := by
  obtain ⟨t, ht, h⟩ := Option.bind_eq_some_iff.mp h
  obtain ⟨b, hb, rfl⟩ := Option.map_eq_some_iff.mp ht
  obtain ⟨hc, rfl⟩ := Option.ite_some_none_eq_some.mp h
  exact ⟨hb, rfl, hc⟩

theorem carried_init (h : IsInit s) : Carried c s := by
  obtain ⟨hb, storage, -, hh⟩ := h
  rw [Carried, hb, hh]
  exact ⟨List.nil_prefix, List.nil_prefix⟩

theorem produced_step {b b' : Bridge.State} {l : Bridge.Label} (h : Bridge.Step b l b') :
    b'.produced = b.produced ∨ ∃ pkt, l = .cbCall pkt ∧ b'.produced = b.produced ++ [pkt] := by
  cases h with
  | cbCall pkt => exact .inr ⟨pkt, rfl, rfl⟩
  | _ => exact .inl rfl

structure ToHostInv (s : State) : Prop where
  board : Runs.ReachableWhile Bridge.step Bridge.IsInit Bridge.keepsFraming s.board
  host : Session.Reachable s.host
  carried : Carried c s
  produced : ∀ p ∈ s.board.produced, H4.total maxPacketLen p = .ok (some p.length)

theorem toHostInv_of_reachable (h : Runs.ReachableWhile (step c) IsInit framedToHost s) : ToHostInv (c := c) s := by
  apply h.invariant
  · intro s hs
    exact ⟨.start hs.1, .start hs.2, carried_init hs, by rw [hs.1]; nofun⟩
  · intro s l s' _ hI hc hs
    cases l with
    | board l =>
      obtain ⟨hb, hhost, hcarried⟩ := step_board hs
      obtain ⟨hframing, hwhole⟩ := Bool.and_eq_true_iff.mp hc
      refine ⟨hI.board.next hframing hb, hhost ▸ hI.host, hcarried, ?_⟩
      rcases produced_step (Bridge.step_cases hb) with hp | ⟨pkt, rfl, hp⟩
      · rw [hp]
        exact hI.produced
      · rw [hp, List.forall_mem_append]
        refine ⟨hI.produced, fun p hmem => ?_⟩
        obtain rfl := List.mem_singleton.mp hmem
        exact total_of_whole hwhole
    | host l =>
      obtain ⟨hh, hboard, hcarried⟩ := step_host hs
      exact ⟨hboard ▸ hI.board, hI.host.next rfl hh, hcarried, hboard ▸ hI.produced⟩

theorem frameInv_of_reachable {b : Bridge.State}
    (h : Runs.ReachableWhile Bridge.step Bridge.IsInit Bridge.keepsFraming b) : Bridge.FrameInv b := by
  apply h.invariant
  · rintro _ rfl
    exact Bridge.frameInv_init
  · intro b l b' hr hI hc hs
    have hpark := Bridge.parkInv_of_reachable Bridge.keepsFraming_idleIsFresh hr
    have hsend := Bridge.sendInv_of_reachable Bridge.keepsFraming_heldNotReused hr
    exact Bridge.frameInv_step (Bridge.fdInv_of_reachable hr) (Bridge.unborn_of_reachable hr) hpark hsend hI hc
      (Bridge.step_cases hs)

theorem written_of_produced (h : Runs.ReachableWhile (step c) IsInit framedToHost s) :
    ∃ ps : List (List UInt8), ps.Sublist s.board.produced ∧ s.host.written <+: ps ∧
      (parse maxPacketLen s.host.received).error = none := by
  have hI := toHostInv_of_reachable h
  obtain ⟨qs, hqs, hsent⟩ := (frameInv_of_reachable hI.board).all c
  have hqueued : (s.board.queued.map (List.map Bridge.Cell.byte)).Sublist s.board.produced :=
    (List.sublist_append_left _ _).trans (Bridge.queueInv_of_reachable hI.board).order
  have hps : (qs.map (List.map Bridge.Cell.byte)).Sublist s.board.produced :=
    (hqs.sublist.map _).trans hqueued
  have hbytes : s.host.received <+: (qs.map (List.map Bridge.Cell.byte)).flatten := by
    rw [← List.map_flatten]
    exact hI.carried.1.trans (hsent.map _)
  have hscan := (framing maxPacketLen).scan_of_isPrefix (fun p hp => hI.produced p (hps.subset hp)) hbytes
  rw [scan_eq_parse] at hscan
  exact ⟨_, hps, hI.host.stream.wrote.trans hscan.1, hscan.2⟩

end Steps

def boot : State := ⟨Bridge.init, Session.init (List.replicate maxPacketLen 0)⟩

theorem isInit_boot : IsInit boot := ⟨rfl, _, List.length_replicate, rfl⟩

theorem written_of_produced_event :
    ∃ s : State, s.host.received = [0x04, 0x10, 0x00] ∧ s.board.produced = [[0x04, 0x10, 0x00]] ∧
      ∃ ps : List (List UInt8), ps.Sublist s.board.produced ∧ s.host.written <+: ps ∧
        (parse maxPacketLen s.host.received).error = none := by
  obtain ⟨s, h, hp⟩ := Runs.exists_of_run (step 0) IsInit framedToHost boot
    ((Bridge.eventToFirstHost ++ [Bridge.Label.txSend none]).map .board ++
      [.host (.spawn none), .host .toLocal, .host (.fill (.ok [0x04, 0x10, 0x00]))])
    (fun s => s.host.received = [0x04, 0x10, 0x00] && s.board.produced = [[0x04, 0x10, 0x00]]) isInit_boot
    (by decide +kernel)
  simp only [Bool.and_eq_true, decide_eq_true_eq] at hp
  exact ⟨s, hp.1, hp.2, written_of_produced h⟩

end HciBridge.Link
