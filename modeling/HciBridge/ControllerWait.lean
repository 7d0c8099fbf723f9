import HciBridge.Transport
import HciBridge.Wrapping

/-!
`sendToController` of `firmware/main/bridge.zig`: the wait for the controller on a clock that wraps.
-/

namespace HciBridge.ControllerWait

open Bridge (rxPacketLen)
open Transport (Bytes)
open Wrapping (Clock)

def sendWaitMs : UInt32 := 5000

/-- `(uint32_t)(esp_timer_get_time() / 1000)` -/
def glueMillis (us : ℕ) : UInt32 := (us / 1000).toUInt32

structure Packet where
  bytes : Bytes
  length_le : bytes.length ≤ rxPacketLen

structure State where
  sendSem : Bool
  toController : UInt32
  droppedControllerBusy : UInt32
  -- the calls of `glue_bt_send`
  sent : List (Bytes × UInt16)
deriving DecidableEq, Repr

/-- What `glue_bt_send_available` says before each wait, and `glue_millis` on entry and after each wait. -/
structure Readings where
  available : ℕ → Bool
  millis : ℕ → UInt32

inductive Verdict
  | send | drop
deriving DecidableEq, Repr

def waitLoop (env : Readings) (deadline : UInt32) : ℕ → ℕ → Option (Verdict × ℕ)
  | 0, _ => none
  | fuel + 1, n =>
    if env.available n then some (.send, n)
    else if env.millis (n + 1) - deadline < 0x80000000 then some (.drop, n + 1)
    else waitLoop env deadline fuel (n + 1)

/-- `none` is a packet too long for `@intCast` to a `u16`. -/
def btSend (s : State) (pkt : Bytes) : Option State :=
  if pkt.length < 2 ^ 16 then
    some { s with sent := s.sent ++ [(pkt, pkt.length.toUInt16)], toController := s.toController + 1 }
  else none

def dropBusy (s : State) : State := { s with droppedControllerBusy := s.droppedControllerBusy + 1 }

def sendToController (fuel : ℕ) (env : Readings) (s : State) (pkt : Bytes) : Option (State × ℕ) :=
  if !s.sendSem then some (s, 0)
  else
    let deadline := env.millis 0 + sendWaitMs
    match waitLoop env deadline fuel 0 with
    | none => none
    | some (.drop, n) => some (dropBusy s, n)
    | some (.send, n) => (btSend s pkt).map fun s => (s, n)

def readings (c : Clock 31) (available : ℕ → Bool) : Readings := ⟨available, fun k => ⟨c.reading k⟩⟩

section Timer

variable {time : ℕ → ℕ}

def timerClock (time : ℕ → ℕ) (h : ∀ k, time (k + 1) / 1000 - time k / 1000 < 2 ^ 31) : Clock 31 where
  start := (glueMillis (time 0)).toBitVec
  gap k := BitVec.ofNat 32 (time (k + 1) / 1000 - time k / 1000)
  gap_lt k := by
    rw [BitVec.toNat_ofNat, Nat.mod_eq_of_lt (Nat.lt_trans (h k) (by decide))]
    exact h k

theorem millis_timerClock (hmono : ∀ k, time k ≤ time (k + 1))
    (h : ∀ k, time (k + 1) / 1000 - time k / 1000 < 2 ^ 31) (available : ℕ → Bool) (k : ℕ) :
    (readings (timerClock time h) available).millis k = glueMillis (time k) := by
  induction k with
  | zero => rfl
  | succ k ih =>
    have hle : time k / 1000 ≤ time (k + 1) / 1000 := Nat.div_le_div_right (hmono k)
    calc
      (readings (timerClock time h) available).millis (k + 1) =
          (readings (timerClock time h) available).millis k + UInt32.ofNat (time (k + 1) / 1000 - time k / 1000) := rfl
      _ = UInt32.ofNat (time k / 1000 + (time (k + 1) / 1000 - time k / 1000)) := by
        rw [ih, UInt32.ofNat_add]
        rfl
      _ = glueMillis (time (k + 1)) := by rw [Nat.add_sub_cancel' hle]; rfl

end Timer

section Loop

variable (c : Clock 31) (available : ℕ → Bool)

def Waiting (n : ℕ) : Prop := ∀ j < n, available j = false ∧ c.elapsed (j + 1) < 5000

def SentAfter (n : ℕ) : Prop := Waiting c available n ∧ available n = true

def DroppedAt (n : ℕ) : Prop :=
  ∃ m, n = m + 1 ∧ Waiting c available m ∧ available m = false ∧ 5000 ≤ c.elapsed n

variable {c available} {n fuel : ℕ} {deadline : UInt32}

theorem early_of_waiting (h : Waiting c available n) : ∀ j, j < n + 1 → c.elapsed j < 5000 := by
  intro j hj
  cases j with
  | zero => simp [Clock.elapsed]
  | succ j => exact (h j (by omega)).2

theorem deadline_passed_iff (h : Waiting c available n) :
    (readings c available).millis (n + 1) - ((readings c available).millis 0 + sendWaitMs) < 0x80000000 ↔
      5000 ≤ c.elapsed (n + 1) := by
  rw [← Clock.late_iff_of_early (by decide) (by decide) (early_of_waiting h), Clock.Late, UInt32.lt_iff_toNat_lt]
  rfl

theorem waiting_succ : Waiting c available (n + 1) ↔
    Waiting c available n ∧ available n = false ∧ c.elapsed (n + 1) < 5000 := by
  constructor
  · intro h
    exact ⟨fun j hj => h j (Nat.lt_succ_of_lt hj), h n (Nat.lt_succ_self n)⟩
  · rintro ⟨h, hn⟩ j hj
    rcases Nat.lt_succ_iff_lt_or_eq.mp hj with hj | rfl
    · exact h j hj
    · exact hn

def Ends (c : Clock 31) (available : ℕ → Bool) : Verdict → ℕ → Prop
  | .send, n => SentAfter c available n
  | .drop, n => DroppedAt c available n

theorem ends_of_waitLoop {v : Verdict} {m : ℕ} (h : Waiting c available n)
    (hrun : waitLoop (readings c available) ((readings c available).millis 0 + sendWaitMs) fuel n = some (v, m)) :
    Ends c available v m := by
  induction fuel generalizing n with
  | zero => cases hrun
  | succ fuel ih =>
    rw [waitLoop] at hrun
    split at hrun
    case isTrue hav =>
      cases hrun
      exact ⟨h, hav⟩
    case isFalse hbusy =>
      have hbusy' : available n = false := Bool.eq_false_iff.mpr hbusy
      split at hrun
      case isTrue hlate =>
        cases hrun
        exact ⟨n, rfl, h, hbusy', (deadline_passed_iff h).mp hlate⟩
      case isFalse hearly =>
        have hlt := Nat.lt_of_not_le ((deadline_passed_iff h).not.mp hearly)
        exact ih (waiting_succ.mpr ⟨h, hbusy', hlt⟩) hrun

theorem waitLoop_isSome {j : ℕ} (h : Waiting c available n) (hj : available j = true ∨ 5000 ≤ c.elapsed (j + 1))
    (hfuel : j < n + fuel) :
    (waitLoop (readings c available) ((readings c available).millis 0 + sendWaitMs) fuel n).isSome = true := by
  induction fuel generalizing n with
  | zero =>
    obtain ⟨hbusy, hearly⟩ := h j hfuel
    rw [hbusy] at hj
    rcases hj with hj | hj
    · cases hj
    · omega
  | succ fuel ih =>
    rw [waitLoop]
    split
    case isTrue => rfl
    case isFalse hbusy =>
      split
      case isTrue => rfl
      case isFalse hearly =>
        have hlt := Nat.lt_of_not_le ((deadline_passed_iff h).not.mp hearly)
        exact ih (waiting_succ.mpr ⟨h, Bool.eq_false_iff.mpr hbusy, hlt⟩) (by omega)

theorem Ends.round {v : Verdict} (h : Ends c available v n) :
    ∃ r, Waiting c available r ∧ (available r = true ∨ 5000 ≤ c.elapsed (r + 1)) ∧
      (v, n) = if available r then (.send, r) else (.drop, r + 1) := by
  cases v with
  | send => exact ⟨n, h.1, .inl h.2, by rw [if_pos h.2]⟩
  | drop =>
    obtain ⟨r, rfl, hwait, hbusy, hlate⟩ := h
    exact ⟨r, hwait, .inr hlate, by simp [hbusy]⟩

theorem waiting_le {r j : ℕ} (h : Waiting c available r) (hj : available j = true ∨ 5000 ≤ c.elapsed (j + 1)) :
    r ≤ j := by
  by_contra hlt
  obtain ⟨hbusy, hearly⟩ := h j (Nat.lt_of_not_le hlt)
  rw [hbusy] at hj
  rcases hj with hj | hj
  · cases hj
  · omega

theorem Ends.unique {v v' : Verdict} {n' : ℕ} (h : Ends c available v n) (h' : Ends c available v' n') :
    (v, n) = (v', n') := by
  obtain ⟨r, hwait, hstop, hr⟩ := h.round
  obtain ⟨r', hwait', hstop', hr'⟩ := h'.round
  have hrr : r = r' := Nat.le_antisymm (waiting_le hwait hstop') (waiting_le hwait' hstop)
  rw [hr, hr', hrr]

theorem waitLoop_of_ends {v : Verdict} (h : Ends c available v n) :
    ∃ fuel, waitLoop (readings c available) ((readings c available).millis 0 + sendWaitMs) fuel 0 = some (v, n) := by
  have hstart : Waiting c available 0 := fun j hj => absurd hj (Nat.not_lt_zero j)
  obtain ⟨r, -, hstop, -⟩ := h.round
  have hfuel : r < 0 + (r + 1) := by omega
  obtain ⟨⟨v', n'⟩, hrun⟩ := Option.isSome_iff_exists.mp (waitLoop_isSome hstart hstop hfuel)
  have heq := h.unique (ends_of_waitLoop hstart hrun)
  exact ⟨r + 1, by rw [hrun, heq]⟩

end Loop

def Packet.args (pkt : Packet) : Bytes × UInt16 := (pkt.bytes, pkt.bytes.length.toUInt16)

def passTo (s : State) (pkt : Packet) : State :=
  { s with sent := s.sent ++ [pkt.args], toController := s.toController + 1 }

theorem Packet.length_lt (pkt : Packet) : pkt.bytes.length < 2 ^ 16 :=
  Nat.lt_of_le_of_lt pkt.length_le (by decide)

theorem btSend_eq (s : State) (pkt : Packet) : btSend s pkt.bytes = some (passTo s pkt) := if_pos pkt.length_lt

section Calls

variable {c : Clock 31} {available : ℕ → Bool} {s s' : State} {pkt : Packet} {n : ℕ}

theorem sendToController_iff (hsem : s.sendSem = true) :
    (∃ fuel, sendToController fuel (readings c available) s pkt.bytes = some (s', n)) ↔
      SentAfter c available n ∧ s' = passTo s pkt ∨ DroppedAt c available n ∧ s' = dropBusy s := by
  have hstart : Waiting c available 0 := fun j hj => absurd hj (Nat.not_lt_zero j)
  constructor
  · rintro ⟨fuel, hrun⟩
    rw [sendToController, if_neg (by simp [hsem])] at hrun
    simp only at hrun
    split at hrun
    case h_1 => cases hrun
    case h_2 m hloop =>
      cases hrun
      exact .inr ⟨ends_of_waitLoop hstart hloop, rfl⟩
    case h_3 m hloop =>
      rw [btSend_eq] at hrun
      cases hrun
      exact .inl ⟨ends_of_waitLoop hstart hloop, rfl⟩
  · have hcall {v : Verdict} (h : Ends c available v n)
        (hs : match v with
          | .send => s' = passTo s pkt
          | .drop => s' = dropBusy s) :
        ∃ fuel, sendToController fuel (readings c available) s pkt.bytes = some (s', n) := by
      obtain ⟨fuel, hloop⟩ := waitLoop_of_ends h
      refine ⟨fuel, ?_⟩
      rw [sendToController, if_neg (by simp [hsem])]
      simp only [hloop]
      cases v with
      | send => rw [hs, btSend_eq]; rfl
      | drop => rw [hs]
    rintro (⟨h, hs⟩ | ⟨h, hs⟩)
    · exact hcall (v := .send) h hs
    · exact hcall (v := .drop) h hs

theorem sendToController_returns (hsem : s.sendSem = true) :
    (∃ fuel r, sendToController fuel (readings c available) s pkt.bytes = some r) ↔
      ∃ j, available j = true ∨ 5000 ≤ c.elapsed (j + 1) := by
  constructor
  · rintro ⟨fuel, ⟨s', n⟩, hrun⟩
    have hends : ∃ v, Ends c available v n := by
      rcases (sendToController_iff hsem).mp ⟨fuel, hrun⟩ with ⟨h, -⟩ | ⟨h, -⟩
      · exact ⟨.send, h⟩
      · exact ⟨.drop, h⟩
    obtain ⟨v, h⟩ := hends
    obtain ⟨r, -, hstop, -⟩ := h.round
    exact ⟨r, hstop⟩
  · rintro ⟨j, hj⟩
    have hstart : Waiting c available 0 := fun j hj => absurd hj (Nat.not_lt_zero j)
    have hfuel : j < 0 + (j + 1) := by omega
    obtain ⟨⟨v, n⟩, hloop⟩ := Option.isSome_iff_exists.mp (waitLoop_isSome hstart hj hfuel)
    have hends := ends_of_waitLoop hstart hloop
    cases v with
    | send =>
      obtain ⟨fuel, hrun⟩ := (sendToController_iff hsem).mpr (.inl ⟨hends, rfl⟩)
      exact ⟨fuel, (passTo s pkt, n), hrun⟩
    | drop =>
      obtain ⟨fuel, hrun⟩ := (sendToController_iff hsem).mpr (.inr ⟨hends, rfl⟩)
      exact ⟨fuel, (dropBusy s, n), hrun⟩

end Calls

structure Given where
  clock : Clock 31
  available : ℕ → Bool
  pkt : Packet

inductive Serves : State → List Given → State → Prop
  | nil (s : State) : Serves s [] s
  | cons {s s' t : State} {g : Given} {gs : List Given} {fuel n : ℕ}
      (h : sendToController fuel (readings g.clock g.available) s g.pkt.bytes = some (s', n)) (hs : Serves s' gs t) :
      Serves s (g :: gs) t

structure Accounts (s : State) (given passed : List Packet) (dropped : ℕ) (t : State) : Prop where
  inOrder : passed.Sublist given
  all : passed.length + dropped = given.length
  sent : t.sent = s.sent ++ passed.map Packet.args
  toController : t.toController = s.toController + passed.length.toUInt32
  busy : t.droppedControllerBusy = s.droppedControllerBusy + dropped.toUInt32

theorem counter_succ (x : UInt32) (n : ℕ) : x + 1 + n.toUInt32 = x + (n + 1).toUInt32 := by
  rw [Nat.toUInt32_eq, Nat.toUInt32_eq, UInt32.ofNat_add, UInt32.add_assoc, UInt32.add_comm 1]
  rfl

theorem accounts_of_serves {s t : State} {gs : List Given} (hsem : s.sendSem = true) (h : Serves s gs t) :
    ∃ passed dropped, Accounts s (gs.map Given.pkt) passed dropped t := by
  induction h with
  | nil s => exact ⟨[], 0, ⟨.slnil, rfl, by simp, by simp, by simp⟩⟩
  | @cons s s' t g gs fuel n hcall _ ih =>
    rcases (sendToController_iff hsem).mp ⟨fuel, hcall⟩ with ⟨-, rfl⟩ | ⟨-, rfl⟩
    · obtain ⟨passed, dropped, hacc⟩ := ih hsem
      refine ⟨g.pkt :: passed, dropped, ⟨hacc.inOrder.cons_cons _, ?_, ?_, ?_, hacc.busy⟩⟩
      · have := hacc.all
        simp only [List.length_cons, List.map_cons] at *
        omega
      · rw [hacc.sent, passTo]
        simp
      · rw [hacc.toController, passTo, List.length_cons]
        exact counter_succ _ _
    · obtain ⟨passed, dropped, hacc⟩ := ih hsem
      refine ⟨passed, dropped + 1, ⟨hacc.inOrder.cons _, ?_, hacc.sent, hacc.toController, ?_⟩⟩
      · have := hacc.all
        simp only [List.length_cons, List.map_cons] at *
        omega
      · rw [hacc.busy, dropBusy]
        exact counter_succ _ _

theorem controller_wait {s : State} (hsem : s.sendSem = true) :
    (∀ (c : Clock 31) (available : ℕ → Bool) (pkt : Packet),
      (∀ s' n, (∃ fuel, sendToController fuel (readings c available) s pkt.bytes = some (s', n)) ↔
        SentAfter c available n ∧ s' = passTo s pkt ∨ DroppedAt c available n ∧ s' = dropBusy s) ∧
      ((∃ fuel r, sendToController fuel (readings c available) s pkt.bytes = some r) ↔
        ∃ j, available j = true ∨ 5000 ≤ c.elapsed (j + 1)) ∧
      ∀ v n v' n', Ends c available v n → Ends c available v' n' → (v, n) = (v', n')) ∧
    ∀ gs t, Serves s gs t → ∃ passed dropped, Accounts s (gs.map Given.pkt) passed dropped t := by
  refine ⟨fun c available pkt => ⟨fun s' n => sendToController_iff hsem, sendToController_returns hsem, ?_⟩, ?_⟩
  · intro v n v' n' h h'
    exact h.unique h'
  · intro gs t h
    exact accounts_of_serves hsem h

def wrappingClock : Clock 31 := ⟨0xfffffc18, fun _ => 2500, fun _ => by decide⟩

def resetCommand : Packet := ⟨[1, 3, 12, 0], by decide⟩

theorem controller_wait_wraps :
    ∃ fuel, sendToController fuel (readings wrappingClock fun _ => false) ⟨true, 0, 0, []⟩ resetCommand.bytes =
      some (⟨true, 0, 1, []⟩, 2) := by
  have h := (controller_wait (s := ⟨true, 0, 0, []⟩) rfl).1 wrappingClock (fun _ => false) resetCommand
  refine (h.1 ⟨true, 0, 1, []⟩ 2).mpr (.inr ⟨⟨1, rfl, ?_, rfl, by decide⟩, rfl⟩)
  intro j hj
  interval_cases j
  decide

end HciBridge.ControllerWait
