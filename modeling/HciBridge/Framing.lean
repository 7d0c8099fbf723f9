import Mathlib.Data.List.Basic
import Mathlib.Data.List.Infix

/-!
Length-prefixed framing over an arbitrary alphabet. A `Framing` reads the
total length of a frame off its first symbols. `scan` cuts a stream one symbol
at a time, so that the way a stream is divided into pieces cannot matter.
-/

variable {β ε : Type}

structure Framing (β ε : Type) where
  total : List β → Except ε (Option ℕ)
  total_nil : total [] = .ok none
  stable : ∀ p q n, total p = .ok (some n) → total (p ++ q) = .ok (some n)
  error_stable : ∀ p q e, total p = .error e → total (p ++ q) = .error e

structure Scan (β ε : Type) where
  frames : List (List β)
  pending : List β
  error : Option ε
deriving DecidableEq, Repr

namespace Scan

def start : Scan β ε := ⟨[], [], none⟩

def addFront (fs : List (List β)) (c : Scan β ε) : Scan β ε := { c with frames := fs ++ c.frames }

def taken (c : Scan β ε) : List β := c.frames.flatten ++ c.pending

@[simp] theorem addFront_frames (fs : List (List β)) (c : Scan β ε) :
    (c.addFront fs).frames = fs ++ c.frames := rfl
@[simp] theorem addFront_pending (fs : List (List β)) (c : Scan β ε) :
    (c.addFront fs).pending = c.pending := rfl
@[simp] theorem addFront_error (fs : List (List β)) (c : Scan β ε) :
    (c.addFront fs).error = c.error := rfl
@[simp] theorem addFront_addFront (fs gs : List (List β)) (c : Scan β ε) :
    (c.addFront gs).addFront fs = c.addFront (fs ++ gs) := by
  simp [addFront, List.append_assoc]

end Scan

namespace Framing

variable (F : Framing β ε)

def settle (p : List β) : Scan β ε :=
  match F.total p with
  | .error e => ⟨[], p, some e⟩
  | .ok none => ⟨[], p, none⟩
  | .ok (some n) => if p.length = n then ⟨[p], [], none⟩ else ⟨[], p, none⟩

def push (c : Scan β ε) (b : β) : Scan β ε :=
  match c.error with
  | some _ => c
  | none => (F.settle (c.pending ++ [b])).addFront c.frames

def scan (c : Scan β ε) (s : List β) : Scan β ε := s.foldl F.push c

def Unfinished (p : List β) : Prop := F.settle p = ⟨[], p, none⟩

@[simp] theorem scan_nil (c : Scan β ε) : F.scan c [] = c := rfl

@[simp] theorem scan_cons (c : Scan β ε) (b : β) (s : List β) :
    F.scan c (b :: s) = F.scan (F.push c b) s := rfl

theorem scan_append (c : Scan β ε) (s t : List β) : F.scan c (s ++ t) = F.scan (F.scan c s) t := by
  simp [scan, List.foldl_append]

theorem settle_nil : F.settle [] = .start := by simp [settle, F.total_nil, Scan.start]

theorem settle_of_none {p : List β} (h : F.total p = .ok none) : F.settle p = ⟨[], p, none⟩ := by
  simp [settle, h]

theorem settle_of_error {p : List β} {e : ε} (h : F.total p = .error e) :
    F.settle p = ⟨[], p, some e⟩ := by simp [settle, h]

theorem settle_of_complete {p : List β} (h : F.total p = .ok (some p.length)) :
    F.settle p = ⟨[p], [], none⟩ := by simp [settle, h]

theorem settle_of_open {p : List β} {n : ℕ} (h : F.total p = .ok (some n)) (hn : p.length ≠ n) :
    F.settle p = ⟨[], p, none⟩ := by simp [settle, h, hn]

theorem scan_error (c : Scan β ε) (s : List β) (h : c.error ≠ none) : F.scan c s = c := by
  obtain ⟨e, he⟩ := Option.ne_none_iff_exists'.mp h
  induction s with
  | nil => rfl
  | cons b s ih => rw [scan_cons, push, he]; exact ih

theorem push_addFront (fs : List (List β)) (c : Scan β ε) (b : β) :
    F.push (c.addFront fs) b = (F.push c b).addFront fs := by
  unfold push
  cases h : c.error <;> simp [h]

theorem scan_addFront (fs : List (List β)) (c : Scan β ε) (s : List β) :
    F.scan (c.addFront fs) s = (F.scan c s).addFront fs := by
  induction s generalizing c with
  | nil => rfl
  | cons b s ih => rw [scan_cons, push_addFront, ih, scan_cons]

theorem prefix_length_lt {r q : List β} (h : r <+: q) (hne : r ≠ q) : r.length < q.length :=
  lt_of_le_of_ne h.length_le fun he => hne (h.eq_of_length he)

theorem scan_block (p q : List β) (hq : q ≠ [])
    (h : ∀ r, r <+: q → r ≠ [] → r ≠ q → F.Unfinished (p ++ r)) :
    F.scan ⟨[], p, none⟩ q = F.settle (p ++ q) := by
  induction q generalizing p with
  | nil => exact absurd rfl hq
  | cons b q ih =>
    have hpush : F.push ⟨[], p, none⟩ b = F.settle (p ++ [b]) := by
      simp [push, Scan.addFront]
    cases q with
    | nil => rw [scan_cons, scan_nil, hpush]
    | cons d q =>
      have hb : F.Unfinished (p ++ [b]) := h [b] (by simp) (by simp) (by simp)
      rw [scan_cons, hpush, show F.settle (p ++ [b]) = ⟨[], p ++ [b], none⟩ from hb]
      rw [ih (p ++ [b]) (by simp), List.append_assoc, List.singleton_append]
      intro r hr hne hrq
      rw [List.append_assoc, List.singleton_append]
      exact h (b :: r) ((List.prefix_cons_inj b).mpr hr) (by simp) (by simpa using hrq)

theorem settle_taken (p : List β) : (F.settle p).taken = p := by
  unfold settle Scan.taken
  split
  · simp
  · simp
  · split <;> simp

theorem scan_taken (c : Scan β ε) (s : List β) : ∃ t, t <+: s ∧ (F.scan c s).taken = c.taken ++ t ∧
    ((F.scan c s).error = none → t = s) := by
  induction s generalizing c with
  | nil => exact ⟨[], by simp⟩
  | cons b s ih =>
    cases he : c.error with
    | some e =>
      refine ⟨[], by simp, ?_, ?_⟩
      · rw [F.scan_error c _ (by simp [he]), List.append_nil]
      · intro h; rw [F.scan_error c _ (by simp [he]), he] at h; cases h
    | none =>
      have hpush : (F.push c b).taken = c.taken ++ [b] := by
        have hs := F.settle_taken (c.pending ++ [b])
        simp only [Scan.taken] at hs ⊢
        simp only [push, he, Scan.addFront_frames, Scan.addFront_pending, List.flatten_append,
          List.append_assoc, hs]
      obtain ⟨t, ht, htaken, hnone⟩ := ih (F.push c b)
      refine ⟨b :: t, (List.prefix_cons_inj b).mpr ht, ?_, ?_⟩
      · rw [scan_cons, htaken, hpush, List.append_assoc, List.singleton_append]
      · intro h; rw [hnone h]

theorem settle_complete (p : List β) : ∀ f ∈ (F.settle p).frames, F.total f = .ok (some f.length) := by
  unfold settle
  split
  case h_1 => simp
  case h_2 => simp
  case h_3 n hn =>
    split
    case isTrue he => simpa [he] using hn
    case isFalse => simp

theorem scan_complete (c : Scan β ε) (s : List β) :
    ∀ f ∈ (F.scan c s).frames, f ∈ c.frames ∨ F.total f = .ok (some f.length) := by
  induction s generalizing c with
  | nil => exact fun f hf => .inl hf
  | cons b s ih =>
    intro f hf
    rcases ih (F.push c b) f hf with hpush | hlen
    · unfold push at hpush
      split at hpush
      case h_1 => exact .inl hpush
      case h_2 =>
        rw [Scan.addFront_frames] at hpush
        exact (List.mem_append.mp hpush).imp id (F.settle_complete _ f)
    · exact .inr hlen

theorem scan_frame {p : List β} (h : F.total p = .ok (some p.length)) : F.scan .start p = ⟨[p], [], none⟩ := by
  have hne : p ≠ [] := by
    rintro rfl
    rw [F.total_nil] at h
    cases h
  apply (F.scan_block [] p hne _).trans (F.settle_of_complete h)
  rintro r ⟨q, rfl⟩ - hrp
  rw [List.nil_append, Unfinished]
  cases hr : F.total r with
  | error e =>
    rw [F.error_stable r q e hr] at h
    cases h
  | ok o =>
    cases o with
    | none => exact F.settle_of_none hr
    | some n =>
      rw [F.stable r q n hr] at h
      cases h
      apply F.settle_of_open hr
      intro hlen
      exact hrp ((List.prefix_append r q).eq_of_length hlen)

theorem scan_frames {ps : List (List β)} (h : ∀ p ∈ ps, F.total p = .ok (some p.length)) :
    F.scan .start ps.flatten = ⟨ps, [], none⟩ := by
  induction ps with
  | nil => rfl
  | cons p ps ih =>
    rw [List.forall_mem_cons] at h
    have hp : F.scan .start p = Scan.start.addFront [p] := F.scan_frame h.1
    rw [List.flatten_cons, scan_append, hp, scan_addFront, ih h.2]
    rfl

theorem frames_prefix_scan (c : Scan β ε) (s : List β) : c.frames <+: (F.scan c s).frames := by
  have hc : c = ({ c with frames := [] } : Scan β ε).addFront c.frames := by simp [Scan.addFront]
  conv_rhs => rw [hc]
  rw [scan_addFront]
  exact List.prefix_append _ _

theorem scan_of_isPrefix {ps : List (List β)} {s : List β} (h : ∀ p ∈ ps, F.total p = .ok (some p.length))
    (hs : s <+: ps.flatten) : (F.scan .start s).frames <+: ps ∧ (F.scan .start s).error = none := by
  obtain ⟨t, ht⟩ := hs
  have hscan := F.scan_frames h
  rw [← ht, scan_append] at hscan
  have hframes := F.frames_prefix_scan (F.scan .start s) t
  rw [hscan] at hframes
  refine ⟨hframes, ?_⟩
  by_contra he
  rw [F.scan_error _ t he] at hscan
  rw [hscan] at he
  exact he rfl

end Framing
