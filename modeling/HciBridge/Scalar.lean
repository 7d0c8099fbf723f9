import HciBridge.Settings

namespace HciBridge.Config

open Text
open Auth (Bytes ascii)

def boolWords : Bool → List Bytes
  | true => [ascii "on", ascii "true", ascii "yes"]
  | false => [ascii "off", ascii "false", ascii "no"]

def boolDigit : Bool → Bytes
  | true => ascii "1"
  | false => ascii "0"

def BoolText (v : Bytes) (b : Bool) : Prop := v.map lower ∈ boolWords b ∨ v = boolDigit b

def Digit (c : UInt8) : Prop := 48 ≤ c.toNat ∧ c.toNat ≤ 57

instance : DecidablePred Digit := fun _ => inferInstanceAs (Decidable (_ ∧ _))

def decimalFrom (acc : ℕ) (digits : Bytes) : ℕ := digits.foldl (fun n c => n * 10 + (c.toNat - 48)) acc

/-- A sign or none, then digits, between which there may be underscores; below zero there is nothing. -/
structure Numeral (max : ℕ) (v : Bytes) (n : ℕ) : Prop where
  le_max : n ≤ max
  shape : ∃ sign t, v = sign ++ t ∧ sign ∈ [[], ascii "+", ascii "-"] ∧ (sign = ascii "-" → n = 0) ∧ t ≠ [] ∧
    t.head? ≠ some 95 ∧ t.getLast? ≠ some 95 ∧ (∀ c ∈ t, c = 95 ∨ Digit c) ∧
    n = decimalFrom 0 (t.filter fun c => c ≠ 95)

section Switch

variable {v : Bytes}

theorem boolText_iff (b : Bool) : BoolText v b ↔ (∃ w ∈ boolWords b, eqlIgnoreCase v w = true) ∨ v = boolDigit b := by
  have hlower : ∀ w ∈ boolWords b, w.map lower = w := by cases b <;> decide
  apply or_congr_left
  constructor
  · intro h
    exact ⟨_, h, eqlIgnoreCase_iff.mpr (hlower _ h).symm⟩
  · rintro ⟨w, hw, h⟩
    rwa [eqlIgnoreCase_iff.mp h, hlower w hw]

theorem boolText_disjoint (ht : BoolText v true) : ¬BoolText v false := by
  have hmem (b : Bool) (h : BoolText v b) : v.map lower ∈ boolDigit b :: boolWords b := by
    rcases h with h | rfl
    · exact List.mem_cons_of_mem _ h
    · cases b <;> decide
  have hdisjoint : ∀ w ∈ boolDigit true :: boolWords true, w ∉ boolDigit false :: boolWords false := by decide
  exact fun hf => hdisjoint _ (hmem true ht) (hmem false hf)

theorem parseBool_iff {b : Bool} : parseBool v = some b ↔ BoolText v b := by
  have hwords (b : Bool) : BoolText v b ↔ (eqlIgnoreCase v ((boolWords b).getD 0 []) = true ∨
      eqlIgnoreCase v ((boolWords b).getD 1 []) = true ∨ eqlIgnoreCase v ((boolWords b).getD 2 []) = true ∨
      v = boolDigit b) := by
    rw [boolText_iff]
    cases b <;> simp [boolWords, or_assoc]
  have htrue := hwords true
  have hfalse := hwords false
  have hdisjoint := @boolText_disjoint v
  simp only [boolWords, boolDigit, List.getD_cons_zero, List.getD_cons_succ] at htrue hfalse
  rw [parseBool]
  by_cases ht : BoolText v true
  · rw [if_pos (htrue.mp ht)]
    cases b <;> simp [ht, hdisjoint ht]
  · rw [if_neg (mt htrue.mpr ht)]
    by_cases hf : BoolText v false
    · rw [if_pos (hfalse.mp hf)]
      cases b <;> simp [ht, hf]
    · rw [if_neg (mt hfalse.mpr hf)]
      cases b <;> simp [ht, hf]

theorem parseBool_eq_none : parseBool v = none ↔ ∀ b, ¬BoolText v b := by
  simp only [← parseBool_iff, Option.eq_none_iff_forall_ne_some, ne_eq]

end Switch

section Number

variable {max acc n : ℕ} {neg : Bool} {c : UInt8} {cs : Bytes}

theorem charToDigit_iff {d : ℕ} : charToDigit 10 c = some d ↔ Digit c ∧ d = c.toNat - 48 := by
  simp only [charToDigit, Digit, UInt8.le_iff_toNat_le, UInt8.reduceToNat]
  split
  case isTrue h =>
    simp only [Option.filter_some, decide_eq_true_eq]
    rw [if_pos (by omega), Option.some.injEq]
    exact ⟨fun h' => ⟨h, h'.symm⟩, fun h' => h'.2.symm⟩
  case isFalse h =>
    refine iff_of_false ?_ fun h' => h h'.1
    rw [Option.filter_eq_some_iff]
    rintro ⟨hd, hlt⟩
    have hlt := of_decide_eq_true hlt
    split at hd
    case isTrue =>
      cases hd
      omega
    case isFalse =>
      split at hd
      case isTrue =>
        cases hd
        omega
      case isFalse => cases hd

theorem decimalFrom_cons : decimalFrom acc (c :: cs) = decimalFrom (acc * 10 + (c.toNat - 48)) cs := by
  rw [decimalFrom, List.foldl_cons, decimalFrom]

theorem eq_zeroDigit (h : Digit c) : c = 48 ↔ c.toNat - 48 = 0 := by
  have h48 : (48 : UInt8).toNat = 48 := rfl
  rw [← UInt8.toNat_inj, h48]
  have := h.1
  omega

theorem le_decimalFrom : acc ≤ decimalFrom acc cs := by
  induction cs generalizing acc with
  | nil => exact le_refl _
  | cons c cs ih =>
    have hle : acc ≤ acc * 10 + (c.toNat - 48) := by omega
    exact hle.trans ih

theorem accumulate_iff (hacc : acc ≤ max) : accumulate max neg acc cs = some n ↔
    (∀ c ∈ cs, c = 95 ∨ Digit c) ∧ (neg = true → ∀ c ∈ cs, c = 95 ∨ c = 48) ∧ n ≤ max ∧
      n = decimalFrom acc (cs.filter fun c => c ≠ 95) := by
  induction cs generalizing acc with
  | nil =>
    simp only [accumulate, Option.some.injEq, List.filter_nil, decimalFrom, List.foldl_nil]
    constructor
    · rintro rfl
      exact ⟨List.forall_mem_nil _, fun _ => List.forall_mem_nil _, hacc, rfl⟩
    · rintro ⟨-, -, -, rfl⟩
      rfl
  | cons c cs ih =>
    rw [accumulate]
    by_cases hunder : c = 95
    · subst hunder
      rw [if_pos rfl, ih hacc]
      simp
    · rw [if_neg hunder, List.filter_cons_of_pos (by simpa using hunder), decimalFrom_cons]
      by_cases hdigit : Digit c
      · rw [charToDigit_iff.mpr ⟨hdigit, rfl⟩, Option.bind_some]
        have hzero := eq_zeroDigit hdigit
        simp only [List.forall_mem_cons, hdigit, hunder, or_true, false_or, true_and]
        by_cases hneg : neg = true ∧ c.toNat - 48 ≠ 0
        · rw [if_pos hneg]
          have hne : c ≠ 48 := fun h => hneg.2 (hzero.mp h)
          simp [hneg.1, hne]
        · rw [if_neg hneg]
          have hc : neg = true → c = 48 := fun h => hzero.mpr (by simpa [h] using hneg)
          by_cases hle : acc * 10 + (c.toNat - 48) ≤ max
          · rw [if_pos hle, ih hle]
            exact and_congr_right fun _ => and_congr_left fun _ => forall_congr' fun h => (and_iff_right (hc h)).symm
          · rw [if_neg hle]
            refine iff_of_false (by simp) ?_
            rintro ⟨-, -, hn, rfl⟩
            exact hle (Nat.le_trans le_decimalFrom hn)
      · have hnone : charToDigit 10 c = none := by
          rw [Option.eq_none_iff_forall_ne_some]
          intro d hd
          exact hdigit (charToDigit_iff.mp hd).1
        rw [hnone, Option.bind_none]
        simp [hunder, hdigit]

theorem decimalFrom_zero : (∀ c ∈ cs, Digit c) → (decimalFrom acc cs = 0 ↔ acc = 0 ∧ ∀ c ∈ cs, c = 48) := by
  induction cs generalizing acc with
  | nil => simp [decimalFrom]
  | cons c cs ih =>
    intro h
    rw [List.forall_mem_cons] at h
    rw [decimalFrom_cons, ih h.2, List.forall_mem_cons, eq_zeroDigit h.1]
    constructor
    · rintro ⟨hz, hcs⟩
      exact ⟨by omega, by omega, hcs⟩
    · rintro ⟨rfl, hz, hcs⟩
      exact ⟨by omega, hcs⟩

theorem parseIntWithSign_iff : parseIntWithSign max neg cs = some n ↔ n ≤ max ∧ (neg = true → n = 0) ∧ cs ≠ [] ∧
    cs.head? ≠ some 95 ∧ cs.getLast? ≠ some 95 ∧ (∀ c ∈ cs, c = 95 ∨ Digit c) ∧
    n = decimalFrom 0 (cs.filter fun c => c ≠ 95) := by
  rw [parseIntWithSign]
  by_cases hend : cs.head? = none ∨ cs.head? = some 95 ∨ cs.getLast? = some 95
  · rw [if_pos hend]
    refine iff_of_false (by simp) ?_
    rintro ⟨-, -, hne, hhead, hlast, -⟩
    rw [List.head?_eq_none_iff] at hend
    tauto
  · rw [if_neg hend, accumulate_iff (Nat.zero_le max)]
    simp only [not_or, List.head?_eq_none_iff] at hend
    have hzero (hdigits : ∀ c ∈ cs, c = 95 ∨ Digit c) :
        decimalFrom 0 (cs.filter fun c => c ≠ 95) = 0 ↔ ∀ c ∈ cs, c = 95 ∨ c = 48 := by
      rw [decimalFrom_zero]
      · simp only [true_and, List.mem_filter, decide_eq_true_eq, and_imp]
        exact forall₂_congr fun c _ => by tauto
      · intro c hc
        simp only [List.mem_filter, decide_eq_true_eq] at hc
        exact (hdigits c hc.1).resolve_left hc.2
    constructor
    · rintro ⟨hdigits, hneg, hle, rfl⟩
      exact ⟨hle, fun h => (hzero hdigits).mpr (hneg h), hend.1, hend.2.1, hend.2.2, hdigits, rfl⟩
    · rintro ⟨hle, hneg, -, -, -, hdigits, rfl⟩
      exact ⟨hdigits, fun h => (hzero hdigits).mp (hneg h), hle, rfl⟩

theorem parseInt_iff {v : Bytes} : parseInt max v = some n ↔ Numeral max v n := by
  constructor
  · intro h
    cases v with
    | nil => cases h
    | cons c cs =>
      rw [parseInt] at h
      split at h
      case isTrue hplus =>
        obtain ⟨hle, -, hrest⟩ := parseIntWithSign_iff.mp h
        exact ⟨hle, ascii "+", cs, by rw [hplus]; rfl, by simp, fun h => absurd h (by decide), hrest⟩
      case isFalse =>
        split at h
        case isTrue hminus =>
          obtain ⟨hle, hneg, hrest⟩ := parseIntWithSign_iff.mp h
          exact ⟨hle, ascii "-", cs, by rw [hminus]; rfl, by simp, fun _ => hneg rfl, hrest⟩
        case isFalse =>
          obtain ⟨hle, -, hrest⟩ := parseIntWithSign_iff.mp h
          exact ⟨hle, [], c :: cs, rfl, by simp, fun h => absurd h (by decide), hrest⟩
  · rintro ⟨hle, sign, t, rfl, hsign, hneg, hne, hhead, hlast, hdigits, hn⟩
    simp only [List.mem_cons, List.not_mem_nil, or_false] at hsign
    rcases hsign with rfl | rfl | rfl
    · obtain ⟨c, cs, rfl⟩ := List.exists_cons_of_ne_nil hne
      have hc := hdigits c (List.mem_cons_self ..)
      have hsigns : c ≠ 43 ∧ c ≠ 45 := by
        constructor <;> rintro rfl <;> exact absurd hc (by simp [Digit])
      rw [List.nil_append, parseInt, if_neg hsigns.1, if_neg hsigns.2]
      exact parseIntWithSign_iff.mpr ⟨hle, by simp, hne, hhead, hlast, hdigits, hn⟩
    · exact parseIntWithSign_iff.mpr ⟨hle, by simp, hne, hhead, hlast, hdigits, hn⟩
    · exact parseIntWithSign_iff.mpr ⟨hle, fun _ => hneg rfl, hne, hhead, hlast, hdigits, hn⟩

end Number

end HciBridge.Config
