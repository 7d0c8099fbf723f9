import Mathlib.Data.List.DropRight
import Mathlib.Data.List.Infix
import Mathlib.Data.Nat.Digits.Defs
import Mathlib.Tactic.IntervalCases

/-!
Text as lists of bytes: trimming, cutting at a separator, letter case, digits.
-/

namespace Text

section Lists

variable {α : Type} [DecidableEq α]

def trim (strip l : List α) : List α :=
  (l.dropWhile fun x => decide (x ∈ strip)).rdropWhile fun x => decide (x ∈ strip)

def cut (c : α) : List α → Option (List α × List α)
  | [] => none
  | x :: l => if x = c then some ([], l) else (cut c l).map fun p => (x :: p.1, p.2)

variable {strip l a b : List α} {c x : α}

theorem trim_isInfix (strip l : List α) : trim strip l <:+: l :=
  List.IsInfix.trans (List.rdropWhile_prefix _ _).isInfix (List.dropWhile_suffix _).isInfix

theorem mem_of_mem_trim (h : x ∈ trim strip l) : x ∈ l := (trim_isInfix strip l).subset h

theorem trim_eq_self (hhead : ∀ x ∈ l.head?, x ∉ strip) (hlast : ∀ x ∈ l.getLast?, x ∉ strip) :
    trim strip l = l := by
  have hdrop : (l.dropWhile fun x => decide (x ∈ strip)) = l := by
    cases l with
    | nil => rfl
    | cons y l =>
      have hy : y ∉ strip := hhead y rfl
      simp [hy]
  rw [trim, hdrop, List.rdropWhile_eq_self_iff]
  intro hne
  have := hlast (l.getLast hne) (List.getLast?_eq_some_getLast hne)
  simpa using this

theorem trim_append_left (h : ∀ x ∈ a, x ∈ strip) : trim strip (a ++ l) = trim strip l := by
  have hdrop : ((a ++ l).dropWhile fun x => decide (x ∈ strip)) =
      l.dropWhile fun x => decide (x ∈ strip) := by
    rw [List.dropWhile_append_of_pos]
    intro x hx
    exact decide_eq_true (h x hx)
  rw [trim, trim, hdrop]

theorem trim_cons (h : x ∈ strip) : trim strip (x :: l) = trim strip l :=
  trim_append_left (a := [x]) (by simpa using h)

theorem trim_concat (h : x ∈ strip) : trim strip (l ++ [x]) = trim strip l := by
  simp only [trim, List.dropWhile_append]
  split
  case isTrue hempty =>
    rw [List.isEmpty_iff] at hempty
    rw [hempty]
    simp [h]
  case isFalse => rw [List.rdropWhile_concat, if_pos (decide_eq_true h)]

theorem trim_append_right (h : ∀ x ∈ b, x ∈ strip) : trim strip (l ++ b) = trim strip l := by
  induction b using List.reverseRecOn with
  | nil => rw [List.append_nil]
  | append_singleton b x ih =>
    rw [← List.append_assoc, trim_concat (h x (by simp)), ih]
    intro y hy
    exact h y (List.mem_append_left _ hy)

theorem cut_eq_some : cut c l = some (a, b) ↔ l = a ++ c :: b ∧ c ∉ a := by
  induction l generalizing a with
  | nil => simp [cut]
  | cons x l ih =>
    by_cases hx : x = c
    · subst hx
      cases a with
      | nil => simp [cut]
      | cons y a =>
        simp only [cut, if_pos, List.cons_append, List.cons.injEq, List.mem_cons, not_or]
        constructor
        · intro h
          cases h
        · intro h
          exact absurd h.1.1 h.2.1
    · cases a with
      | nil => simp [cut, hx]
      | cons y a =>
        simp only [cut, if_neg hx, Option.map_eq_some_iff, Prod.mk.injEq, List.cons.injEq, Prod.exists,
          List.cons_append, List.mem_cons, not_or]
        constructor
        · rintro ⟨a', b', h, ⟨rfl, rfl⟩, rfl⟩
          obtain ⟨rfl, hc⟩ := ih.mp h
          exact ⟨⟨rfl, rfl⟩, Ne.symm hx, hc⟩
        · rintro ⟨⟨rfl, hl⟩, -, hc⟩
          exact ⟨a, b, ih.mpr ⟨hl, hc⟩, ⟨rfl, rfl⟩, rfl⟩

def after (pat : List α) : List α → Option (List α)
  | [] => if pat = [] then some [] else none
  | x :: l => if pat <+: x :: l then some ((x :: l).drop pat.length) else after pat l

def cutSeq (pat : List α) : List α → Option (List α × List α)
  | [] => if pat = [] then some ([], []) else none
  | x :: l =>
    if pat <+: x :: l then some ([], (x :: l).drop pat.length)
    else (cutSeq pat l).map fun p => (x :: p.1, p.2)

theorem eq_of_cutSeq {pat : List α} (h : cutSeq pat l = some (a, b)) : l = a ++ pat ++ b := by
  induction l generalizing a with
  | nil =>
    simp only [cutSeq, Option.ite_none_right_eq_some, Option.some.injEq, Prod.mk.injEq] at h
    obtain ⟨rfl, rfl, rfl⟩ := h
    rfl
  | cons x l ih =>
    rw [cutSeq] at h
    split at h
    case isTrue hpat =>
      obtain ⟨d, hd⟩ := hpat
      simp only [← hd, List.drop_left, Option.some.injEq, Prod.mk.injEq] at h
      obtain ⟨rfl, rfl⟩ := h
      simpa using hd.symm
    case isFalse =>
      obtain ⟨⟨a', b'⟩, hcut, heq⟩ := Option.map_eq_some_iff.mp h
      cases heq
      rw [ih hcut]
      rfl

theorem cutSeq_append {pat m : List α} (h : cutSeq pat l = some (a, b)) : cutSeq pat (l ++ m) = some (a, b ++ m) := by
  induction l generalizing a with
  | nil =>
    simp only [cutSeq, Option.ite_none_right_eq_some, Option.some.injEq, Prod.mk.injEq] at h
    obtain ⟨rfl, rfl, rfl⟩ := h
    cases m <;> simp [cutSeq]
  | cons x l ih =>
    have hlong : pat.length ≤ (x :: l).length := by
      rw [eq_of_cutSeq h]
      simp only [List.length_append]
      omega
    have hpat : pat <+: x :: (l ++ m) ↔ pat <+: x :: l := by
      rw [← List.cons_append]
      refine ⟨fun hp => ?_, fun hp => hp.trans (List.prefix_append _ _)⟩
      exact List.prefix_of_prefix_length_le hp (List.prefix_append _ _) hlong
    rw [cutSeq] at h
    rw [List.cons_append, cutSeq]
    by_cases hp : pat <+: x :: l
    · rw [if_pos hp] at h
      rw [if_pos (hpat.mpr hp), ← List.cons_append, List.drop_append_of_le_length hlong]
      cases h
      rfl
    · rw [if_neg hp] at h
      rw [if_neg (hpat.not.mpr hp)]
      obtain ⟨⟨a', b'⟩, hcut, heq⟩ := Option.map_eq_some_iff.mp h
      cases heq
      rw [ih hcut]
      rfl

theorem cutSeq_first {pat : List α} (a' b' : List α) :
    ∃ a b, cutSeq pat (a' ++ pat ++ b') = some (a, b) ∧ a.length ≤ a'.length := by
  induction a' with
  | nil =>
    refine ⟨[], b', ?_, le_refl _⟩
    cases pat with
    | nil => cases b' <;> simp [cutSeq]
    | cons y pat => simp [cutSeq]
  | cons x a' ih =>
    obtain ⟨a, b, hcut, hle⟩ := ih
    rw [List.cons_append, List.cons_append, cutSeq]
    split
    case isTrue => exact ⟨[], _, rfl, Nat.zero_le _⟩
    case isFalse =>
      rw [hcut]
      exact ⟨x :: a, b, rfl, Nat.succ_le_succ hle⟩

theorem notMem_of_mem_splitOn {p : List α} (h : p ∈ l.splitOn c) : c ∉ p := by
  induction l generalizing p with
  | nil => simp_all
  | cons x l ih =>
    rw [List.splitOn_cons_eq_if_modifyHead] at h
    by_cases hx : x = c
    · simp only [hx, beq_self_eq_true, if_true, List.mem_cons] at h
      rcases h with rfl | h
      · exact List.not_mem_nil
      · exact ih h
    · cases hs : l.splitOn c with
      | nil => exact absurd hs (List.splitOn_ne_nil c l)
      | cons q qs =>
        rw [hs] at ih
        simp only [beq_iff_eq, if_neg hx, hs, List.modifyHead_cons, List.mem_cons] at h
        rcases h with rfl | h
        · simp only [List.mem_cons, not_or]
          exact ⟨Ne.symm hx, ih (by simp)⟩
        · exact ih (by simp [h])

theorem cut_append (h : c ∉ a) : cut c (a ++ c :: b) = some (a, b) := cut_eq_some.mpr ⟨rfl, h⟩

theorem cut_eq_none (h : c ∉ l) : cut c l = none := by
  rw [Option.eq_none_iff_forall_ne_some]
  rintro ⟨a, b⟩ hab
  obtain ⟨rfl, -⟩ := cut_eq_some.mp hab
  exact h (by simp)

theorem append_sep_inj {a' b' : List α} (h : a ++ c :: b = a' ++ c :: b') (ha : c ∉ a) (ha' : c ∉ a') :
    a = a' ∧ b = b' := by
  have hcut := cut_append (b := b) ha
  rw [h, cut_append ha', Option.some.injEq, Prod.mk.injEq] at hcut
  exact ⟨hcut.1.symm, hcut.2.symm⟩

theorem after_concat {q : List α} (hq : c ∉ q) (ha : c ∉ a) :
    after (q ++ [c]) (a ++ c :: b) = if q <:+ a then some b else after (q ++ [c]) b := by
  induction a with
  | nil =>
    rw [List.nil_append, after]
    cases q with
    | nil => simp
    | cons y q =>
      have hy : y ≠ c := fun h => hq (h ▸ List.mem_cons_self)
      simp [hy]
  | cons x a ih =>
    rw [List.mem_cons, not_or] at ha
    have hhere : q ++ [c] <+: x :: a ++ c :: b ↔ q = x :: a := by
      constructor
      · rintro ⟨d, hd⟩
        rw [List.append_assoc] at hd
        exact (append_sep_inj hd hq (by simpa using ha)).1
      · rintro rfl
        exact ⟨b, by simp⟩
    rw [List.cons_append, after, ← List.cons_append]
    by_cases hqa : q = x :: a
    · subst hqa
      rw [if_pos (hhere.mpr rfl), if_pos List.suffix_rfl, List.length_append, List.length_singleton]
      simp
    · rw [if_neg (hhere.not.mpr hqa), ih ha.2]
      congr 1
      rw [List.suffix_cons_iff, eq_iff_iff]
      exact ⟨.inr, fun h => h.resolve_left hqa⟩

omit [DecidableEq α] in
theorem notMem_intercalate {sep : List α} {ls : List (List α)} (hsep : c ∉ sep) (hls : ∀ l ∈ ls, c ∉ l) :
    c ∉ sep.intercalate ls := by
  induction ls with
  | nil => simp
  | cons l ls ih =>
    simp only [List.forall_mem_cons] at hls
    cases ls with
    | nil => simpa using hls.1
    | cons m ms =>
      rw [List.intercalate_cons_cons, List.mem_append, List.mem_append, not_or, not_or]
      exact ⟨⟨hls.1, hsep⟩, ih hls.2⟩

omit [DecidableEq α] in
theorem length_intercalate {ls : List (List α)} (hne : ls ≠ []) :
    ([c].intercalate ls).length + 1 = (ls.map fun l => l.length + 1).sum := by
  induction ls with
  | nil => exact absurd rfl hne
  | cons l ls ih =>
    cases ls with
    | nil => simp
    | cons m ms =>
      have := ih (by simp)
      rw [List.intercalate_cons_cons, List.map_cons, List.sum_cons, ← this]
      simp only [List.length_append, List.length_cons, List.length_nil]
      omega

end Lists

theorem forall_byte {P : UInt8 → Prop} (h : ∀ n : Fin 256, P (UInt8.ofNat n)) (c : UInt8) : P c := by
  have := h ⟨c.toNat, c.toNat_lt⟩
  rwa [UInt8.ofNat_toNat] at this

section Letters

/-- `std.ascii.toLower` -/
def lower (c : UInt8) : UInt8 := if 65 ≤ c ∧ c ≤ 90 then c + 32 else c

def eqlIgnoreCase (a b : List UInt8) : Bool := a.map lower = b.map lower

variable {a b : List UInt8} {c x : UInt8}

theorem eqlIgnoreCase_iff : eqlIgnoreCase a b = true ↔ a.map lower = b.map lower := decide_eq_true_iff

@[simp] theorem eqlIgnoreCase_self : eqlIgnoreCase a a = true := eqlIgnoreCase_iff.mpr rfl

theorem length_eq_of_eqlIgnoreCase (h : eqlIgnoreCase a b = true) : a.length = b.length := by
  have := congrArg List.length (eqlIgnoreCase_iff.mp h)
  simpa using this

theorem lower_eq_iff (h : c < 65) : lower x = c ↔ x = c := by
  simp only [lower, UInt8.lt_iff_toNat_lt, UInt8.le_iff_toNat_le, ← UInt8.toNat_inj, UInt8.reduceToNat] at *
  split
  case isTrue hx =>
    have hadd : (x + 32).toNat = (x.toNat + 32) % 256 := UInt8.toNat_add x 32
    omega
  case isFalse => rfl

end Letters

section Digits

/-- `std.fmt.charToDigit` -/
def charToDigit (base : ℕ) (c : UInt8) : Option ℕ :=
  let value :=
    if 48 ≤ c ∧ c ≤ 57 then some (c.toNat - 48)
    else if 65 ≤ c ∧ c ≤ 90 then some (c.toNat - 55)
    else if 97 ≤ c ∧ c ≤ 122 then some (c.toNat - 87)
    else none
  value.filter fun v => v < base

/-- `std.fmt.hexToBytes` -/
def hexToBytes : List UInt8 → Option (List UInt8)
  | [] => some []
  | [_] => none
  | hi :: lo :: rest => do
    let h ← charToDigit 16 hi
    let l ← charToDigit 16 lo
    let bs ← hexToBytes rest
    return (h * 16 + l).toUInt8 :: bs

/-- The digits of `std.fmt.parseInt`. The value only grows, so each step can be held against `max`. -/
def accumulate (max : ℕ) (neg : Bool) : ℕ → List UInt8 → Option ℕ
  | acc, [] => some acc
  | acc, c :: cs =>
    if c = 95 then accumulate max neg acc cs
    else (charToDigit 10 c).bind fun d =>
      if neg ∧ d ≠ 0 then none
      else if acc * 10 + d ≤ max then accumulate max neg (acc * 10 + d) cs else none

def parseIntWithSign (max : ℕ) (neg : Bool) (buf : List UInt8) : Option ℕ :=
  if buf.head? = none ∨ buf.head? = some 95 ∨ buf.getLast? = some 95 then none
  else accumulate max neg 0 buf

/-- `std.fmt.parseInt` of an unsigned type with largest value `max`, in base 10 -/
def parseInt (max : ℕ) : List UInt8 → Option ℕ
  | [] => none
  | c :: cs =>
    if c = 43 then parseIntWithSign max false cs
    else if c = 45 then parseIntWithSign max true cs
    else parseIntWithSign max false (c :: cs)

theorem accumulate_le {max acc n : ℕ} {neg : Bool} {cs : List UInt8} (hacc : acc ≤ max)
    (h : accumulate max neg acc cs = some n) : n ≤ max := by
  induction cs generalizing acc with
  | nil =>
    cases h
    exact hacc
  | cons c cs ih =>
    rw [accumulate] at h
    split at h
    case isTrue => exact ih hacc h
    case isFalse =>
      obtain ⟨d, -, h⟩ := Option.bind_eq_some_iff.mp h
      split at h
      case isTrue => cases h
      case isFalse =>
        split at h
        case isTrue hle => exact ih hle h
        case isFalse => cases h

theorem parseInt_le {max n : ℕ} {cs : List UInt8} (h : parseInt max cs = some n) : n ≤ max := by
  have hsign {neg : Bool} {buf : List UInt8} (h : parseIntWithSign max neg buf = some n) : n ≤ max := by
    rw [parseIntWithSign] at h
    split at h
    case isTrue => cases h
    case isFalse => exact accumulate_le (Nat.zero_le max) h
  cases cs with
  | nil => cases h
  | cons c cs =>
    rw [parseInt] at h
    split at h
    case isTrue => exact hsign h
    case isFalse =>
      split at h
      case isTrue => exact hsign h
      case isFalse => exact hsign h

theorem hexToBytes_length {hex bs : List UInt8} (h : hexToBytes hex = some bs) :
    hex.length = 2 * bs.length := by
  fun_induction hexToBytes hex generalizing bs with
  | case1 =>
    cases h
    rfl
  | case2 => cases h
  | case3 hi lo rest ih =>
    simp only [Option.bind_eq_bind, Option.bind_eq_some_iff, Option.pure_def, Option.some.injEq] at h
    obtain ⟨_, _, _, _, bs', hbs, rfl⟩ := h
    have := ih hbs
    simp only [List.length_cons]
    omega

theorem hexToBytes_flatMap (digit : ℕ → UInt8) (hdigit : ∀ n < 16, charToDigit 16 (digit n) = some n)
    (bs : List UInt8) :
    hexToBytes (bs.flatMap fun b => [digit (b.toNat / 16), digit (b.toNat % 16)]) = some bs := by
  induction bs with
  | nil => rfl
  | cons b bs ih =>
    have hb := b.toNat_lt
    have hhi := hdigit (b.toNat / 16) (by omega)
    have hlo := hdigit (b.toNat % 16) (by omega)
    have hval : b.toNat / 16 * 16 + b.toNat % 16 = b.toNat := by omega
    simp only [List.flatMap_cons, List.cons_append, List.nil_append, hexToBytes, hhi, hlo, ih, hval,
      Option.bind_eq_bind, Option.bind_some, Option.pure_def, UInt8.ofNat_toNat, Nat.toUInt8_eq]

theorem charToDigit_digit {d : ℕ} (h : d < 10) : charToDigit 10 (48 + d).toUInt8 = some d := by
  interval_cases d <;> decide

theorem digit_ne {d : ℕ} (h : d < 10) {c : UInt8} (hc : c < 48 ∨ 57 < c) : (48 + d).toUInt8 ≠ c := by
  intro he
  subst he
  simp only [UInt8.lt_iff_toNat_lt, Nat.toUInt8_eq, UInt8.toNat_ofNat', UInt8.reduceToNat] at hc
  omega

theorem le_foldl_digits (ds : List ℕ) (acc : ℕ) : acc ≤ ds.foldl (fun a d => a * 10 + d) acc := by
  induction ds generalizing acc with
  | nil => exact Nat.le_refl acc
  | cons d ds ih =>
    have := ih (acc * 10 + d)
    simp only [List.foldl_cons]
    omega

theorem accumulate_digits (max : ℕ) (ds : List ℕ) (hds : ∀ d ∈ ds, d < 10) (acc : ℕ)
    (h : ds.foldl (fun a d => a * 10 + d) acc ≤ max) :
    accumulate max false acc (ds.map fun d => (48 + d).toUInt8) =
      some (ds.foldl (fun a d => a * 10 + d) acc) := by
  induction ds generalizing acc with
  | nil => rfl
  | cons d ds ih =>
    have hd : d < 10 := hds d (by simp)
    have hle : acc * 10 + d ≤ max := Nat.le_trans (le_foldl_digits ds _) h
    rw [List.map_cons, accumulate, if_neg (digit_ne hd (by decide)), charToDigit_digit hd,
      Option.bind_some, if_neg (by simp), if_pos hle]
    exact ih (fun e he => hds e (by simp [he])) _ h

theorem foldl_digits (n : ℕ) : (Nat.digits 10 n).reverse.foldl (fun a d => a * 10 + d) 0 = n := by
  rw [List.foldl_reverse]
  conv_rhs => rw [← Nat.ofDigits_digits 10 n]
  rw [Nat.ofDigits_eq_foldr]
  congr 1
  funext d a
  simp only [Nat.cast_id]
  omega

theorem parseInt_digits (max : ℕ) (ds : List ℕ) (hne : ds ≠ []) (hds : ∀ d ∈ ds, d < 10)
    (h : ds.foldl (fun a d => a * 10 + d) 0 ≤ max) :
    parseInt max (ds.map fun d => (48 + d).toUInt8) = some (ds.foldl (fun a d => a * 10 + d) 0) := by
  have hacc := accumulate_digits max ds hds 0 h
  have hlast : (ds.map fun d => (48 + d).toUInt8).getLast? ≠ some 95 := by
    rw [List.getLast?_map, List.getLast?_eq_some_getLast hne, Option.map_some, Ne, Option.some.injEq]
    exact digit_ne (hds _ (List.getLast_mem hne)) (by decide)
  cases ds with
  | nil => exact absurd rfl hne
  | cons d ds =>
    have hd : d < 10 := hds d (by simp)
    rw [List.map_cons, parseInt, if_neg (digit_ne hd (by decide)), if_neg (digit_ne hd (by decide)),
      parseIntWithSign, if_neg]
    · exact hacc
    · simp only [List.head?_cons, Option.some.injEq, reduceCtorEq, false_or, not_or]
      exact ⟨digit_ne hd (by decide), hlast⟩

end Digits

end Text
