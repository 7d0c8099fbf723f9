import HciBridge.Release

namespace HciBridge.Release

open Auth (Bytes ascii)
open Text

structure Tag (tag : Bytes) : Prop where
  ne : tag ≠ []
  length_le : tag.length ≤ 64
  head : ∀ c ∈ tag.head?, isAlphanumeric c = true
  chars : ∀ c ∈ tag, tagChar c = true

theorem tagChar_notMem_stop {c : UInt8} (h : tagChar c = true) : c ∉ tagStop := by
  revert c
  apply forall_byte
  decide +kernel

theorem takeWhile_tag {tag suffix : Bytes} (htag : Tag tag) (hsuffix : ∀ c ∈ suffix.head?, c ∈ tagStop) :
    ((tag ++ suffix).takeWhile fun c => c ∉ tagStop) = tag := by
  rw [List.takeWhile_append_of_pos]
  · cases suffix with
    | nil => simp
    | cons c suffix =>
      have hc : c ∈ tagStop := hsuffix c rfl
      simp [hc]
  · exact fun c hc => decide_eq_true (tagChar_notMem_stop (htag.chars c hc))

theorem tagFromLocation_of_cut {loc before tag suffix : Bytes} (hcut : cutSeq marker loc = some (before, tag ++ suffix))
    (htag : Tag tag) (hsuffix : ∀ c ∈ suffix.head?, c ∈ tagStop) : tagFromLocation loc = some tag := by
  obtain ⟨c, rest, rfl⟩ := List.exists_cons_of_ne_nil htag.ne
  have hhead : isAlphanumeric c = true := htag.head c rfl
  have hlen := htag.length_le
  rw [tagFromLocation, hcut, Option.bind_some]
  simp only [takeWhile_tag htag hsuffix]
  rw [if_neg, if_pos]
  · exact List.all_eq_true.mpr htag.chars
  · simp only [List.cons_ne_nil, List.head?_cons, Option.any_some, hhead, not_true, or_false, false_or, not_lt]
    exact hlen

theorem cut_of_tagFromLocation {loc tag : Bytes} (h : tagFromLocation loc = some tag) :
    Tag tag ∧ ∃ before suffix, cutSeq marker loc = some (before, tag ++ suffix) ∧
      ∀ c ∈ suffix.head?, c ∈ tagStop := by
  obtain ⟨⟨before, rest⟩, hcut, h⟩ := Option.bind_eq_some_iff.mp h
  simp only [Option.ite_none_left_eq_some, Option.ite_none_right_eq_some, Option.some.injEq, not_or, not_not,
    not_lt] at h
  obtain ⟨⟨hne, hlen, hhead⟩, hall, rfl⟩ := h
  refine ⟨⟨hne, hlen, ?_, List.all_eq_true.mp hall⟩, before, rest.dropWhile fun c => c ∉ tagStop, ?_, ?_⟩
  · intro c hc
    rw [Option.mem_def] at hc
    rw [hc] at hhead
    exact hhead
  · rw [List.takeWhile_append_dropWhile]
    exact hcut
  · intro c hc
    have hnot := List.head?_dropWhile_not (fun c => decide (c ∉ tagStop)) rest
    rw [Option.mem_def] at hc
    rw [hc] at hnot
    simpa using hnot

theorem tagFromLocation_iff (loc tag : Bytes) :
    (tagFromLocation loc = some tag ↔ Tag tag ∧ ∃ before suffix, cutSeq marker loc = some (before, tag ++ suffix) ∧
      ∀ c ∈ suffix.head?, c ∈ tagStop) ∧
    (tagFromLocation loc = some tag → ∀ name, 47 ∉ name →
      (assetUrl tag name).splitOn 47 = downloadBase.dropLast.splitOn 47 ++ [tag, name]) := by
  refine ⟨⟨cut_of_tagFromLocation, ?_⟩, ?_⟩
  · rintro ⟨htag, before, suffix, hcut, hsuffix⟩
    exact tagFromLocation_of_cut hcut htag hsuffix
  · intro h name hname
    have hslash : 47 ∉ tag := fun hc => by
      have hchar := (cut_of_tagFromLocation h).1.chars 47 hc
      simp [tagChar, isAlphanumeric, ascii] at hchar
    have hurl : assetUrl tag name = downloadBase.dropLast ++ 47 :: (tag ++ 47 :: name) := by
      simp [assetUrl, downloadBase, ascii]
    rw [hurl, List.splitOn_append_cons_self, List.splitOn_append_cons_self_of_not_mem hslash,
      List.splitOn_eq_singleton hname]

structure SumEntry where
  hex : Bytes
  binary : Bool
  name : Bytes
  hex_length : hex.length = 64
  hex_chars : 32 ∉ hex ∧ 10 ∉ hex
  name_newline : 10 ∉ name
  name_ne : name ≠ []
  name_head : ∀ c ∈ name.head?, c ≠ 32 ∧ c ≠ 42
  name_last : ∀ c ∈ name.getLast?, c ≠ 32

def SumEntry.line (e : SumEntry) : Bytes := e.hex ++ 32 :: (if e.binary then 42 else 32) :: e.name

inductive Listing : List SumEntry → Bytes → Prop
  | nil : Listing [] []
  | entry {es : List SumEntry} {text : Bytes} (e : SumEntry) (h : Listing es text) :
      Listing (e :: es) (e.line ++ 10 :: text)
  | other {es : List SumEntry} {text line : Bytes} (hline : 10 ∉ line)
      (hnot : ∀ p, cut 32 line = some p → p.1.length ≠ 64) (h : Listing es text) : Listing es (line ++ 10 :: text)
  | last (e : SumEntry) : Listing [e] e.line

theorem SumEntry.trim_rest (e : SumEntry) :
    trim [32] (32 :: (if e.binary then 42 else 32) :: e.name) = if e.binary then 42 :: e.name else e.name := by
  have hname : trim [32] e.name = e.name := by
    apply trim_eq_self
    · exact fun c hc => by simpa using (e.name_head c hc).1
    · exact fun c hc => by simpa using e.name_last c hc
  rw [trim_cons (by simp)]
  cases e.binary with
  | false => simpa [trim_cons] using hname
  | true =>
    apply trim_eq_self
    · simp
    · intro c hc
      rw [if_pos rfl, List.getLast?_cons_of_ne_nil e.name_ne] at hc
      simpa using e.name_last c hc

theorem SumEntry.sumLine_line (e : SumEntry) (name : Bytes) :
    sumLine name e.line = if e.name = name then some e.hex else none := by
  have hcut : cut 32 e.line = some (e.hex, (if e.binary then 42 else 32) :: e.name) := cut_append e.hex_chars.1
  have hdrop : e.line.drop e.hex.length = 32 :: (if e.binary then 42 else 32) :: e.name := List.drop_left
  have hstar : e.name.head? ≠ some 42 := fun h => (e.name_head 42 h).2 rfl
  rw [sumLine, hcut, Option.bind_some]
  dsimp only
  rw [hdrop, e.trim_rest, e.hex_length]
  cases e.binary <;> simp [hstar]

theorem sumLine_other {name line : Bytes} (hnot : ∀ p, cut 32 line = some p → p.1.length ≠ 64) :
    sumLine name line = none := by
  rw [sumLine, Option.bind_eq_none_iff]
  intro p hp
  exact if_neg fun h => hnot p hp h.1

theorem sumLine_eq_some {name line hex : Bytes} (h : sumLine name line = some hex) :
    hex.length = 64 ∧ ∃ rest, line = hex ++ 32 :: rest ∧ name <:+: 32 :: rest := by
  obtain ⟨⟨before, after⟩, hcut, h⟩ := Option.bind_eq_some_iff.mp h
  obtain ⟨rfl, -⟩ := cut_eq_some.mp hcut
  simp only [Option.ite_none_right_eq_some, Option.some.injEq, List.drop_left] at h
  obtain ⟨⟨hlen, rfl⟩, rfl⟩ := h
  refine ⟨hlen, after, rfl, ?_⟩
  split
  case isTrue => exact (List.tail_suffix _).isInfix.trans (trim_isInfix _ _)
  case isFalse => exact trim_isInfix _ _

theorem SumEntry.noNewline (e : SumEntry) : 10 ∉ e.line := by
  have hmode : (10 : UInt8) ≠ if e.binary then 42 else 32 := by cases e.binary <;> decide
  simp [SumEntry.line, e.hex_chars.2, e.name_newline, hmode]

theorem sumFor_listing (name : Bytes) :
    (∀ es text, Listing es text → sumFor text name = (es.find? fun e => e.name = name).map SumEntry.hex) ∧
    (∀ sums hex, sumFor sums name = some hex → hex.length = 64 ∧
      ∃ line ∈ sums.splitOn 10, ∃ rest, line = hex ++ 32 :: rest ∧ name <:+: 32 :: rest) := by
  constructor
  · intro es text h
    induction h with
    | nil => rfl
    | entry e h ih =>
      rw [sumFor, List.splitOn_append_cons_self_of_not_mem e.noNewline, List.findSome?_cons, e.sumLine_line,
        List.find?_cons]
      by_cases hname : e.name = name
      · simp [hname]
      · rw [if_neg hname, decide_eq_false hname]
        exact ih
    | other hline hnot h ih =>
      rw [sumFor, List.splitOn_append_cons_self_of_not_mem hline, List.findSome?_cons, sumLine_other hnot]
      exact ih
    | last e =>
      rw [sumFor, List.splitOn_eq_singleton e.noNewline, List.findSome?_cons, e.sumLine_line, List.find?_cons]
      by_cases hname : e.name = name <;> simp [hname]
  · intro sums hex h
    obtain ⟨line, hmem, hline⟩ := List.exists_of_findSome?_eq_some h
    obtain ⟨hlen, rest, heq, hname⟩ := sumLine_eq_some hline
    exact ⟨hlen, line, hmem, rest, heq, hname⟩

def sumEntry (digit : UInt8) (hdigit : digit ≠ 32 ∧ digit ≠ 10) (binary : Bool) : SumEntry where
  hex := List.replicate 64 digit
  binary := binary
  name := ascii "a b.bin"
  hex_length := List.length_replicate
  hex_chars := by simp [hdigit.1.symm, hdigit.2.symm]
  name_newline := by decide
  name_ne := by decide
  name_head := by simp [ascii]
  name_last := by simp [ascii]

theorem sumFor_listing_twice :
    sumFor (ascii "# sums\n" ++ List.replicate 64 97 ++ ascii " *a b.bin\n" ++ List.replicate 64 98 ++
      ascii "  a b.bin") (ascii "a b.bin") = some (List.replicate 64 97) := by
  have hremark : ∀ p, cut 32 (ascii "# sums") = some p → p.1.length ≠ 64 := by
    rintro _ ⟨⟩
    decide
  have hlisting := Listing.other (by decide) hremark
    (.entry (sumEntry 97 (by decide) true) (.last (sumEntry 98 (by decide) false)))
  exact (sumFor_listing (ascii "a b.bin")).1 _ _ hlisting

end HciBridge.Release
