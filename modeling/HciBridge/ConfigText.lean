import HciBridge.Config

/-!
The text that `applyText` of `host/config.zig` reads, as a grammar of its own.
-/

namespace HciBridge.Config

open Text
open Auth (Bytes ascii)

def outerBlanks : List UInt8 := [32, 9, 13]

def Bare (text : Bytes) : Prop := (∀ c ∈ text.head?, c ∉ outerBlanks) ∧ ∀ c ∈ text.getLast?, c ∉ outerBlanks

structure Key (key : Bytes) : Prop where
  nonempty : key ≠ []
  noEquals : 61 ∉ key
  noNewline : 10 ∉ key
  bare : Bare key
  noComment : hasComment none key = false

structure Value (value : Bytes) : Prop where
  noNewline : 10 ∉ value
  bare : Bare value
  noComment : hasComment none value = false

/-- Blanks after the value, and a comment after at least one of them. -/
inductive Tail : Bytes → Prop
  | blanks {bs : Bytes} (h : ∀ c ∈ bs, c = 32 ∨ c = 9) : Tail bs
  | comment {bs text : Bytes} {b mark : UInt8} (h : ∀ c ∈ bs, c = 32 ∨ c = 9) (hb : b = 32 ∨ b = 9)
      (hmark : mark = 35 ∨ mark = 59) (htext : 10 ∉ text) : Tail (bs ++ b :: mark :: text)

inductive Ignored : Bytes → Prop
  | blank {line : Bytes} (h : ∀ c ∈ line, c ∈ outerBlanks) : Ignored line
  | comment {bs text : Bytes} {mark : UInt8} (h : ∀ c ∈ bs, c = 32 ∨ c = 9) (hmark : mark = 35 ∨ mark = 59)
      (htext : 10 ∉ text) : Ignored (bs ++ mark :: text)
  | noEquals {line : Bytes} (heq : 61 ∉ line) (hline : 10 ∉ line) : Ignored line

section

variable (around : List UInt8)

/-- One line, and the pair it is for; `around` are the blanks that may stand around the `=`. -/
inductive Line : Bytes → Option (Bytes × Bytes) → Prop
  | pair {key value before after tail : Bytes} (hk : Key key) (hv : Value value) (hb : ∀ c ∈ before, c ∈ around)
      (ha : ∀ c ∈ after, c ∈ around) (ht : Tail tail) :
      Line (key ++ before ++ 61 :: (after ++ value ++ tail)) (some (key, value))
  | ignored {line : Bytes} (h : Ignored line) : Line line none

inductive LineEnd : Bytes → Prop
  | lf : LineEnd [10]
  | crlf : LineEnd [13, 10]

inductive Renders : List (Bytes × Bytes) → Bytes → Prop
  | nil : Renders [] []
  | last {line : Bytes} {p : Option (Bytes × Bytes)} (h : Line around line p) : Renders p.toList line
  | line {line eol text : Bytes} {p : Option (Bytes × Bytes)} {ps : List (Bytes × Bytes)}
      (h : Line around line p) (he : LineEnd eol) (ht : Renders ps text) :
      Renders (p.toList ++ ps) (line ++ eol ++ text)

end

def toPair (source : Bytes) (p : Bytes × Bytes) : Pair := ⟨p.1, p.2, source⟩

section Lines

variable {line cr source tail bs : Bytes}

theorem hasComment_append (prev : Option UInt8) (a b : Bytes) :
    hasComment prev (a ++ b) = (hasComment prev a || hasComment (a.getLast?.or prev) b) := by
  induction a generalizing prev with
  | nil => rfl
  | cons c cs ih =>
    rw [List.cons_append, hasComment, hasComment, ih, Bool.or_assoc]
    cases cs with
    | nil => rfl
    | cons d ds => rw [List.getLast?_cons_cons, List.getLast?_eq_some_getLast (List.cons_ne_nil d ds)]; rfl

theorem hasComment_of_none (prev : Option UInt8) {l : Bytes} (h : hasComment none l = false) :
    hasComment prev l = false := by
  cases l with
  | nil => rfl
  | cons c cs =>
    simp only [hasComment, true_or, and_true, Bool.or_eq_false_iff, decide_eq_false_iff_not] at h
    rw [hasComment, h.2, Bool.or_false, decide_eq_false]
    exact fun hc => h.1 hc.1

theorem notMem_blanks {c : UInt8} (hc : ¬(c = 32 ∨ c = 9)) (h : ∀ c ∈ bs, c = 32 ∨ c = 9) : c ∉ bs :=
  fun hmem => hc (h c hmem)

theorem hasComment_blanks (prev : Option UInt8) (h : ∀ c ∈ bs, c = 32 ∨ c = 9) : hasComment prev bs = false := by
  apply hasComment_eq_false_of_notMem
  · exact notMem_blanks (by decide) h
  · exact notMem_blanks (by decide) h

theorem mem_outerBlanks (h : ∀ c ∈ bs, c = 32 ∨ c = 9) : ∀ c ∈ bs, c ∈ outerBlanks := by
  intro c hc
  rcases h c hc with rfl | rfl <;> simp [outerBlanks]

theorem mem_cr (hcr : cr = [] ∨ cr = [13]) : ∀ c ∈ cr, c ∈ outerBlanks := by
  rcases hcr with rfl | rfl <;> simp [outerBlanks]

theorem Tail.blank_of_strip (ht : Tail tail) (hcr : cr = [] ∨ cr = [13]) (prev : Option UInt8) :
    ∀ c ∈ stripCommentFrom prev (tail ++ cr), c ∈ outerBlanks := by
  intro c hc
  cases ht with
  | blanks h =>
    rcases List.mem_append.mp ((stripCommentFrom_isPrefix prev _).subset hc) with hc | hc
    · exact mem_outerBlanks h c hc
    · exact mem_cr hcr c hc
  | @comment bs text b mark h hb hmark =>
    have hblanks : ∀ c ∈ bs ++ [b], c = 32 ∨ c = 9 := by
      intro c hc
      rcases List.mem_append.mp hc with hc | hc
      · exact h c hc
      · rwa [List.mem_singleton.mp hc]
    have hsplit : bs ++ b :: mark :: text ++ cr = bs ++ [b] ++ mark :: (text ++ cr) := by simp
    rw [hsplit, stripCommentFrom_append (hasComment_blanks prev hblanks), stripCommentFrom, if_pos] at hc
    · rw [List.append_nil] at hc
      exact mem_outerBlanks hblanks c hc
    · rw [List.getLast?_append]
      rcases hb with rfl | rfl <;> simp [hmark]

theorem Bare.trim_inner {text : Bytes} (h : Bare text) : trim [32, 9] text = text := by
  have hsub : ∀ c, c ∈ ([32, 9] : List UInt8) → c ∈ outerBlanks := by simp [outerBlanks]
  apply trim_eq_self
  · intro c hc hmem
    exact h.1 c hc (hsub c hmem)
  · intro c hc hmem
    exact h.2 c hc (hsub c hmem)

theorem cut_trim {key value before after : Bytes} (hk : Key key) (hv : Value value)
    (hb : ∀ c ∈ before, c = 32 ∨ c = 9) (ha : ∀ c ∈ after, c = 32 ∨ c = 9) :
    ∃ rest, cut 61 (trim outerBlanks (key ++ before ++ 61 :: (after ++ value))) = some (key ++ before, rest) ∧
      trim [32, 9] rest = value := by
  have hcut (rest : Bytes) : cut 61 (key ++ before ++ 61 :: rest) = some (key ++ before, rest) := by
    apply cut_append
    rw [List.mem_append, not_or]
    exact ⟨hk.noEquals, notMem_blanks (by decide) hb⟩
  have hhead (rest : Bytes) : ∀ c ∈ (key ++ before ++ 61 :: rest).head?, c ∉ outerBlanks := by
    intro c hc
    obtain ⟨d, ds, rfl⟩ := List.exists_cons_of_ne_nil hk.nonempty
    exact hk.bare.1 c (by simpa using hc)
  cases value with
  | nil =>
    -- without a value the line ends at the `=`, and the blanks after it go with the outer ones
    refine ⟨[], ?_, rfl⟩
    have hsplit : key ++ before ++ 61 :: (after ++ []) = key ++ before ++ [61] ++ after := by simp
    rw [hsplit, trim_append_right (mem_outerBlanks ha), trim_eq_self (hhead [])]
    · exact hcut []
    · simp [outerBlanks]
  | cons v vs =>
    refine ⟨after ++ v :: vs, ?_, ?_⟩
    · rw [trim_eq_self (hhead _)]
      · exact hcut _
      · intro c hc
        apply hv.bare.2 c
        simpa [List.getLast?_append, List.getLast?_cons] using hc
    · rw [trim_append_left (by simpa using ha)]
      exact hv.bare.trim_inner

theorem applyLine_of_cut {raw before after : Bytes}
    (hcut : cut 61 (trim outerBlanks (stripComment raw)) = some (before, after)) (hkey : trim [32, 9] before ≠ []) :
    applyLine source raw = some ⟨trim [32, 9] before, trim [32, 9] after, source⟩ := by
  simp only [outerBlanks] at hcut
  have hne : trim [32, 9, 13] (stripComment raw) ≠ [] := by
    intro hnil
    rw [hnil] at hcut
    cases hcut
  simp only [applyLine, if_neg hne, hcut, if_neg hkey]

theorem hasComment_pair {key value before after : Bytes} (hk : Key key) (hv : Value value)
    (hb : ∀ c ∈ before, c = 32 ∨ c = 9) (ha : ∀ c ∈ after, c = 32 ∨ c = 9) :
    hasComment none (key ++ before ++ 61 :: (after ++ value)) = false := by
  rw [hasComment_append, hasComment_append, hk.noComment, hasComment_blanks _ hb, hasComment, hasComment_append,
    hasComment_blanks _ ha, hasComment_of_none _ hv.noComment]
  simp

theorem applyLine_pair {key value before after : Bytes} (hk : Key key) (hv : Value value)
    (hb : ∀ c ∈ before, c = 32 ∨ c = 9) (ha : ∀ c ∈ after, c = 32 ∨ c = 9) (ht : Tail tail)
    (hcr : cr = [] ∨ cr = [13]) :
    applyLine source (key ++ before ++ 61 :: (after ++ value ++ tail) ++ cr) = some (toPair source (key, value)) := by
  have hsplit : key ++ before ++ 61 :: (after ++ value ++ tail) ++ cr =
      key ++ before ++ 61 :: (after ++ value) ++ (tail ++ cr) := by simp
  have hstrip : trim outerBlanks (stripComment (key ++ before ++ 61 :: (after ++ value ++ tail) ++ cr)) =
      trim outerBlanks (key ++ before ++ 61 :: (after ++ value)) := by
    rw [hsplit, stripComment, stripCommentFrom_append (hasComment_pair hk hv hb ha)]
    exact trim_append_right (ht.blank_of_strip hcr _)
  obtain ⟨rest, hcut, hrest⟩ := cut_trim hk hv hb ha
  have hkey : trim [32, 9] (key ++ before) = key := by
    rw [trim_append_right (by simpa using hb)]
    exact hk.bare.trim_inner
  rw [← hstrip] at hcut
  rw [applyLine_of_cut hcut, hkey, hrest]
  · rfl
  · rw [hkey]
    exact hk.nonempty

theorem applyLine_ignored {line : Bytes} (h : Ignored line) (hcr : cr = [] ∨ cr = [13]) :
    applyLine source (line ++ cr) = none := by
  by_contra hsome
  obtain ⟨p, hp⟩ := Option.ne_none_iff_exists'.mp hsome
  obtain ⟨before, after, hcut, -, -⟩ := applyLine_eq_some hp
  have heq : 61 ∈ stripComment (line ++ cr) := by
    apply mem_of_mem_trim
    rw [(cut_eq_some.mp hcut).1]
    simp
  have hmem : 61 ∈ line ++ cr := (stripCommentFrom_isPrefix none _).subset heq
  have hcr61 : 61 ∉ cr := by rcases hcr with rfl | rfl <;> simp
  have hline : 61 ∈ line := (List.mem_append.mp hmem).resolve_right hcr61
  cases h with
  | blank h =>
    have := h 61 hline
    simp [outerBlanks] at this
  | @comment bs text mark h hmark htext =>
    rw [stripComment, List.append_assoc, stripCommentFrom_append (hasComment_blanks none h), List.cons_append,
      stripCommentFrom, if_pos, List.append_nil] at heq
    · exact notMem_blanks (by decide) h heq
    · refine ⟨hmark, ?_⟩
      cases hlast : bs.getLast? with
      | none => exact .inl rfl
      | some b => simpa using h b (List.mem_of_getLast? hlast)
  | noEquals heq hline' => exact heq hline

end Lines

section Texts

variable {line text : Bytes} {p : Option (Bytes × Bytes)} {ps : List (Bytes × Bytes)}

theorem Line.applyLine_eq {cr source : Bytes} (h : Line [32, 9] line p) (hcr : cr = [] ∨ cr = [13]) :
    applyLine source (line ++ cr) = p.map (toPair source) := by
  cases h with
  | pair hk hv hb ha ht => exact applyLine_pair hk hv (by simpa using hb) (by simpa using ha) ht hcr
  | ignored h => exact applyLine_ignored h hcr

theorem Tail.noNewline {tail : Bytes} (h : Tail tail) : 10 ∉ tail := by
  cases h with
  | blanks h => exact notMem_blanks (by decide) h
  | @comment bs text b mark h hb hmark htext =>
    simp only [List.mem_append, List.mem_cons, not_or]
    refine ⟨notMem_blanks (by decide) h, ?_, ?_, htext⟩
    · rcases hb with rfl | rfl <;> decide
    · rcases hmark with rfl | rfl <;> decide

theorem Ignored.noNewline (h : Ignored line) : 10 ∉ line := by
  cases h with
  | blank h =>
    intro hc
    have := h 10 hc
    simp [outerBlanks] at this
  | @comment bs text mark h hmark htext =>
    simp only [List.mem_append, List.mem_cons, not_or]
    refine ⟨notMem_blanks (by decide) h, ?_, htext⟩
    rcases hmark with rfl | rfl <;> decide
  | noEquals _ hline => exact hline

theorem Line.noNewline (h : Line [32, 9] line p) : 10 ∉ line := by
  cases h with
  | pair hk hv hb ha ht =>
    simp only [List.mem_append, List.mem_cons, not_or]
    exact ⟨⟨hk.noNewline, notMem_blanks (by decide) (by simpa using hb)⟩, by decide,
      ⟨notMem_blanks (by decide) (by simpa using ha), hv.noNewline⟩, ht.noNewline⟩
  | ignored h => exact h.noNewline

theorem LineEnd.eq_concat {eol : Bytes} (h : LineEnd eol) : ∃ cr, (cr = [] ∨ cr = [13]) ∧ eol = cr ++ [10] := by
  cases h with
  | lf => exact ⟨[], .inl rfl, rfl⟩
  | crlf => exact ⟨[13], .inr rfl, rfl⟩

theorem applyText_append (pairs : List Pair) (a b : Bytes) :
    applyText pairs (a ++ [10] ++ b) = applyText (applyText pairs a) b := by
  have hsplit : (a ++ [10] ++ b).splitOn 10 = a.splitOn 10 ++ b.splitOn 10 := by
    rw [List.append_assoc, List.singleton_append]
    exact List.splitOn_append_cons_self _ _
  rw [applyText, applyTextFrom, hsplit, List.filterMap_append, ← List.append_assoc]
  rfl

theorem applyText_line {line : Bytes} (pairs : List Pair) (h : 10 ∉ line) :
    applyText pairs line = pairs ++ (applyLine (ascii "config") line).toList := by
  rw [applyText, applyTextFrom, List.splitOn_eq_singleton h]
  cases hline : applyLine (ascii "config") line <;> simp [hline]

theorem applyText_renders (h : Renders [32, 9] ps text) (pairs : List Pair) :
    applyText pairs text = pairs ++ ps.map (toPair (ascii "config")) := by
  have hone {line : Bytes} {p : Option (Bytes × Bytes)} {cr : Bytes} (h : Line [32, 9] line p)
      (hcr : cr = [] ∨ cr = [13]) (pairs : List Pair) :
      applyText pairs (line ++ cr) = pairs ++ p.toList.map (toPair (ascii "config")) := by
    have hnew : 10 ∉ line ++ cr := by
      rw [List.mem_append, not_or]
      exact ⟨h.noNewline, by rcases hcr with rfl | rfl <;> simp⟩
    rw [applyText_line pairs hnew, h.applyLine_eq hcr]
    cases p <;> rfl
  induction h generalizing pairs with
  | nil => exact applyText_line pairs (by simp)
  | @last line p h =>
    have := hone h (.inl rfl) pairs
    rwa [List.append_nil] at this
  | @line line eol text p ps h he ht ih =>
    obtain ⟨cr, hcr, rfl⟩ := he.eq_concat
    rw [← List.append_assoc, applyText_append, hone h hcr, ih, List.map_append, List.append_assoc]

end Texts

theorem config_text_grammar (pairs : List Pair) :
    (∀ ps text, Renders [32, 9] ps text → applyText pairs text = pairs ++ ps.map (toPair (ascii "config"))) ∧
      ∀ a b, applyText pairs (a ++ [10] ++ b) = applyText (applyText pairs a) b :=
  ⟨fun _ _ h => applyText_renders h pairs, applyText_append pairs⟩

theorem config_text_grammar_hosts :
    applyText [] (ascii "# hosts\r\n\nkey = a=b#1\t; note\r\nno pair\nlast=") =
      [⟨ascii "key", ascii "a=b#1", ascii "config"⟩, ⟨ascii "last", [], ascii "config"⟩] := by
  have hcomment : Ignored ([] ++ 35 :: ascii " hosts") := .comment nofun (.inl rfl) (by decide)
  have hkey : Key (ascii "key") := ⟨by decide, by decide, by decide, by simp [Bare, outerBlanks, ascii], by decide⟩
  have hvalue : Value (ascii "a=b#1") := ⟨by decide, by simp [Bare, outerBlanks, ascii], by decide⟩
  have hnote : Tail ([] ++ 9 :: 59 :: ascii " note") := .comment nofun (.inr rfl) (.inr rfl) (by decide)
  have hpair : Line [32, 9] _ (some (ascii "key", ascii "a=b#1")) :=
    @Line.pair _ _ _ [32] [32] _ hkey hvalue (by simp) (by simp) hnote
  have hlast : Key (ascii "last") := ⟨by decide, by decide, by decide, by simp [Bare, outerBlanks, ascii], by decide⟩
  have hempty : Line [32, 9] _ (some (ascii "last", [])) :=
    @Line.pair _ _ [] [] [] [] hlast ⟨by decide, by simp [Bare], rfl⟩ (by simp) (by simp) (.blanks (by simp))
  have hnoPair : Ignored (ascii "no pair") := .noEquals (by decide) (by decide)
  have hblank : Ignored [] := .blank nofun
  have htext := Renders.line (.ignored hcomment) .crlf <| .line (.ignored hblank) .lf <| .line hpair .crlf <|
    .line (.ignored hnoPair) .lf <| .last hempty
  exact (config_text_grammar []).1 _ _ htext

/-- A carriage return is a blank at the ends of a line only: in front of the `=` it stays in the key. -/
theorem cr_stays_in_key :
    Renders outerBlanks [(ascii "a", ascii "1")] (ascii "a\r=1") ∧
      applyText [] (ascii "a\r=1") ≠ [(ascii "a", ascii "1")].map (toPair (ascii "config")) := by
  have hk : Key (ascii "a") := ⟨by decide, by decide, by decide, by simp [Bare, outerBlanks, ascii], by decide⟩
  have hv : Value (ascii "1") := ⟨by decide, by simp [Bare, outerBlanks, ascii], by decide⟩
  have hline : Line outerBlanks (ascii "a\r=1") (some (ascii "a", ascii "1")) :=
    @Line.pair outerBlanks _ _ [13] [] [] hk hv (by simp [outerBlanks]) (by simp) (.blanks (by simp))
  exact ⟨.last hline, by decide⟩

end HciBridge.Config
