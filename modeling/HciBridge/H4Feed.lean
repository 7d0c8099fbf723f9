import Mathlib.Tactic
import HciBridge.Framing
import HciBridge.H4

namespace HciBridge.H4

open PacketType

def total (cap : ℕ) : List UInt8 → Except Error (Option ℕ)
  | [] => .ok none
  | b :: tl =>
    match fromByte b with
    | none => .error .UnknownPacketType
    | some t =>
      if tl.length < t.headerLen then .ok none
      else
        let n := 1 + t.headerLen + t.payloadLen (tl.take t.headerLen)
        if cap < n then .error .PacketTooLarge else .ok (some n)

theorem total_ge {cap n : ℕ} {p : List UInt8} (h : total cap p = .ok (some n)) : 3 ≤ n ∧ n ≤ cap := by
  cases p with
  | nil => simp [total] at h
  | cons b tl =>
    simp only [total] at h
    cases hb : fromByte b with
    | none => simp [hb] at h
    | some t =>
      have ht : 2 ≤ t.headerLen := by cases t <;> simp [headerLen]
      simp only [hb] at h
      split_ifs at h with hl hc
      · cases h
      · injection h with h
        injection h with h
        omega

theorem total_append {cap : ℕ} (p q : List UInt8) (h : total cap p ≠ .ok none) :
    total cap (p ++ q) = total cap p := by
  cases p with
  | nil => simp [total] at h
  | cons b tl =>
    simp only [total, List.cons_append] at h ⊢
    cases hb : fromByte b with
    | none => rfl
    | some t =>
      simp only [hb] at h ⊢
      have hl : ¬tl.length < t.headerLen := by
        intro hl
        simp [hl] at h
      have hl' : ¬(tl ++ q).length < t.headerLen := by
        simp only [List.length_append]; omega
      rw [List.take_append_of_le_length (by omega), if_neg hl, if_neg hl']

def framing (cap : ℕ) : Framing UInt8 Error where
  total := total cap
  total_nil := rfl
  stable p q n h := by rw [total_append p q (by simp [h]), h]
  error_stable p q e h := by rw [total_append p q (by simp [h]), h]

@[simp] theorem framing_total (cap : ℕ) (p : List UInt8) : (framing cap).total p = total cap p := rfl

namespace Reassembler

def held (re : Reassembler) : List UInt8 := re.buf.take re.len

structure Wf (re : Reassembler) : Prop where
  storage : 5 ≤ re.buf.length
  within : re.len ≤ re.buf.length
  notPast : ∀ n, total re.buf.length re.held = .ok (some n) → re.len ≤ n

def view (re : Reassembler) : Scan UInt8 Error :=
  { (framing re.buf.length).settle re.held with frames := [] }

theorem held_length {re : Reassembler} (h : re.len ≤ re.buf.length) : re.held.length = re.len := by
  simp [held, h]

theorem headerLen_le (t : PacketType) : t.headerLen ≤ 4 := by cases t <;> simp [headerLen]

theorem totalLen_eq {re : Reassembler} (h : re.len ≤ re.buf.length) :
    re.totalLen = total re.buf.length re.held := by
  obtain ⟨buf, len⟩ := re
  cases buf with
  | nil =>
    have : len = 0 := by simpa using h
    simp [totalLen, held, total, this]
  | cons b tl =>
    cases len with
    | zero => simp [totalLen, held, total]
    | succ n =>
      simp only [List.length_cons, Nat.add_le_add_iff_right] at h
      simp only [totalLen, held, List.take_succ_cons, total, List.getD_cons_zero, Nat.add_eq_zero_iff,
        one_ne_zero, and_false, if_false, List.drop_succ_cons, List.drop_zero, List.length_take]
      cases fromByte b with
      | none => rfl
      | some t =>
        simp only
        by_cases hl : n < t.headerLen
        · rw [if_pos (by omega), if_pos (by omega)]
        · rw [if_neg (show ¬n + 1 < 1 + t.headerLen by omega), min_eq_left h, if_neg hl,
            List.take_take, min_eq_left (by omega)]

theorem view_of_error {re : Reassembler} {e : Error} (h : total re.buf.length re.held = .error e) :
    re.view = ⟨[], re.held, some e⟩ := by
  rw [view, (framing re.buf.length).settle_of_error h]

theorem init_wf (storage : List UInt8) (h : 5 ≤ storage.length) : (init storage).Wf :=
  ⟨h, by simp [init], by simp [init, held, total]⟩

@[simp] theorem view_init (storage : List UInt8) : (init storage).view = .start := by
  simp [view, held, init, Framing.settle_nil, Scan.start]

theorem reset_wf {re : Reassembler} (h : re.Wf) : re.reset.Wf :=
  ⟨h.storage, by simp [reset], by simp [reset, held, total]⟩

@[simp] theorem view_reset (re : Reassembler) : re.reset.view = .start := by
  simp [view, held, reset, Framing.settle_nil, Scan.start]

theorem copyIn_spec {re : Reassembler} {src : List UInt8} (h : re.len ≤ re.buf.length)
    (hs : re.len + src.length ≤ re.buf.length) :
    ∃ re', re.copyIn src = some re' ∧ re'.buf.length = re.buf.length ∧
      re'.len = re.len + src.length ∧ re'.held = re.held ++ src := by
  refine ⟨_, if_pos hs, ?_, rfl, ?_⟩
  · simp only [List.length_append, List.length_take, List.length_drop]
    omega
  · simp only [held]
    rw [List.take_append_of_le_length (by simp [h])]
    rw [List.take_of_length_le (by simp)]

theorem total_of_short {cap : ℕ} {b : UInt8} {tl : List UInt8} {t : PacketType}
    (hb : fromByte b = some t) (hl : tl.length < t.headerLen) : total cap (b :: tl) = .ok none := by
  simp [total, hb, hl]

theorem total_header_le {cap n : ℕ} {b : UInt8} {tl : List UInt8} {t : PacketType}
    (hb : fromByte b = some t) (h : total cap (b :: tl) = .ok (some n)) : 1 + t.headerLen ≤ n := by
  simp only [total, hb] at h
  split_ifs at h
  · cases h
  · injection h with h
    injection h with h
    omega

theorem held_of_none {re : Reassembler} (hlen : re.len ≠ 0) (hw : re.len ≤ re.buf.length)
    (h : total re.buf.length re.held = .ok none) :
    ∃ b tl t, re.held = b :: tl ∧ re.buf.getD 0 0 = b ∧ fromByte b = some t ∧
      tl.length < t.headerLen ∧ re.len = tl.length + 1 := by
  obtain ⟨buf, len⟩ := re
  cases buf with
  | nil => exact absurd (by simpa using hw) hlen
  | cons b tl =>
    obtain ⟨n, rfl⟩ := Nat.exists_eq_succ_of_ne_zero hlen
    simp only [held, List.take_succ_cons, total, List.length_cons] at h hw ⊢
    cases hb : fromByte b with
    | none => simp [hb] at h
    | some t =>
      simp only [hb] at h
      split_ifs at h with hl
      · refine ⟨b, tl.take n, t, rfl, rfl, hb, hl, ?_⟩
        simp only [List.length_take]
        omega
      · cases h

def SettlesLast (re : Reassembler) (w : ℕ) : Prop :=
  ∀ q, q ≠ [] → q.length ≤ w →
    (framing re.buf.length).scan ⟨[], re.held, none⟩ q = (framing re.buf.length).settle (re.held ++ q) ∧
      ∀ n, total re.buf.length (re.held ++ q) = .ok (some n) → re.len + q.length ≤ n

theorem settlesLast_of_total {re : Reassembler} {n : ℕ} (hwf : re.Wf)
    (ht : total re.buf.length re.held = .ok (some n)) : SettlesLast re (n - re.len) := by
  have hgrow (q : List UInt8) : total re.buf.length (re.held ++ q) = .ok (some n) := by
    rw [total_append _ _ (by simp [ht]), ht]
  have hle := hwf.notPast n ht
  intro q hq hqw
  constructor
  · apply (framing _).scan_block _ _ hq
    intro r hr _ hrq
    apply (framing _).settle_of_open (hgrow r)
    have hlt := Framing.prefix_length_lt hr hrq
    rw [List.length_append, held_length hwf.within]
    omega
  · intro m hm
    rw [hgrow q] at hm
    injection hm with hm
    injection hm with hm
    omega

theorem settlesLast_first {re : Reassembler} (hlen : re.len = 0) : SettlesLast re 1 := by
  intro q hq hqw
  obtain ⟨b, rfl⟩ : ∃ b, q = [b] := by
    apply List.length_eq_one_iff.mp
    have := List.length_pos_iff.mpr hq
    omega
  constructor
  · simp [Framing.push, Scan.addFront]
  · intro n hn
    have := (total_ge hn).1
    simp only [List.length_singleton]
    omega

theorem settlesLast_of_header {re : Reassembler} {b : UInt8} {tl : List UInt8} {t : PacketType}
    (hbtl : re.held = b :: tl) (hb : PacketType.fromByte b = some t) (hlen : re.len = tl.length + 1)
    (hle : re.len < 1 + t.headerLen) : SettlesLast re (1 + t.headerLen - re.len) := by
  intro q hq hqw
  constructor
  · apply (framing _).scan_block _ _ hq
    intro r hr _ hrq
    apply (framing _).settle_of_none
    rw [framing_total, hbtl, List.cons_append]
    apply total_of_short hb
    have hlt := Framing.prefix_length_lt hr hrq
    rw [List.length_append]
    omega
  · intro n hn
    rw [hbtl, List.cons_append] at hn
    have := total_header_le hb hn
    omega

theorem want_spec {re : Reassembler} (hwf : re.Wf)
    (hopen : (framing re.buf.length).Unfinished re.held) :
    ∃ w, re.want = .ok (some w) ∧ 1 ≤ w ∧ re.len + w ≤ re.buf.length ∧ SettlesLast re w := by
  unfold want
  rw [totalLen_eq hwf.within]
  cases ht : total re.buf.length re.held with
  | error e =>
    rw [Framing.Unfinished, (framing _).settle_of_error ht] at hopen
    cases hopen
  | ok o =>
    cases o with
    | some n =>
      have hle := hwf.notPast n ht
      have hcap := (total_ge ht).2
      have hne : re.len ≠ n := by
        rintro rfl
        rw [Framing.Unfinished,
          (framing _).settle_of_complete (by rw [framing_total, held_length hwf.within, ht])] at hopen
        cases hopen
      exact ⟨n - re.len, by simp [checkedSub, hle], by omega, by omega, settlesLast_of_total hwf ht⟩
    | none =>
      have h5 := hwf.storage
      by_cases hlen : re.len = 0
      · exact ⟨1, by simp [hlen], le_refl 1, by omega, settlesLast_first hlen⟩
      · obtain ⟨b, tl, t, hbtl, hget, hb, hl, hlen'⟩ := held_of_none hlen hwf.within ht
        have h4 := headerLen_le t
        refine ⟨1 + t.headerLen - re.len, ?_, by omega, by omega, settlesLast_of_header hbtl hb (by omega) (by omega)⟩
        simp only [hlen, if_false, hget, hb, checkedSub]
        rw [if_pos (by omega)]

inductive Fed (v : Scan UInt8 Error) (re : Reassembler) (input : List UInt8) :
    Except Error FeedResult → Prop
  | exhausted (hv : (framing re.buf.length).scan v input = re.view) (he : re.view.error = none) :
      Fed v re input (.ok ⟨input.length, none⟩)
  | packet (c : ℕ) (p : List UInt8) (hc : 0 < c) (hle : c ≤ input.length)
      (hv : (framing re.buf.length).scan v (input.take c) = ⟨[p], [], none⟩)
      (he : re.view = .start) : Fed v re input (.ok ⟨c, some p⟩)
  | failed (c : ℕ) (e : Error) (hle : c ≤ input.length)
      (hv : (framing re.buf.length).scan v (input.take c) = re.view)
      (he : re.view.error = some e) : Fed v re input (.error e)

theorem view_of_unfinished {re : Reassembler} (h : (framing re.buf.length).Unfinished re.held) :
    re.view = ⟨[], re.held, none⟩ := by rw [view, h]

theorem round_spec {re : Reassembler} {input : List UInt8} {consumed : ℕ} (hwf : re.Wf)
    (hopen : (framing re.buf.length).Unfinished re.held) (hlt : consumed < input.length) :
    ∃ w re', re.want = .ok (some w) ∧ 1 ≤ w ∧ re.len + min w (input.length - consumed) ≤ re.buf.length ∧
      re.copyIn ((input.drop consumed).take (min w (input.length - consumed))) = some re' ∧
      re'.Wf ∧ re'.buf.length = re.buf.length ∧
      (framing re.buf.length).scan re.view ((input.drop consumed).take (min w (input.length - consumed))) =
        (framing re.buf.length).settle re'.held := by
  obtain ⟨w, hw, hw1, hwbuf, hblock⟩ := want_spec hwf hopen
  generalize hn : min w (input.length - consumed) = n
  let q := (input.drop consumed).take n
  have hqlen : q.length = n := by simp only [q, List.length_take, List.length_drop]; omega
  have hq : q ≠ [] := by rw [← List.length_pos_iff]; omega
  obtain ⟨hscan, hpast⟩ := hblock q hq (by omega)
  obtain ⟨re', hcopy, hbuf, hlen, hheld⟩ :=
    copyIn_spec hwf.within (show re.len + q.length ≤ re.buf.length by omega)
  refine ⟨w, re', hw, hw1, by omega, by rw [hn]; exact hcopy, ⟨?_, by omega, ?_⟩, hbuf, ?_⟩
  · rw [hbuf]
    exact hwf.storage
  · intro m hm
    rw [hbuf, hheld] at hm
    rw [hlen]
    exact hpast m hm
  · rw [hn, view_of_unfinished hopen, hheld]
    exact hscan

theorem feedLoop_spec (v : Scan UInt8 Error) (input : List UInt8) (fuel : ℕ) (re : Reassembler)
    (consumed : ℕ) (hwf : re.Wf) (hopen : (framing re.buf.length).Unfinished re.held)
    (hv : (framing re.buf.length).scan v (input.take consumed) = re.view)
    (hc : consumed ≤ input.length) (hf : input.length - consumed < fuel) :
    ∃ re' r, feedLoop fuel re input consumed = some (re', r) ∧ re'.Wf ∧
      re'.buf.length = re.buf.length ∧ Fed v re' input r := by
  induction fuel generalizing re consumed with
  | zero => omega
  | succ fuel ih =>
    rw [feedLoop]
    by_cases hlt : consumed < input.length
    · obtain ⟨w, re', hw, hw1, -, hcopy, hwf', hbuf, hscan⟩ := round_spec hwf hopen hlt
      simp only [if_pos hlt, hw]
      generalize hn : min w (input.length - consumed) = n at hcopy hscan ⊢
      -- the bytes consumed after this round, and the scan over them
      have hv' : (framing re'.buf.length).scan v (input.take (consumed + n)) =
          (framing re'.buf.length).settle re'.held := by
        rw [List.take_add, Framing.scan_append, hbuf, hv, hscan]
      rw [hcopy]
      simp only [totalLen_eq hwf'.within]
      have hrest : input.length - (consumed + n) < fuel := by omega
      have hopen' (h : (framing re'.buf.length).Unfinished re'.held) :
          ∃ re'' r, feedLoop fuel re' input (consumed + n) = some (re'', r) ∧ re''.Wf ∧
            re''.buf.length = re.buf.length ∧ Fed v re'' input r := by
        obtain ⟨re'', r, hrun, hwf'', hbuf'', hfed⟩ := ih re' (consumed + n) hwf' h
          (by rw [hv', h, view_of_unfinished h]) (by omega) hrest
        exact ⟨re'', r, hrun, hwf'', by rw [hbuf'', hbuf], hfed⟩
      cases ht : total re'.buf.length re'.held with
      | error e =>
        refine ⟨re', .error e, rfl, hwf', hbuf, .failed (consumed + n) e (by omega) ?_ ?_⟩
        · rw [hv', view_of_error ht, (framing _).settle_of_error ht]
        · rw [view_of_error ht]
      | ok o =>
        cases o with
        | none => exact hopen' ((framing _).settle_of_none ht)
        | some m =>
          by_cases hm : re'.len = m
          · subst hm
            have hl := held_length hwf'.within
            have hdone := (framing re'.buf.length).settle_of_complete
              (p := re'.held) (by rw [framing_total, hl, ht])
            refine ⟨re', .ok ⟨consumed + n, some re'.held⟩, by simp [held], hwf', hbuf,
              .packet (consumed + n) _ ?_ ?_ ?_ ?_⟩
            · omega
            · omega
            · rw [hv', hdone]
            · rw [view, hdone]; rfl
          · simp only [if_neg hm]
            exact hopen' ((framing _).settle_of_open ht (by rwa [held_length hwf'.within]))
    · have hend : consumed = input.length := by omega
      subst hend
      rw [List.take_length] at hv
      refine ⟨re, _, by rw [if_neg hlt], hwf, rfl, .exhausted hv ?_⟩
      rw [view_of_unfinished hopen]

theorem feed_spec {re : Reassembler} (hwf : re.Wf) (input : List UInt8) :
    ∃ re' r, re.feed input = some (re', r) ∧ re'.Wf ∧ re'.buf.length = re.buf.length ∧
      Fed re.view re' input r := by
  unfold feed
  rw [totalLen_eq hwf.within]
  cases ht : total re.buf.length re.held with
  | error e =>
    refine ⟨re, _, rfl, hwf, rfl, .failed 0 e (Nat.zero_le _) ?_ ?_⟩
    · simp
    · rw [view_of_error ht]
  | ok o =>
    have hstart (r : Reassembler) (hr : r.Wf) (hopen : (framing r.buf.length).Unfinished r.held)
        (hb : r.buf.length = re.buf.length) (hv : re.view = r.view) :
        ∃ re' out, feedLoop (input.length + 1) r input 0 = some (re', out) ∧ re'.Wf ∧
          re'.buf.length = re.buf.length ∧ Fed re.view re' input out := by
      obtain ⟨re', out, h, hwf', hb', hfed⟩ := feedLoop_spec re.view input (input.length + 1) r 0 hr
        hopen (by simp [hv]) (Nat.zero_le _) (by omega)
      exact ⟨re', out, h, hwf', by omega, hfed⟩
    cases o with
    | none => exact hstart re hwf ((framing _).settle_of_none ht) rfl rfl
    | some n =>
      have hl := held_length hwf.within
      by_cases hn : re.len = n
      · have hdone := (framing re.buf.length).settle_of_complete (p := re.held)
          (by rw [framing_total, hl, hn, ht])
        simp only [if_pos hn]
        apply hstart { re with len := 0 } (reset_wf hwf)
        · simp [held, Framing.Unfinished, Framing.settle_nil, Scan.start]
        · rfl
        · rw [view, hdone]
          exact (view_reset re).symm
      · simp only [if_neg hn]
        exact hstart re hwf ((framing _).settle_of_open ht (by rwa [hl])) rfl rfl

end Reassembler

end HciBridge.H4
