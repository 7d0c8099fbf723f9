import HciBridge.H4Calls

namespace HciBridge.H4

namespace Reassembler

def entered (re : Reassembler) : Except Error Reassembler :=
  match re.totalLen with
  | .error e => .error e
  | .ok none => .ok re
  | .ok (some total) => .ok (if re.len = total then { re with len := 0 } else re)

def wanted (w consumed : ℕ) (input : List UInt8) : ℕ := min w (input.length - consumed)

inductive Round (input : List UInt8) : Reassembler × ℕ → Reassembler × ℕ → Prop
  | mk {re re' : Reassembler} {consumed w : ℕ} (hmore : consumed < input.length) (hwant : re.want = .ok (some w))
      (hcopy : re.copyIn ((input.drop consumed).take (wanted w consumed input)) = some re')
      (hok : ∀ e, re'.totalLen ≠ .error e) (hopen : ∀ total, re'.totalLen = .ok (some total) → re'.len ≠ total) :
      Round input (re, consumed) (re', consumed + wanted w consumed input)

def InLoop (re : Reassembler) (input : List UInt8) (p : Reassembler × ℕ) : Prop :=
  ∃ start, re.entered = .ok start ∧ Relation.ReflTransGen (Round input) (start, 0) p

structure RoundBounds (re : Reassembler) (consumed : ℕ) (input : List UInt8) : Prop where
  within : re.len ≤ re.buf.length
  taken : consumed ≤ input.length
  copy : consumed < input.length → ∃ w, re.want = .ok (some w) ∧ 1 ≤ w ∧
    re.len + wanted w consumed input ≤ re.buf.length ∧ consumed + wanted w consumed input ≤ input.length ∧
    (re.copyIn ((input.drop consumed).take (wanted w consumed input))).isSome = true

variable {re re' : Reassembler} {input : List UInt8} {consumed consumed' fuel : ℕ}

theorem feed_eq (re : Reassembler) (input : List UInt8) :
    re.feed input = match re.entered with
      | .error e => some (re, .error e)
      | .ok start => feedLoop (input.length + 1) start input 0 := by
  unfold feed entered
  cases re.totalLen with
  | error e => rfl
  | ok o => cases o <;> rfl

theorem feedLoop_round (h : Round input (re, consumed) (re', consumed')) :
    feedLoop (fuel + 1) re input consumed = feedLoop fuel re' input consumed' := by
  cases h with
  | mk hmore hwant hcopy hok hopen =>
    rw [wanted] at hcopy
    rw [feedLoop, if_pos hmore, hwant]
    simp only [hcopy]
    split
    case h_1 e ht => exact absurd ht (hok e)
    case h_2 ht => rfl
    case h_3 n ht => rw [if_neg (hopen n ht), wanted]

structure Going (input : List UInt8) (p : Reassembler × ℕ) : Prop where
  wf : p.1.Wf
  taken : p.2 ≤ input.length
  unfinished : (framing p.1.buf.length).Unfinished p.1.held

theorem going_entered {start : Reassembler} (hwf : re.Wf) (h : re.entered = .ok start) : Going input (start, 0) := by
  unfold entered at h
  rw [totalLen_eq hwf.within] at h
  cases ht : total re.buf.length re.held with
  | error e =>
    rw [ht] at h
    cases h
  | ok o =>
    rw [ht] at h
    cases o with
    | none =>
      cases h
      exact ⟨hwf, Nat.zero_le _, (framing _).settle_of_none ht⟩
    | some n =>
      simp only [Except.ok.injEq] at h
      subst h
      split
      case isTrue hn =>
        refine ⟨reset_wf hwf, Nat.zero_le _, ?_⟩
        simp [held, Framing.Unfinished, Framing.settle_nil, Scan.start]
      case isFalse hn =>
        exact ⟨hwf, Nat.zero_le _, (framing _).settle_of_open ht (by rwa [held_length hwf.within])⟩

theorem Going.round {p q : Reassembler × ℕ} (h : Going input p) (hround : Round input p q) : Going input q := by
  cases hround with
  | @mk re re' consumed w hmore hwant hcopy hok hopen =>
    obtain ⟨w', re'', hwant', -, -, hcopy', hwf, hbuf, -⟩ := round_spec h.wf h.unfinished hmore
    rw [hwant] at hwant'
    cases hwant'
    rw [wanted] at hcopy
    rw [hcopy] at hcopy'
    cases hcopy'
    refine ⟨hwf, by simp only [wanted]; omega, ?_⟩
    rw [totalLen_eq hwf.within] at hok hopen
    cases ht : total re'.buf.length re'.held with
    | error e => exact absurd ht (hok e)
    | ok o =>
      cases o with
      | none => exact (framing _).settle_of_none ht
      | some n => exact (framing _).settle_of_open ht (by rw [held_length hwf.within]; exact hopen n ht)

theorem going_of_inLoop {p : Reassembler × ℕ} (hwf : re.Wf) (h : InLoop re input p) : Going input p := by
  obtain ⟨start, hstart, hrounds⟩ := h
  induction hrounds with
  | refl => exact going_entered hwf hstart
  | tail _ hround ih => exact ih.round hround

theorem Going.bounds {p : Reassembler × ℕ} (h : Going input p) : RoundBounds p.1 p.2 input := by
  refine ⟨h.wf.within, h.taken, fun hmore => ?_⟩
  obtain ⟨w, re', hwant, hw, hfits, hcopy, -⟩ := round_spec h.wf h.unfinished hmore
  refine ⟨w, hwant, hw, hfits, ?_, ?_⟩
  · simp only [wanted]
    omega
  · rw [wanted, hcopy]
    rfl

theorem lt_of_round {p q : Reassembler × ℕ} (h : Going input p) (hround : Round input p q) :
    p.2 < q.2 ∧ q.2 ≤ input.length := by
  refine ⟨?_, (h.round hround).taken⟩
  cases hround with
  | mk hmore hwant =>
    obtain ⟨w', hwant', hw, -⟩ := h.bounds.copy hmore
    rw [hwant] at hwant'
    cases hwant'
    simp only [wanted]
    omega

theorem feed_of_inLoop {p : Reassembler × ℕ} (hwf : re.Wf) (h : InLoop re input p) :
    ∃ fuel, input.length - p.2 < fuel ∧ re.feed input = feedLoop fuel p.1 input p.2 := by
  obtain ⟨start, hstart, hrounds⟩ := h
  induction hrounds with
  | refl =>
    refine ⟨input.length + 1, by simp, ?_⟩
    rw [feed_eq, hstart]
  | @tail p q hrounds hround ih =>
    obtain ⟨fuel, hfuel, hfeed⟩ := ih
    obtain ⟨hlt, hle⟩ := lt_of_round (going_of_inLoop hwf ⟨start, hstart, hrounds⟩) hround
    obtain ⟨k, rfl⟩ := Nat.exists_eq_succ_of_ne_zero (Nat.ne_of_gt (Nat.zero_lt_of_lt hfuel))
    refine ⟨k, by omega, ?_⟩
    rw [hfeed]
    exact feedLoop_round hround

theorem consumed_pos {res : FeedResult} (hwf : re.Wf) (hne : input ≠ [])
    (h : re.feed input = some (re', .ok res)) : 1 ≤ res.consumed ∧ res.consumed ≤ input.length := by
  obtain ⟨re'', r, hfeed, -, -, hfed⟩ := feed_spec hwf input
  rw [h] at hfeed
  cases hfeed
  cases hfed with
  | exhausted => exact ⟨List.length_pos_of_ne_nil hne, le_refl _⟩
  | packet c p hc hle => exact ⟨hc, hle⟩

section

variable {σ ε : Type} (handler : σ → List UInt8 → Except ε σ)

theorem feedAllLoop_ends (fuel : ℕ) (re : Reassembler) (ctx : σ) (rest : List UInt8) (hwf : re.Wf)
    (hf : rest.length < fuel) : (feedAllLoop handler fuel re ctx rest).isSome = true := by
  induction fuel generalizing re ctx rest with
  | zero => omega
  | succ fuel ih =>
    rw [feedAllLoop]
    split
    case isFalse => rfl
    case isTrue hmore =>
      obtain ⟨re', r, hfeed, hwf', -, -⟩ := feed_spec hwf rest
      rw [hfeed]
      cases r with
      | error e => rfl
      | ok res =>
        obtain ⟨hpos, hle⟩ := consumed_pos hwf (List.ne_nil_of_length_pos hmore) hfeed
        have hrest : (rest.drop res.consumed).length < fuel := by
          rw [List.length_drop]
          omega
        simp only
        cases res.packet with
        | none => exact ih re' ctx _ hwf' hrest
        | some p =>
          simp only
          cases handler ctx p with
          | error e => rfl
          | ok ctx => exact ih re' ctx _ hwf' hrest

end

theorem bounds_and_progress {re : Reassembler} (h : Reachable re) :
    re.len ≤ re.buf.length ∧
    (∀ input p, InLoop re input p → RoundBounds p.1 p.2 input ∧
      (∃ fuel, re.feed input = feedLoop fuel p.1 input p.2) ∧ ∀ q, Round input p q → p.2 < q.2 ∧ q.2 ≤ input.length) ∧
    (∀ input, ∃ re' r, re.feed input = some (re', r) ∧
      ∀ res, r = .ok res → input ≠ [] → 1 ≤ res.consumed ∧ res.consumed ≤ input.length) ∧
    ∀ (σ ε : Type) (handler : σ → List UInt8 → Except ε σ) (ctx : σ) (input : List UInt8),
      (feedAll handler re ctx input).isSome = true := by
  refine ⟨h.wf.within, ?_, ?_, ?_⟩
  · intro input p hp
    have hgoing := going_of_inLoop h.wf hp
    obtain ⟨fuel, -, hfeed⟩ := feed_of_inLoop h.wf hp
    exact ⟨hgoing.bounds, ⟨fuel, hfeed⟩, fun q => lt_of_round hgoing⟩
  · intro input
    obtain ⟨re', r, hfeed, -⟩ := feed_spec h.wf input
    refine ⟨re', r, hfeed, ?_⟩
    rintro res rfl hne
    exact consumed_pos h.wf hne hfeed
  · intro σ ε handler ctx input
    exact feedAllLoop_ends handler _ re ctx input h.wf (Nat.lt_succ_self _)

theorem bounds_at_exact_fit :
    (⟨[2, 0, 0, 0, 0], 5⟩ : Reassembler).len ≤ 5 ∧
      (feedAll collect ⟨[2, 0, 0, 0, 0], 5⟩ [] [2, 0, 0, 0]).isSome = true := by
  have hinit : Reachable (init [0, 0, 0, 0, 0]) := .start ⟨_, by decide, rfl⟩
  have hreach : Reachable ⟨[2, 0, 0, 0, 0], 5⟩ := hinit.next rfl (show call _ (.feed [2, 0, 0, 0, 0]) = _ by decide)
  have h := bounds_and_progress hreach
  exact ⟨h.1, h.2.2.2 _ _ collect [] [2, 0, 0, 0]⟩

end Reassembler

end HciBridge.H4
