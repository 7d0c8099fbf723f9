import HciBridge.H4Feed
import HciBridge.Runs

namespace HciBridge.H4

namespace Reassembler

inductive Call
  | feed (input : List UInt8)
  | reset
deriving DecidableEq, Repr

def call (re : Reassembler) : Call → Option Reassembler
  | .feed input => (re.feed input).map Prod.fst
  | .reset => some re.reset

def IsInit (re : Reassembler) : Prop := ∃ storage : List UInt8, 5 ≤ storage.length ∧ re = init storage

abbrev Reachable : Reassembler → Prop := Runs.Reachable call IsInit

def feeds (re : Reassembler) : List (List UInt8) → Option (Reassembler × List (Except Error FeedResult))
  | [] => some (re, [])
  | input :: inputs =>
    match re.feed input with
    | none => none
    | some (re, r) => (feeds re inputs).map fun out => (out.1, r :: out.2)

theorem Reachable.wf {re : Reassembler} (h : Reachable re) : re.Wf := by
  apply Runs.ReachableWhile.invariant Wf _ _ h
  · rintro _ ⟨storage, hs, rfl⟩
    exact init_wf storage hs
  · intro re c re' _ hwf _ hcall
    cases c with
    | feed input =>
      obtain ⟨re'', r, hfeed, hwf', -⟩ := feed_spec hwf input
      rw [call, hfeed] at hcall
      cases hcall
      exact hwf'
    | reset =>
      cases hcall
      exact reset_wf hwf

section Errors

variable {re re' : Reassembler} {input : List UInt8} {e : Error}

theorem total_of_view_error (h : re.view.error = some e) : total re.buf.length re.held = .error e := by
  simp only [view, Framing.settle, framing_total] at h
  split at h
  case h_1 e' ht =>
    cases h
    exact ht
  case h_2 => cases h
  case h_3 => split at h <;> cases h

theorem total_of_feed_error (hwf : re.Wf) (h : re.feed input = some (re', .error e)) :
    re'.Wf ∧ total re'.buf.length re'.held = .error e := by
  obtain ⟨re'', r, hfeed, hwf', -, hfed⟩ := feed_spec hwf input
  rw [h] at hfeed
  cases hfeed
  cases hfed with
  | failed c e hle hv he => exact ⟨hwf', total_of_view_error he⟩

theorem feed_of_total_error (hwf : re.Wf) (h : total re.buf.length re.held = .error e) (input : List UInt8) :
    re.feed input = some (re, .error e) := by
  rw [feed, totalLen_eq hwf.within, h]

theorem feeds_after_error (hwf : re.Wf) (h : re.feed input = some (re', .error e)) (inputs : List (List UInt8)) :
    feeds re' inputs = some (re', inputs.map fun _ => .error e) := by
  obtain ⟨hwf', ht⟩ := total_of_feed_error hwf h
  induction inputs with
  | nil => rfl
  | cons i is ih =>
    rw [feeds, feed_of_total_error hwf' ht i]
    simp only [ih]
    rfl

end Errors

section Alike

structure Alike (a b : Reassembler) : Prop where
  size : a.buf.length = b.buf.length
  len : a.len = b.len
  within : a.len ≤ a.buf.length
  held : a.held = b.held

variable {a b a' : Reassembler}

theorem Alike.totalLen_eq (h : Alike a b) : a.totalLen = b.totalLen := by
  have hb : b.len ≤ b.buf.length := h.len ▸ h.size ▸ h.within
  rw [Reassembler.totalLen_eq h.within, Reassembler.totalLen_eq hb, h.size, h.held]

theorem first_of_held {re : Reassembler} (hlen : re.len ≠ 0) : re.buf.getD 0 0 = re.held.getD 0 0 := by
  obtain ⟨buf, len⟩ := re
  obtain ⟨n, rfl⟩ := Nat.exists_eq_succ_of_ne_zero hlen
  cases buf <;> rfl

theorem Alike.want_eq (h : Alike a b) : a.want = b.want := by
  unfold want
  rw [← h.totalLen_eq, ← h.len]
  split
  case h_1 => rfl
  case h_2 => rfl
  case h_3 =>
    by_cases hlen : a.len = 0
    · rw [if_pos hlen, if_pos hlen]
    · have hlen' : b.len ≠ 0 := h.len ▸ hlen
      rw [if_neg hlen, if_neg hlen, first_of_held hlen, first_of_held hlen', h.held]

theorem Alike.copyIn (h : Alike a b) {src : List UInt8} (hcopy : a.copyIn src = some a') :
    ∃ b', b.copyIn src = some b' ∧ Alike a' b' := by
  have hfits : a.len + src.length ≤ a.buf.length := by
    by_contra hlt
    rw [Reassembler.copyIn, if_neg hlt] at hcopy
    cases hcopy
  obtain ⟨a'', hcopya, hsizea, hlena, hhelda⟩ := copyIn_spec h.within hfits
  rw [hcopy] at hcopya
  cases hcopya
  have hb : b.len ≤ b.buf.length := h.len ▸ h.size ▸ h.within
  have hfitsb : b.len + src.length ≤ b.buf.length := by
    rw [← h.len, ← h.size]
    exact hfits
  obtain ⟨b', hcopyb, hsizeb, hlenb, hheldb⟩ := copyIn_spec hb hfitsb
  refine ⟨b', hcopyb, ?_, ?_, ?_, ?_⟩
  · rw [hsizea, hsizeb, h.size]
  · rw [hlena, hlenb, h.len]
  · omega
  · rw [hhelda, hheldb, h.held]

theorem Alike.feedLoop {r : Except Error FeedResult} {fuel consumed : ℕ} {input : List UInt8} (h : Alike a b)
    (hrun : feedLoop fuel a input consumed = some (a', r)) :
    ∃ b', Reassembler.feedLoop fuel b input consumed = some (b', r) ∧ Alike a' b' := by
  induction fuel generalizing a b consumed with
  | zero => cases hrun
  | succ fuel ih =>
    rw [Reassembler.feedLoop] at hrun ⊢
    split at hrun
    case isFalse hend =>
      cases hrun
      exact ⟨b, if_neg hend, h⟩
    case isTrue hmore =>
      rw [if_pos hmore, ← h.want_eq]
      cases hwant : a.want with
      | error e =>
        rw [hwant] at hrun
        cases hrun
        exact ⟨b, rfl, h⟩
      | ok o =>
        cases o with
        | none =>
          rw [hwant] at hrun
          cases hrun
        | some w =>
          simp only [hwant] at hrun ⊢
          cases hcopy : a.copyIn ((input.drop consumed).take (min w (input.length - consumed))) with
          | none =>
            rw [hcopy] at hrun
            cases hrun
          | some a'' =>
            obtain ⟨b'', hcopy', halike⟩ := h.copyIn hcopy
            simp only [hcopy] at hrun
            simp only [hcopy', ← halike.totalLen_eq, ← halike.len]
            split at hrun
            case h_1 e ht =>
              cases hrun
              exact ⟨b'', rfl, halike⟩
            case h_2 ht => exact ih halike hrun
            case h_3 n ht =>
              split at hrun
              case isTrue hn =>
                cases hrun
                have hheld : a'.buf.take n = b''.buf.take n := by
                  calc
                    a'.buf.take n = a'.held := by rw [Reassembler.held, hn]
                    _ = b''.held := halike.held
                    _ = b''.buf.take n := by rw [Reassembler.held, ← halike.len, hn]
                exact ⟨b'', by rw [if_pos hn, hheld], halike⟩
              case isFalse hn =>
                rw [if_neg hn]
                exact ih halike hrun

theorem Alike.reset (h : a.buf.length = b.buf.length) : Alike a.reset b.reset := ⟨h, rfl, Nat.zero_le _, rfl⟩

theorem Alike.feed {r : Except Error FeedResult} {input : List UInt8} (h : Alike a b)
    (hrun : a.feed input = some (a', r)) : ∃ b', b.feed input = some (b', r) ∧ Alike a' b' := by
  rw [Reassembler.feed] at hrun ⊢
  rw [← h.totalLen_eq, ← h.len]
  split at hrun
  case h_1 e ht =>
    cases hrun
    exact ⟨b, rfl, h⟩
  case h_2 ht => exact h.feedLoop hrun
  case h_3 n ht =>
    split at hrun
    case isTrue hn =>
      rw [if_pos hn]
      exact (Alike.reset h.size).feedLoop hrun
    case isFalse hn =>
      rw [if_neg hn]
      exact h.feedLoop hrun

theorem feeds_alike (hwf : a.Wf) (h : Alike a b) (inputs : List (List UInt8)) :
    ∃ a' b' rs, feeds a inputs = some (a', rs) ∧ feeds b inputs = some (b', rs) := by
  induction inputs generalizing a b with
  | nil => exact ⟨a, b, [], rfl, rfl⟩
  | cons i is ih =>
    obtain ⟨a', r, hfeed, hwf', -, -⟩ := feed_spec hwf i
    obtain ⟨b', hfeed', h'⟩ := h.feed hfeed
    obtain ⟨a'', b'', rs, ha, hb⟩ := ih hwf' h'
    refine ⟨a'', b'', r :: rs, ?_, ?_⟩
    · simp only [feeds, hfeed, ha]
      rfl
    · simp only [feeds, hfeed', hb]
      rfl

end Alike

theorem errors_sticky_reset_complete {re : Reassembler} (h : Reachable re) :
    (∀ input re' e, re.feed input = some (re', .error e) →
      ∀ inputs, feeds re' inputs = some (re', inputs.map fun _ => .error e)) ∧
    ∀ storage : List UInt8, storage.length = re.buf.length → ∀ inputs, ∃ re' fresh' results,
      feeds re.reset inputs = some (re', results) ∧ feeds (init storage) inputs = some (fresh', results) := by
  constructor
  · intro input re' e hfeed inputs
    exact feeds_after_error h.wf hfeed inputs
  · intro storage hsize inputs
    exact feeds_alike (reset_wf h.wf) (Alike.reset hsize.symm : Alike re.reset (init storage).reset) inputs

theorem errors_sticky_unknown_type :
    feeds ⟨[9, 0, 0, 0, 0], 1⟩ [[], [1, 3, 12, 0]] =
        some (⟨[9, 0, 0, 0, 0], 1⟩, [.error .UnknownPacketType, .error .UnknownPacketType]) ∧
      ∃ re' fresh' results, feeds ⟨[9, 0, 0, 0, 0], 0⟩ [[1, 3, 12, 0]] = some (re', results) ∧
        feeds (init [7, 7, 7, 7, 7]) [[1, 3, 12, 0]] = some (fresh', results) := by
  have hinit : Reachable (init [0, 0, 0, 0, 0]) := .start ⟨_, by decide, rfl⟩
  have hreach : Reachable ⟨[9, 0, 0, 0, 0], 1⟩ := hinit.next rfl (show call _ (.feed [9]) = _ by decide)
  have h := errors_sticky_reset_complete hreach
  exact ⟨h.1 [] _ _ (by decide) [[], [1, 3, 12, 0]], h.2 [7, 7, 7, 7, 7] rfl [[1, 3, 12, 0]]⟩

end Reassembler

end HciBridge.H4
