import HciBridge.DiscoveryRate
import HciBridge.DiscoveryCodec

namespace HciBridge.DiscoveryTask

open Auth (Bytes Block ascii bdaddrText)
open KeyProtocol.Firmware (announceDatagram announceSig bdaddrString ipString)

def built (d : Device) (r : Round) : Option Bytes :=
  announceDatagram d.hashes r.board d.mac d.port.toNat d.name r.ip

structure Announced (d : Device) (rs : List Round) (p : ℕ) (s : Task) : Prop where
  last : ∃ r ∈ rs, r.before ≤ p ∧ p < r.before + 2000 ∧ s.lastAnnounce = millis r.before ∧ s.announce = built d r ∧
    (∀ b ∈ s.broadcasts, b.1 ≤ r.before) ∧ ∀ a, s.announce = some a → (r.before, a) ∈ s.broadcasts
  apart : s.broadcasts.Pairwise fun a b => a.1 + 2000 ≤ b.1
  sent : ∀ b ∈ s.broadcasts, ∃ r ∈ rs, b.1 = r.before ∧ built d r = some b.2
  answered : ∀ a ∈ s.answers, ∃ b ∈ s.broadcasts, b.2 = a.bytes ∧ b.1 ≤ a.started ∧ a.started < b.1 + 2000

section Rounds

variable {d : Device} {s : Task} {r : Round} {rs : List Round} {p : ℕ}

theorem interval_le {v t : ℕ} (h : v ≤ t) (hlt : t - v < 2 ^ 32) :
    announceIntervalMs ≤ millis t - millis v ↔ v + 2000 ≤ t := by
  rw [UInt32.le_iff_toNat_le, millis_sub h, Nat.mod_eq_of_lt hlt]
  have hinterval : announceIntervalMs.toNat = 2000 := rfl
  omega

theorem announced_of_due (hdue : announceIntervalMs ≤ millis r.before - s.lastAnnounce)
    (hold : ∀ b ∈ s.broadcasts, b.1 + 2000 ≤ r.before) (hapart : s.broadcasts.Pairwise fun a b => a.1 + 2000 ≤ b.1)
    (hsent : ∀ b ∈ s.broadcasts, ∃ r ∈ rs, b.1 = r.before ∧ built d r = some b.2)
    (hanswered : ∀ a ∈ s.answers, ∃ b ∈ s.broadcasts, b.2 = a.bytes ∧ b.1 ≤ a.started ∧ a.started < b.1 + 2000) :
    Announced d (rs ++ [r]) r.before (announceRound d s r) := by
  have hnew : announceRound d s r = { s with
      lastAnnounce := millis r.before
      announce := built d r
      broadcasts := s.broadcasts ++ (built d r).toList.map fun a => (r.before, a) } := if_pos hdue
  rw [hnew]
  have hmem : ∀ b ∈ (built d r).toList.map fun a => (r.before, a), b.1 = r.before ∧ built d r = some b.2 := by
    intro b hb
    obtain ⟨a, ha, rfl⟩ := List.mem_map.mp hb
    exact ⟨rfl, Option.mem_toList.mp ha⟩
  refine ⟨⟨r, by simp, le_refl _, Nat.lt_add_of_pos_right (by decide), rfl, rfl, ?_, ?_⟩, ?_, ?_, ?_⟩
  · intro b hb
    rcases List.mem_append.mp hb with hb | hb
    · exact (Nat.le_add_right _ _).trans (hold b hb)
    · exact (hmem b hb).1.le
  · intro a ha
    have hbuilt : built d r = some a := ha
    simp [hbuilt]
  · rw [List.pairwise_append]
    refine ⟨hapart, ?_, ?_⟩
    · cases built d r <;> simp
    · intro a ha b hb
      rw [(hmem b hb).1]
      exact hold a ha
  · intro b hb
    rcases List.mem_append.mp hb with hb | hb
    · obtain ⟨r', hr', hbuilt⟩ := hsent b hb
      exact ⟨r', List.mem_append_left _ hr', hbuilt⟩
    · exact ⟨r, by simp, hmem b hb⟩
  · intro a ha
    obtain ⟨b, hb, hbytes⟩ := hanswered a ha
    exact ⟨b, List.mem_append_left _ hb, hbytes⟩

theorem Announced.announce (h : Announced d rs p s) (hp : p ≤ r.before) (hlt : r.before < p + 2 ^ 31) :
    Announced d (rs ++ [r]) r.before (announceRound d s r) := by
  obtain ⟨r₀, hr₀, hle, hnear, hlast, hann, hbefore, hmem⟩ := h.last
  have hdue := interval_le (v := r₀.before) (t := r.before) (hle.trans hp) (by omega)
  rw [← hlast] at hdue
  by_cases hwait : r₀.before + 2000 ≤ r.before
  · apply announced_of_due (hdue.mpr hwait) _ h.apart h.sent h.answered
    intro b hb
    have := hbefore b hb
    omega
  · have hsame : announceRound d s r = s := if_neg (hdue.not.mpr hwait)
    rw [hsame]
    refine ⟨⟨r₀, List.mem_append_left _ hr₀, hle.trans hp, not_le.mp hwait, hlast, hann, hbefore, hmem⟩, h.apart, ?_,
      h.answered⟩
    intro b hb
    obtain ⟨r', hr', hbuilt⟩ := h.sent b hb
    exact ⟨r', List.mem_append_left _ hr', hbuilt⟩

theorem announced_first {t : ℕ} (ht : t ≤ r.before) (hlt : r.before < t + 2 ^ 31) :
    Announced d [r] r.before (announceRound d (boot t) r) := by
  have hdue : announceIntervalMs ≤ millis r.before - (boot t).lastAnnounce := by
    have hsub := millis_sub ht
    have hinterval : announceIntervalMs.toNat = 2000 := rfl
    have hb : (millis r.before).toNat < 2 ^ 32 := UInt32.toNat_lt _
    have hv : (millis t).toNat < 2 ^ 32 := UInt32.toNat_lt _
    rw [Nat.mod_eq_of_lt (by omega), UInt32.toNat_sub] at hsub
    simp only [boot, UInt32.le_iff_toNat_le, UInt32.toNat_sub, hinterval]
    omega
  have hfirst : Announced d ([] ++ [r]) r.before (announceRound d (boot t) r) :=
    announced_of_due hdue nofun .nil nofun nofun
  exact hfirst

theorem Announced.answer {announce : Bytes} (h : Announced d rs r.before s) (hann : s.announce = some announce) :
    Announced d rs r.before (answerProbe s r announce) := by
  have hrest : (answerProbe s r announce).lastAnnounce = s.lastAnnounce ∧
      (answerProbe s r announce).announce = s.announce ∧ (answerProbe s r announce).broadcasts = s.broadcasts := by
    unfold answerProbe
    dsimp only
    split <;> split <;> exact ⟨rfl, rfl, rfl⟩
  obtain ⟨hlast, hsame, hbroadcasts⟩ := hrest
  refine ⟨by rw [hlast, hsame, hbroadcasts]; exact h.last, hbroadcasts ▸ h.apart, hbroadcasts ▸ h.sent, ?_⟩
  rw [(answerProbe_spec s r announce).2, hbroadcasts]
  intro a ha
  rcases List.mem_append.mp ha with ha | ha
  · exact h.answered a ha
  · split at ha
    case isTrue =>
      cases List.mem_singleton.mp ha
      obtain ⟨r₀, -, hle, hlt, -, -, -, hmem⟩ := h.last
      exact ⟨(r₀.before, announce), hmem announce hann, rfl, hle, hlt⟩
    case isFalse => cases ha

theorem announced_round (h : Announced d rs r.before (announceRound d s r)) :
    Announced d rs r.before (round d s r) := by
  unfold round
  dsimp only
  split
  case h_1 announce hann =>
    split
    case isTrue => exact h.answer hann
    case isFalse => exact h
  case h_2 => exact h

theorem Announced.run {q : ℕ} {us : List Round} (h : Announced d (rs ++ [r]) r.before s) (hpq : r.before ≤ q)
    (hf : Follows r.before q us) :
    ∃ r', (r :: us).getLast? = some r' ∧ Announced d (rs ++ r :: us) r'.before (run d s us) := by
  induction us generalizing s rs r q with
  | nil => exact ⟨r, rfl, h⟩
  | cons u us ih =>
    obtain ⟨hq, hlt, hu, hrest⟩ := hf
    obtain ⟨r', hlast, hI⟩ := ih (announced_round (h.announce (hpq.trans hq) hlt)) hu hrest
    rw [List.append_assoc, List.singleton_append] at hI
    exact ⟨r', by rw [List.getLast?_cons_cons, hlast], hI⟩

theorem History.announced (d : Device) (h : History) :
    h.rounds = [] ∨ ∃ r, h.rounds.getLast? = some r ∧ Announced d h.rounds r.before (h.task d) := by
  obtain ⟨t, rs, hf⟩ := h
  cases rs with
  | nil => exact .inl rfl
  | cons r rs =>
    obtain ⟨ht, hlt, hr, hrest⟩ := hf
    have hfirst : Announced d ([] ++ [r]) r.before (round d (boot t) r) :=
      announced_round (announced_first ht hlt)
    exact .inr (hfirst.run hr hrest)

end Rounds

end HciBridge.DiscoveryTask
