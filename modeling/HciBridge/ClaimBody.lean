import HciBridge.Claim

/-!
The body of `/claim`, as `sscanf` reads it two characters at a time.
-/

namespace HciBridge.Claim

open Text (hexToBytes charToDigit)
open Auth (Bytes Block Psk ascii)
open KeyProtocol.Firmware (nibble unhex)

def HexDigit (c : UInt8) : Prop := 48 ≤ c ∧ c ≤ 57 ∨ 65 ≤ c ∧ c ≤ 70 ∨ 97 ≤ c ∧ c ≤ 102

instance (c : UInt8) : Decidable (HexDigit c) := inferInstanceAs (Decidable (_ ∨ _))

def HexBody (body : Bytes) : Prop := 64 ≤ body.length ∧ ∀ c ∈ body.take 64, HexDigit c

inductive Converts : Bytes → Prop
  | digit {blanks rest : Bytes} {c : UInt8} (hb : ∀ b ∈ blanks, isSpace b = true) (hc : HexDigit c)
      (hx : c = 48 → ∀ d ∈ rest.head?, d ≠ 120 ∧ d ≠ 88) : Converts (blanks ++ c :: rest)
  | signed {blanks rest : Bytes} {sign d : UInt8} (hb : ∀ b ∈ blanks, isSpace b = true)
      (hsign : sign = 43 ∨ sign = 45) (hd : HexDigit d) : Converts (blanks ++ sign :: d :: rest)

structure AcceptsExactlyHex (body : Bytes) : Prop where
  taken : ∀ (s : State) (i : ℕ), s.ram.claimed = false →
    ((∃ peer, claimPost s i body = { s with pc := .agreeing i peer }) ↔ HexBody body)
  agrees : ∀ (s : State) (i : ℕ) (peer : Block 32), s.ram.claimed = false →
    claimPost s i body = { s with pc := .agreeing i peer } →
      unhex body 32 = some peer.bytes ∧ hexToBytes (body.take 64) = some peer.bytes
  refused : ∀ (s : State) (i : ℕ), s.ram.claimed = false → ¬HexBody body →
    ∃ text, claimPost s i body = s.reply i 400 text

section Characters

variable {c d : UInt8} {s t : Bytes}

theorem nibble_eq_charToDigit : ∀ c, nibble c = charToDigit 16 c := Text.forall_byte (by decide +kernel)

theorem nibble_isSome_iff : ∀ c, (nibble c).isSome = true ↔ HexDigit c := Text.forall_byte (by decide +kernel)

theorem hexDigit_plain : ∀ c, HexDigit c → c ≠ 0 ∧ isSpace c = false ∧ c ≠ 43 ∧ c ≠ 45 ∧ c ≠ 120 ∧ c ≠ 88 :=
  Text.forall_byte (by decide +kernel)

theorem isSpace_ne_nul (h : isSpace c = true) : c ≠ 0 := by
  rintro rfl
  cases h

theorem scanHex_blanks {blanks : Bytes} (h : ∀ b ∈ blanks, isSpace b = true) (s : Bytes) :
    scanHex (blanks ++ s) = scanHex s := by
  have htake : (blanks ++ s).takeWhile (fun c => c ≠ 0) = blanks ++ s.takeWhile fun c => c ≠ 0 := by
    rw [List.takeWhile_append_of_pos]
    intro b hb
    exact decide_eq_true (isSpace_ne_nul (h b hb))
  rw [scanHex, scanHex, htake, List.dropWhile_append_of_pos h]

example : scanHex (ascii " \t7f") = some 127 ∧ scanHex (ascii "-1") = some 255 ∧ scanHex (ascii "0x") = none := by
  decide

theorem takeWhile_text (hnul : c ≠ 0) (t : Bytes) :
    ((c :: t).takeWhile fun c => c ≠ 0) = c :: t.takeWhile fun c => c ≠ 0 := by
  simp [hnul]

theorem scanHex_cons (hc : isSpace c = false) (hnul : c ≠ 0) (t : Bytes) :
    scanHex (c :: t) = match t.takeWhile fun c => c ≠ 0 with
      | [] => (nibble c).map Nat.toUInt8
      | d :: _ =>
        if c = 43 then (nibble d).map Nat.toUInt8
        else if c = 45 then (nibble d).map fun n => 0 - n.toUInt8
        else if c = 48 ∧ (d = 120 ∨ d = 88) then none
        else (nibble c).map fun h => ((nibble d).map fun l => h * 16 + l).getD h |>.toUInt8 := by
  rw [scanHex, takeWhile_text hnul, List.dropWhile_cons_of_neg (by simp [hc])]
  cases t.takeWhile fun c => c ≠ 0 <;> rfl

theorem scanHex_digits {hi lo : UInt8} {h l : ℕ} (hhi : nibble hi = some h) (hlo : nibble lo = some l) (rest : Bytes) :
    scanHex (hi :: lo :: rest) = some (h * 16 + l).toUInt8 := by
  obtain ⟨hnul, hspace, hplus, hminus, -, -⟩ := hexDigit_plain hi ((nibble_isSome_iff hi).mp (by rw [hhi]; rfl))
  obtain ⟨hnul', -, -, -, hx, hX⟩ := hexDigit_plain lo ((nibble_isSome_iff lo).mp (by rw [hlo]; rfl))
  rw [scanHex_cons hspace hnul, takeWhile_text hnul']
  simp [hplus, hminus, hx, hX, hhi, hlo]

theorem scanHex_nul (t : Bytes) : scanHex (0 :: t) = none := rfl

theorem scanHex_isSome_cons (hc : isSpace c = false) (t : Bytes) :
    (scanHex (c :: t)).isSome = true ↔ HexDigit c ∧ (c = 48 → ∀ d ∈ t.head?, d ≠ 120 ∧ d ≠ 88) ∨
      (c = 43 ∨ c = 45) ∧ ∃ d ∈ t.head?, HexDigit d := by
  have hzero : ¬HexDigit 0 := by decide
  by_cases hnul : c = 0
  · subst hnul
    simp [scanHex_nul, hzero]
  rw [scanHex_cons hc hnul]
  cases t with
  | nil => simp [nibble_isSome_iff]
  | cons d t =>
    by_cases hd : d = 0
    · subst hd
      simp [nibble_isSome_iff, hzero]
    rw [takeWhile_text hd]
    simp only [List.head?_cons, Option.mem_some_iff, forall_eq', exists_eq_left']
    by_cases hplus : c = 43
    · subst hplus
      have h43 : ¬HexDigit 43 := by decide
      simp [nibble_isSome_iff, h43]
    by_cases hminus : c = 45
    · subst hminus
      have h45 : ¬HexDigit 45 := by decide
      simp [nibble_isSome_iff, h45]
    rw [if_neg hplus, if_neg hminus]
    by_cases hx : c = 48 ∧ (d = 120 ∨ d = 88)
    · rw [if_pos hx]
      obtain ⟨rfl, hx⟩ := hx
      simp only [Option.isSome_none, Bool.false_eq_true, false_iff]
      rintro (⟨-, h⟩ | ⟨h, -⟩)
      · exact hx.elim (h trivial).1 (h trivial).2
      · exact h.elim hplus hminus
    · rw [if_neg hx, Option.isSome_map, nibble_isSome_iff]
      simp only [hplus, hminus, or_self, false_and, or_false, iff_self_and]
      intro _ h48
      exact not_or.mp fun h => hx ⟨h48, h⟩

theorem exists_blanks (s : Bytes) :
    ∃ blanks t, s = blanks ++ t ∧ (∀ b ∈ blanks, isSpace b = true) ∧ ∀ c ∈ t.head?, isSpace c = false := by
  refine ⟨s.takeWhile isSpace, s.dropWhile isSpace, (List.takeWhile_append_dropWhile).symm, ?_, ?_⟩
  · intro b hb
    exact List.mem_takeWhile_imp hb
  · intro c hc
    have := List.head?_dropWhile_not isSpace s
    rw [Option.mem_def.mp hc] at this
    simpa using this

theorem scanHex_isSome_iff (s : Bytes) : (scanHex s).isSome = true ↔ Converts s := by
  constructor
  · intro h
    obtain ⟨blanks, t, rfl, hblanks, hhead⟩ := exists_blanks s
    rw [scanHex_blanks hblanks] at h
    cases t with
    | nil => cases h
    | cons c t =>
      rcases (scanHex_isSome_cons (hhead c rfl) t).mp h with ⟨hc, hx⟩ | ⟨hsign, d, hd, hdigit⟩
      · exact .digit hblanks hc hx
      · cases t with
        | nil => cases hd
        | cons d' t =>
          cases hd
          exact .signed hblanks hsign hdigit
  · intro h
    cases h with
    | digit hb hc hx =>
      rw [scanHex_blanks hb, scanHex_isSome_cons (hexDigit_plain _ hc).2.1]
      exact .inl ⟨hc, hx⟩
    | @signed blanks rest sign d hb hsign hd =>
      have hspace : isSpace sign = false := by rcases hsign with rfl | rfl <;> decide
      rw [scanHex_blanks hb, scanHex_isSome_cons hspace]
      exact .inr ⟨hsign, d, rfl, hd⟩

end Characters

section Pairs

variable {body s : Bytes} {n : ℕ}

theorem scanPairs_length {bs : Bytes} (h : scanPairs n s = some bs) : bs.length = n := by
  induction n generalizing s bs with
  | zero =>
    cases h
    rfl
  | succ n ih =>
    rw [scanPairs] at h
    obtain ⟨v, -, h⟩ := Option.bind_eq_some_iff.mp h
    obtain ⟨vs, hvs, rfl⟩ := Option.map_eq_some_iff.mp h
    rw [List.length_cons, ih hvs]

theorem scanPairs_isSome_iff (n : ℕ) (s : Bytes) :
    (scanPairs n s).isSome = true ↔ ∀ i < n, Converts (s.drop (2 * i)) := by
  induction n generalizing s with
  | zero => simp [scanPairs]
  | succ n ih =>
    have hstep : (scanPairs (n + 1) s).isSome = ((scanHex s).isSome && (scanPairs n (s.drop 2)).isSome) := by
      rw [scanPairs]
      cases scanHex s <;> simp
    rw [hstep, Bool.and_eq_true, scanHex_isSome_iff, ih]
    constructor
    · rintro ⟨hfirst, hrest⟩ i hi
      cases i with
      | zero => exact hfirst
      | succ i =>
        have := hrest i (Nat.lt_of_succ_lt_succ hi)
        rwa [List.drop_drop, Nat.add_comm, ← Nat.mul_succ] at this
    · intro h
      refine ⟨h 0 (Nat.succ_pos n), fun i hi => ?_⟩
      rw [List.drop_drop, Nat.add_comm, ← Nat.mul_succ]
      exact h (i + 1) (Nat.succ_lt_succ hi)

theorem decoders_agree (n : ℕ) (s : Bytes) (hlen : s.length = 2 * n) (h : ∀ c ∈ s, HexDigit c) (more : Bytes) :
    ∃ bs, scanPairs n s = some bs ∧ unhex (s ++ more) n = some bs ∧ hexToBytes s = some bs := by
  induction n generalizing s with
  | zero =>
    rw [List.length_eq_zero_iff.mp hlen]
    exact ⟨[], rfl, by simp [unhex], rfl⟩
  | succ n ih =>
    match s, hlen with
    | hi :: lo :: rest, hlen =>
      simp only [List.forall_mem_cons] at h
      obtain ⟨hhi, hlo, hrest⟩ := h
      obtain ⟨bs, hscan, hunhex, hzig⟩ := ih rest (by simpa [Nat.mul_succ] using hlen) hrest
      obtain ⟨x, hx⟩ := Option.isSome_iff_exists.mp ((nibble_isSome_iff hi).mpr hhi)
      obtain ⟨y, hy⟩ := Option.isSome_iff_exists.mp ((nibble_isSome_iff lo).mpr hlo)
      refine ⟨(x * 16 + y).toUInt8 :: bs, ?_, ?_, ?_⟩
      · rw [scanPairs, scanHex_digits hx hy, Option.bind_some]
        simp [hscan]
      · simp only [List.cons_append, unhex, hx, hy, hunhex]
        rfl
      · rw [nibble_eq_charToDigit] at hx hy
        simp [hexToBytes, hx, hy, hzig]

theorem scanPeer_isSome_iff (body : Bytes) :
    (scanPeer body).isSome = true ↔ ∀ i < 32, Converts ((body.take 64).drop (2 * i)) := by
  rw [← scanPairs_isSome_iff, scanPeer]
  cases h : scanPairs 32 (body.take 64) with
  | none => rfl
  | some bs => simp [scanPairs_length h]

theorem scanPeer_of_hex (h : HexBody body) :
    ∃ peer, scanPeer body = some peer ∧ unhex body 32 = some peer.bytes ∧
      hexToBytes (body.take 64) = some peer.bytes := by
  have hlen : (body.take 64).length = 2 * 32 := by rw [List.length_take, min_eq_left h.1]
  obtain ⟨bs, hscan, hunhex, hzig⟩ := decoders_agree 32 (body.take 64) hlen h.2 (body.drop 64)
  rw [List.take_append_drop] at hunhex
  refine ⟨⟨bs, scanPairs_length hscan⟩, ?_, hunhex, hzig⟩
  rw [scanPeer, hscan, Option.bind_some, dif_pos (scanPairs_length hscan)]

end Pairs

section Claims

variable {body : Bytes} {s : State} {i : ℕ}

theorem claimPost_taken (hs : s.ram.claimed = false) (peer : Block 32) :
    claimPost s i body = { s with pc := .agreeing i peer } ↔ 64 ≤ body.length ∧ scanPeer body = some peer := by
  rw [claimPost, if_neg (by simp [hs])]
  have hpc (text : Bytes) : s.reply i 400 text ≠ { s with pc := .agreeing i peer } := by
    intro h
    cases congrArg State.pc h
  split
  case isTrue hlen =>
    constructor
    · intro h
      exact absurd h (hpc _)
    · rintro ⟨hle, -⟩
      omega
  case isFalse hlen =>
    split
    case h_1 hnone =>
      constructor
      · intro h
        exact absurd h (hpc _)
      · rintro ⟨-, hsome⟩
        rw [hnone] at hsome
        cases hsome
    case h_2 p hsome =>
      constructor
      · intro h
        cases congrArg State.pc h
        exact ⟨Nat.le_of_not_lt hlen, hsome⟩
      · rintro ⟨-, h⟩
        rw [hsome] at h
        cases h
        rfl

theorem claimPost_refused (hs : s.ram.claimed = false) (h : body.length < 64 ∨ scanPeer body = none) :
    ∃ text, claimPost s i body = s.reply i 400 text := by
  rw [claimPost, if_neg (by simp [hs])]
  split
  case isTrue => exact ⟨_, rfl⟩
  case isFalse hlen =>
    rw [h.resolve_left hlen]
    exact ⟨_, rfl⟩

end Claims

theorem accepts_exactly_hex_iff (body : Bytes) :
    AcceptsExactlyHex body ↔
      body.length < 64 ∨ HexBody body ∨ ∃ i < 32, ¬Converts ((body.take 64).drop (2 * i)) := by
  have hnone : (∃ i < 32, ¬Converts ((body.take 64).drop (2 * i))) ↔ scanPeer body = none := by
    rw [← Option.not_isSome_iff_eq_none, scanPeer_isSome_iff]
    simp
  rw [hnone]
  constructor
  · intro h
    by_contra hnot
    simp only [not_or] at hnot
    obtain ⟨hlen, hhex, hsome⟩ := hnot
    obtain ⟨peer, hpeer⟩ := Option.ne_none_iff_exists'.mp hsome
    have htaken := (claimPost_taken (s := start none (.fill 16 0)) (i := 0) rfl peer).mpr ⟨Nat.le_of_not_lt hlen, hpeer⟩
    exact hhex ((h.taken _ 0 rfl).mp ⟨peer, htaken⟩)
  · intro h
    have hrefused (hhex : ¬HexBody body) : body.length < 64 ∨ scanPeer body = none := by tauto
    refine ⟨fun s i hs => ⟨?_, ?_⟩, ?_, fun s i hs hhex => claimPost_refused hs (hrefused hhex)⟩
    · rintro ⟨peer, hpost⟩
      by_contra hhex
      obtain ⟨hlen, hpeer⟩ := (claimPost_taken hs peer).mp hpost
      rcases hrefused hhex with hshort | hnone
      · omega
      · rw [hnone] at hpeer
        cases hpeer
    · intro hhex
      obtain ⟨peer, hpeer, -⟩ := scanPeer_of_hex hhex
      exact ⟨peer, (claimPost_taken hs peer).mpr ⟨hhex.1, hpeer⟩⟩
    · intro s i peer hs hpost
      obtain ⟨hlen, hpeer⟩ := (claimPost_taken hs peer).mp hpost
      by_cases hhex : HexBody body
      · obtain ⟨peer', hpeer', hdecoders⟩ := scanPeer_of_hex hhex
        rw [hpeer] at hpeer'
        cases hpeer'
        exact hdecoders
      · rcases hrefused hhex with hshort | hnone
        · omega
        · rw [hnone] at hpeer
          cases hpeer

/-- Signs in front of 32 single digits are taken for a key. -/
theorem signs_taken :
    ¬AcceptsExactlyHex (List.replicate 32 (ascii "+1")).flatten := by
  intro h
  have hpeer : scanPeer (List.replicate 32 (ascii "+1")).flatten = some (.fill 32 1) := by decide
  have htaken := (claimPost_taken (s := start none (.fill 16 0)) (i := 0) rfl _).mpr ⟨by decide, hpeer⟩
  have hhex := (h.taken _ 0 rfl).mp ⟨_, htaken⟩
  exact absurd (hhex.2 43 (by decide)) (by decide)

end HciBridge.Claim
