import HciBridge.H4Feed

namespace HciBridge.H4

open PacketType Reassembler

/-- How packets of one type are framed: the bytes of the header after the indicator, where in it the length
field begins, how many bytes the field has, and how many of its bits count. -/
structure Format where
  headerLen : ℕ
  lengthAt : ℕ
  lengthBytes : ℕ
  lengthBits : ℕ

def format : UInt8 → Option Format
  | 1 => some ⟨3, 2, 1, 8⟩
  | 2 => some ⟨4, 2, 2, 16⟩
  | 3 => some ⟨3, 2, 1, 8⟩
  | 4 => some ⟨2, 1, 1, 8⟩
  | 5 => some ⟨4, 2, 2, 14⟩
  | _ => none

def littleEndian (bytes : List UInt8) : ℕ := bytes.foldr (fun b n => b.toNat + 256 * n) 0

def Format.payload (f : Format) (header : List UInt8) : ℕ :=
  littleEndian ((header.drop f.lengthAt).take f.lengthBytes) % 2 ^ f.lengthBits

/-- The greedy parse of a whole stream: packets, the bytes after the last packet that were looked
at, and the error that stopped it. -/
def parse (cap : ℕ) : List UInt8 → Scan UInt8 Error
  | [] => .start
  | b :: tl =>
    match format b with
    | none => ⟨[], [b], some .UnknownPacketType⟩
    | some f =>
      let header := tl.take f.headerLen
      if tl.length < f.headerLen then ⟨[], b :: tl, none⟩
      else if cap < 1 + f.headerLen + f.payload header then
        ⟨[], b :: header, some .PacketTooLarge⟩
      else if (b :: tl).length < 1 + f.headerLen + f.payload header then ⟨[], b :: tl, none⟩
      else
        (parse cap ((b :: tl).drop (1 + f.headerLen + f.payload header))).addFront
          [(b :: tl).take (1 + f.headerLen + f.payload header)]
termination_by s => s.length
decreasing_by simp only [List.length_drop, List.length_cons]; omega

def PacketType.format : PacketType → Format
  | command => ⟨3, 2, 1, 8⟩
  | acl => ⟨4, 2, 2, 16⟩
  | sco => ⟨3, 2, 1, 8⟩
  | event => ⟨2, 1, 1, 8⟩
  | iso => ⟨4, 2, 2, 14⟩

theorem format_headerLen (t : PacketType) : t.format.headerLen = t.headerLen := by cases t <;> rfl

theorem littleEndian_byte (header : List UInt8) (i : ℕ) : littleEndian ((header.drop i).take 1) = byteAt header i := by
  rw [List.take_one, List.head?_drop, byteAt, List.getD_eq_getElem?_getD]
  cases header[i]? <;> rfl

theorem littleEndian_int16 (header : List UInt8) (i : ℕ) :
    littleEndian ((header.drop i).take 2) = readInt16 header i := by
  rw [readInt16, ← littleEndian_byte, ← littleEndian_byte, ← List.drop_drop]
  rcases header.drop i with _ | ⟨a, _ | ⟨b, tl⟩⟩ <;> simp [littleEndian]

theorem readInt16_lt (header : List UInt8) (i : ℕ) : readInt16 header i < 65536 := by
  have h := UInt8.toNat_lt (header.getD i 0)
  have h' := UInt8.toNat_lt (header.getD (i + 1) 0)
  simp only [readInt16, byteAt]
  omega

theorem format_payload (t : PacketType) (header : List UInt8) : t.format.payload header = t.payloadLen header := by
  have hbyte (i : ℕ) : byteAt header i < 256 := UInt8.toNat_lt (header.getD i 0)
  cases t with
  | command | event | sco =>
    rw [Format.payload, PacketType.format, littleEndian_byte]
    exact Nat.mod_eq_of_lt (hbyte _)
  | acl =>
    rw [Format.payload, PacketType.format, littleEndian_int16]
    exact Nat.mod_eq_of_lt (readInt16_lt header 2)
  | iso =>
    rw [Format.payload, PacketType.format, littleEndian_int16]
    exact (Nat.and_two_pow_sub_one_eq_mod (readInt16 header 2) 14).symm

theorem format_eq (b : UInt8) : format b = (fromByte b).map PacketType.format := by
  unfold format fromByte
  split
  case h_6 h1 h2 h3 h4 h5 =>
    split
    case h_1 h => exact absurd (UInt8.toNat_inj.mp h) h1
    case h_2 h => exact absurd (UInt8.toNat_inj.mp h) h2
    case h_3 h => exact absurd (UInt8.toNat_inj.mp h) h3
    case h_4 h => exact absurd (UInt8.toNat_inj.mp h) h4
    case h_5 h => exact absurd (UInt8.toNat_inj.mp h) h5
    case h_6 => rfl
  all_goals rfl

theorem fromByte_of_format {b : UInt8} {f : Format} (h : format b = some f) :
    ∃ t, fromByte b = some t ∧ f = t.format := by
  rw [format_eq] at h
  obtain ⟨t, ht, rfl⟩ := Option.map_eq_some_iff.mp h
  exact ⟨t, ht, rfl⟩

theorem unfinished_of_header {cap : ℕ} {b : UInt8} {tl r : List UInt8} {t : PacketType}
    (hb : fromByte b = some t) (hr : r <+: b :: tl) (hne : r ≠ []) (hl : r.length ≤ t.headerLen) :
    (framing cap).Unfinished r := by
  obtain ⟨d, r', rfl⟩ := List.exists_cons_of_ne_nil hne
  obtain ⟨rfl, _⟩ := List.cons_prefix_cons.mp hr
  exact (framing cap).settle_of_none (total_of_short hb hl)

theorem unfinished_of_short {cap n : ℕ} {b : UInt8} {tl r : List UInt8} {t : PacketType}
    (hb : fromByte b = some t) (hn : n = 1 + t.headerLen + t.payloadLen (tl.take t.headerLen))
    (hcap : n ≤ cap) (hr : r <+: b :: tl) (hne : r ≠ []) (hlt : r.length < n) :
    (framing cap).Unfinished r := by
  by_cases hl : r.length ≤ t.headerLen
  · exact unfinished_of_header hb hr hne hl
  · obtain ⟨d, r', rfl⟩ := List.exists_cons_of_ne_nil hne
    obtain ⟨rfl, q, rfl⟩ := List.cons_prefix_cons.mp hr
    simp only [List.length_cons, Nat.add_one_le_iff] at hl
    rw [List.take_append_of_le_length (by omega)] at hn
    apply (framing cap).settle_of_open (n := n) _ (by omega)
    simp only [framing_total, total, hb, if_neg hl, ← hn]
    rw [if_neg (by omega)]

theorem total_of_header {cap n : ℕ} {b : UInt8} {tl : List UInt8} {t : PacketType}
    (hb : fromByte b = some t) (hl : ¬tl.length < t.headerLen)
    (hn : n = 1 + t.headerLen + t.payloadLen (tl.take t.headerLen)) (hcap : n ≤ cap) :
    total cap (b :: tl) = .ok (some n) := by
  simp only [total, hb, if_neg hl, ← hn]
  rw [if_neg (by omega)]

theorem scan_too_large {cap : ℕ} {b : UInt8} {tl : List UInt8} {t : PacketType} (hb : fromByte b = some t)
    (hl : ¬tl.length < t.headerLen) (hcap : cap < 1 + t.headerLen + t.payloadLen (tl.take t.headerLen)) :
    (framing cap).scan .start (b :: tl) = ⟨[], b :: tl.take t.headerLen, some .PacketTooLarge⟩ := by
  obtain ⟨header, hheader⟩ : ∃ header, tl.take t.headerLen = header := ⟨_, rfl⟩
  rw [hheader] at hcap ⊢
  have hhead : header.length = t.headerLen := by
    rw [← hheader, List.length_take]
    omega
  have hset : (framing cap).settle (b :: header) = ⟨[], b :: header, some .PacketTooLarge⟩ := by
    apply (framing cap).settle_of_error
    simp only [framing_total, total, hb, hhead, lt_irrefl, if_false]
    rw [if_pos (by rwa [List.take_of_length_le hhead.le])]
  have hsplit : b :: tl = (b :: header) ++ tl.drop t.headerLen := by simp [← hheader]
  have hblock : (framing cap).scan .start (b :: header) = (framing cap).settle (b :: header) := by
    apply (framing cap).scan_block [] (b :: header) (by simp)
    intro r hr hne hrq
    have hlt := Framing.prefix_length_lt hr hrq
    rw [List.length_cons, hhead] at hlt
    exact unfinished_of_header hb hr hne (Nat.le_of_lt_succ hlt)
  rw [hsplit, Framing.scan_append, hblock, hset]
  exact (framing cap).scan_error _ _ (by simp)

theorem scan_packet {cap n : ℕ} {b : UInt8} {tl : List UInt8} {t : PacketType} (hb : fromByte b = some t)
    (hl : ¬tl.length < t.headerLen) (hn : 1 + t.headerLen + t.payloadLen (tl.take t.headerLen) = n) (hle : n ≤ cap)
    (hlen : n ≤ (b :: tl).length) :
    (framing cap).scan .start ((b :: tl).take n) = Scan.start.addFront [(b :: tl).take n] := by
  have hn' : ((b :: tl).take n).length = n := by simp only [List.length_take]; omega
  have htot : total cap ((b :: tl).take n) = .ok (some n) := by
    have hpre : (b :: tl).take n = b :: tl.take (n - 1) := by
      rw [show n = n - 1 + 1 by omega, List.take_succ_cons, Nat.add_sub_cancel]
    rw [hpre]
    apply total_of_header hb _ _ hle
    · simp only [List.length_take]; omega
    · rw [List.take_take, min_eq_left (by omega), hn]
  apply ((framing cap).scan_block [] ((b :: tl).take n) _ _).trans
  · exact (framing cap).settle_of_complete (by rw [List.nil_append, framing_total, hn', htot])
  · rw [← List.length_pos_iff]; omega
  · intro r hr hne hrq
    have hlt := Framing.prefix_length_lt hr hrq
    rw [hn'] at hlt
    exact unfinished_of_short hb hn.symm hle (hr.trans (List.take_prefix _ _)) hne hlt

theorem scan_eq_parse (cap : ℕ) (s : List UInt8) : (framing cap).scan .start s = parse cap s := by
  fun_induction parse cap s with
  | case1 => rfl
  | case2 b tl hf =>
    have hb : fromByte b = none := by simpa [format_eq] using hf
    have hset : (framing cap).settle [b] = ⟨[], [b], some .UnknownPacketType⟩ :=
      (framing cap).settle_of_error (by simp [total, hb])
    rw [Framing.scan_cons, Framing.push, Scan.start]
    simp only [List.nil_append, hset, Scan.addFront]
    exact (framing cap).scan_error _ _ (by simp)
  | case3 b tl f hf hl =>
    obtain ⟨t, hb, rfl⟩ := fromByte_of_format hf
    rw [format_headerLen] at hl
    apply ((framing cap).scan_block [] (b :: tl) (by simp) _).trans
    · exact (framing cap).settle_of_none (total_of_short hb hl)
    · intro r hr hne _
      exact unfinished_of_header hb hr hne (hr.length_le.trans hl)
  | case4 b tl f hf header hl hcap =>
    obtain ⟨t, hb, rfl⟩ := fromByte_of_format hf
    simp only [header, format_headerLen, format_payload] at hl hcap ⊢
    exact scan_too_large hb hl hcap
  | case5 b tl f hf header hl hcap hlen =>
    obtain ⟨t, hb, rfl⟩ := fromByte_of_format hf
    have hn : 1 + t.format.headerLen + t.format.payload header =
        1 + t.headerLen + t.payloadLen (tl.take t.headerLen) := by
      simp only [header, format_headerLen, format_payload]
    rw [format_headerLen] at hl
    rw [hn] at hcap hlen
    have hle : 1 + t.headerLen + t.payloadLen (tl.take t.headerLen) ≤ cap := by omega
    have htot : total cap (b :: tl) = .ok (some (1 + t.headerLen + t.payloadLen (tl.take t.headerLen))) :=
      total_of_header hb hl rfl hle
    apply ((framing cap).scan_block [] (b :: tl) (by simp) _).trans
    · exact (framing cap).settle_of_open htot hlen.ne
    · intro r hr hne _
      exact unfinished_of_short hb rfl hle hr hne (lt_of_le_of_lt hr.length_le hlen)
  | case6 b tl f hf header hl hcap hlen ih =>
    obtain ⟨t, hb, rfl⟩ := fromByte_of_format hf
    obtain ⟨n, hn⟩ : ∃ n, 1 + t.format.headerLen + t.format.payload header = n := ⟨_, rfl⟩
    rw [hn] at hcap hlen ih ⊢
    simp only [header, format_headerLen, format_payload] at hn
    rw [format_headerLen] at hl
    conv_lhs => rw [← List.take_append_drop n (b :: tl)]
    rw [Framing.scan_append, scan_packet hb hl hn (by omega) (by omega), Framing.scan_addFront, ih]

theorem byteAt_le (header : List UInt8) (i : ℕ) : byteAt header i ≤ 255 := by
  have := UInt8.toNat_lt (header.getD i 0)
  simp only [byteAt]
  omega

theorem payloadLen_le (t : PacketType) (header : List UInt8) : t.payloadLen header ≤ 0xffff := by
  have h1 := byteAt_le header 1
  have h2 := byteAt_le header 2
  have h3 := byteAt_le header (2 + 1)
  have h16 : readInt16 header 2 ≤ 0xffff := by simp only [readInt16]; omega
  cases t <;> simp only [payloadLen]
  case iso => exact Nat.and_le_left.trans h16
  all_goals omega

theorem parse_never_too_large {cap : ℕ} (h : maxPacketLen ≤ cap) (s : List UInt8) :
    (parse cap s).error ≠ some .PacketTooLarge := by
  fun_induction parse cap s with
  | case4 b tl f hf header hl hcap =>
    obtain ⟨t, -, rfl⟩ := fromByte_of_format hf
    rw [format_headerLen, format_payload] at hcap
    have := payloadLen_le t header
    have := headerLen_le t
    simp only [maxPacketLen] at h
    omega
  | case6 b tl f hf header hl hcap hlen ih => simpa using ih
  | _ => simp [Scan.start]

def outcomeOf (c : Scan UInt8 Error) : Outcome Empty :=
  match c.error with
  | none => .done
  | some e => .framing e

namespace Reassembler

def tail (re : Reassembler) : List UInt8 :=
  match re.totalLen with
  | .ok (some n) => if re.len = n then [] else re.held
  | _ => re.held

theorem tail_eq {re : Reassembler} (hwf : re.Wf) : re.tail = re.view.pending := by
  rw [tail, totalLen_eq hwf.within, view, Framing.settle, framing_total]
  cases total re.buf.length re.held with
  | error e => rfl
  | ok o =>
    cases o with
    | none => rfl
    | some n =>
      simp only [held_length hwf.within]
      split <;> rfl

end Reassembler

section FeedAll

variable {σ : Type} (f : σ → List UInt8 → σ)

def infallible (ctx : σ) (p : List UInt8) : Except Empty σ := .ok (f ctx p)

theorem feedAllLoop_spec (fuel : ℕ) (re : Reassembler) (ctx : σ) (rest : List UInt8)
    (hwf : re.Wf) (he : re.view.error = none) (hf : rest.length < fuel) :
    ∃ re', feedAllLoop (infallible f) fuel re ctx rest =
        some (re', ((framing re.buf.length).scan re.view rest).frames.foldl f ctx,
          outcomeOf ((framing re.buf.length).scan re.view rest)) ∧
      re'.Wf ∧ re'.buf.length = re.buf.length ∧
      re'.view = { (framing re.buf.length).scan re.view rest with frames := [] } := by
  induction fuel generalizing re ctx rest with
  | zero => omega
  | succ fuel ih =>
    rw [feedAllLoop]
    by_cases hr : rest.length > 0
    · obtain ⟨re', r, hfeed, hwf', hbuf, hfed⟩ := feed_spec hwf rest
      simp only [if_pos hr, hfeed]
      cases hfed with
      | exhausted hv hnone =>
        rw [hbuf] at hv
        obtain ⟨re'', hrun, hwf'', hbuf'', hview⟩ := ih re' ctx [] hwf' hnone (by simp; omega)
        simp only [List.drop_length]
        refine ⟨re'', ?_, hwf'', by omega, ?_⟩
        · rw [hrun, hv]; rfl
        · rw [hview, hv]; rfl
      | packet c p hc hle hv hstart =>
        rw [hbuf] at hv
        have hscan : (framing re.buf.length).scan re.view rest =
            ((framing re.buf.length).scan .start (rest.drop c)).addFront [p] := by
          conv_lhs => rw [← List.take_append_drop c rest]
          rw [Framing.scan_append, hv, ← Framing.scan_addFront]
          rfl
        obtain ⟨re'', hrun, hwf'', hbuf'', hview⟩ := ih re' (f ctx p) (rest.drop c) hwf'
          (by simp [hstart, Scan.start]) (by simp only [List.length_drop]; omega)
        simp only [infallible]
        rw [hbuf, hstart] at hrun hview
        refine ⟨re'', ?_, hwf'', by omega, ?_⟩
        · rw [hrun, hscan]; rfl
        · rw [hview, hscan]; rfl
      | failed c e hle hv hsome =>
        rw [hbuf] at hv
        have hscan : (framing re.buf.length).scan re.view rest = re'.view := by
          conv_lhs => rw [← List.take_append_drop c rest]
          rw [Framing.scan_append, hv]
          exact (framing _).scan_error _ _ (by simp [hsome])
        refine ⟨re', ?_, hwf', hbuf, ?_⟩
        · simp only [hscan, outcomeOf, hsome]; rfl
        · rw [hscan]; rfl
    · have hnil : rest = [] := by rw [← List.length_eq_zero_iff]; omega
      subst hnil
      refine ⟨re, ?_, hwf, rfl, rfl⟩
      rw [if_neg (by simp), Framing.scan_nil, outcomeOf, he]
      rfl

theorem feedChunks_spec (re : Reassembler) (ctx : σ) (chunks : List (List UInt8)) (hwf : re.Wf)
    (he : re.view.error = none) :
    ∃ re', feedChunks (infallible f) re ctx chunks =
        some (re', ((framing re.buf.length).scan re.view chunks.flatten).frames.foldl f ctx,
          outcomeOf ((framing re.buf.length).scan re.view chunks.flatten)) ∧
      re'.Wf ∧ re'.buf.length = re.buf.length ∧
      re'.view = { (framing re.buf.length).scan re.view chunks.flatten with frames := [] } := by
  induction chunks generalizing re ctx with
  | nil =>
    refine ⟨re, ?_, hwf, rfl, rfl⟩
    rw [feedChunks, List.flatten_nil, Framing.scan_nil, outcomeOf, he]
    rfl
  | cons c cs ih =>
    obtain ⟨re', hall, hwf', hbuf, hview⟩ :=
      feedAllLoop_spec f (c.length + 1) re ctx c hwf he (by omega)
    rw [feedChunks, feedAll, hall, List.flatten_cons, Framing.scan_append]
    generalize (framing re.buf.length).scan re.view c = d at hall hview ⊢
    cases hd : d.error with
    | some e =>
      rw [(framing re.buf.length).scan_error d cs.flatten (by simp [hd])]
      refine ⟨re', ?_, hwf', hbuf, hview⟩
      simp only [outcomeOf, hd]
    | none =>
      have hd' : d = re'.view.addFront d.frames := by rw [hview]; simp [Scan.addFront]
      obtain ⟨re'', hrun, hwf'', hbuf'', hview'⟩ := ih re' (d.frames.foldl f ctx) hwf'
        (by rw [hview]; exact hd)
      rw [hbuf] at hrun hview'
      simp only [outcomeOf, hd]
      refine ⟨re'', ?_, hwf'', by omega, ?_⟩
      · rw [hrun, hd', Framing.scan_addFront]
        simp [List.foldl_append, outcomeOf, hview]
      · rw [hview', hd', Framing.scan_addFront]
        rfl

end FeedAll

theorem foldl_concat (ps qs : List (List UInt8)) : qs.foldl (fun a p => a ++ [p]) ps = ps ++ qs := by
  induction qs generalizing ps with
  | nil => simp
  | cons q qs ih => simp [ih]

theorem reassembly_eq_parse (storage : List UInt8) (h : 5 ≤ storage.length)
    (chunks : List (List UInt8)) :
    ∃ re, feedChunks collect (init storage) [] chunks =
        some (re, (parse storage.length chunks.flatten).frames,
          outcomeOf (parse storage.length chunks.flatten)) ∧
      re.tail = (parse storage.length chunks.flatten).pending ∧
      (parse storage.length chunks.flatten).frames.flatten ++ re.tail <+: chunks.flatten ∧
      ((parse storage.length chunks.flatten).error = none →
        (parse storage.length chunks.flatten).frames.flatten ++ re.tail = chunks.flatten) ∧
      (maxPacketLen ≤ storage.length →
        (parse storage.length chunks.flatten).error ≠ some .PacketTooLarge) := by
  obtain ⟨re, hrun, hwf, _, hview⟩ := feedChunks_spec (fun ps p => ps ++ [p]) (init storage) []
    chunks (init_wf storage h) (by simp [Scan.start])
  have hbuf : (init storage).buf.length = storage.length := rfl
  rw [view_init, hbuf, scan_eq_parse] at hrun hview
  rw [foldl_concat, List.nil_append] at hrun
  have htail : re.tail = (parse storage.length chunks.flatten).pending := by
    rw [tail_eq hwf, hview]
  obtain ⟨t, ht, htaken, hall⟩ := (framing storage.length).scan_taken .start chunks.flatten
  rw [scan_eq_parse] at htaken hall
  have htaken' : (parse storage.length chunks.flatten).frames.flatten ++ re.tail = t := by
    rw [htail]; exact htaken
  refine ⟨re, hrun, htail, ?_, ?_, fun hmax => parse_never_too_large hmax _⟩
  · rw [htaken']; exact ht
  · intro hnone; rw [htaken', hall hnone]

def threePackets : List (List UInt8) :=
  [[0x01, 0x03], [], [0x0c, 0x01, 0xaa, 0x05, 0x01, 0x00, 0x02], [0x40, 0xbb, 0xcc, 0x04, 0x10], [0x00, 0x04]]

theorem reassembly_of_three_packets :
    ∃ re, feedChunks collect (init (List.replicate 7 0)) [] threePackets =
        some (re, [[0x01, 0x03, 0x0c, 0x01, 0xaa], [0x05, 0x01, 0x00, 0x02, 0x40, 0xbb, 0xcc], [0x04, 0x10, 0x00]],
          .done) ∧ re.tail = [0x04] := by
  obtain ⟨re, hrun, htail, _⟩ := reassembly_eq_parse (List.replicate 7 0) (by decide) threePackets
  have hparse : parse 7 threePackets.flatten =
      ⟨[[0x01, 0x03, 0x0c, 0x01, 0xaa], [0x05, 0x01, 0x00, 0x02, 0x40, 0xbb, 0xcc], [0x04, 0x10, 0x00]], [0x04],
        none⟩ := by
    simp [threePackets, parse, format, Format.payload, littleEndian, Scan.addFront]
  refine ⟨re, ?_, ?_⟩
  · simpa [hparse, outcomeOf] using hrun
  · simpa [hparse] using htail

end HciBridge.H4
