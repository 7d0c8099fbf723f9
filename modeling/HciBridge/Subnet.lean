import HciBridge.Discovery

/-!
`Cidr` of `host/manager.zig`, with `std.Io.net.Ip4Address.parse`.
-/

namespace HciBridge.Subnet

open Text
open Auth (Bytes Block ascii decimal ipText)

/-- The numbers of an address: those done, whether the current one has a digit and whether that is a
leading zero, and its value. -/
def parseNumbers (done : Bytes) (digits zero : Bool) (value : ℕ) : Bytes → Option Bytes
  | [] => if done.length = 3 ∧ digits then some (done ++ [value.toUInt8]) else none
  | c :: cs =>
    if c = 46 then
      if ¬ digits ∨ done.length = 3 then none
      else parseNumbers (done ++ [value.toUInt8]) false false 0 cs
    else if 48 ≤ c ∧ c ≤ 57 then
      if (c ≠ 48 ∨ digits) ∧ zero then none
      else if 255 < value * 10 + (c.toNat - 48) then none
      else parseNumbers done true (zero || (c = 48 && !digits)) (value * 10 + (c.toNat - 48)) cs
    else none

def parseIp4 (text : Bytes) : Option (Block 4) :=
  (parseNumbers [] false false 0 text).bind fun bs => if h : bs.length = 4 then some ⟨bs, h⟩ else none

/-- `std.mem.readInt` of a `u32`, big end first -/
def readInt32 (ip : Block 4) : BitVec 32 :=
  BitVec.ofNat 32 (ip.bytes.foldl (fun n b => n * 256 + b.toNat) 0)

structure Cidr where
  base : BitVec 32
  mask : BitVec 32
deriving DecidableEq, Repr

def Cidr.parse (text : Bytes) : Option Cidr :=
  match cut 47 text with
  | none => none
  | some (before, after) =>
    match parseIp4 before, parseInt 63 after with
    | some ip, some bits =>
      if 32 < bits then none
      else some ⟨readInt32 ip, if bits = 0 then 0 else BitVec.allOnes 32 <<< (32 - bits)⟩
    | _, _ => none

def Cidr.contains (cidr : Cidr) (ip : Block 4) : Bool :=
  readInt32 ip &&& cidr.mask = cidr.base &&& cidr.mask

def cidrText (base : Block 4) (bits : ℕ) : Bytes := ipText base ++ ascii "/" ++ decimal bits

theorem digit_range {d : ℕ} (hd : d < 10) :
    48 ≤ (48 + d).toUInt8 ∧ (48 + d).toUInt8 ≤ 57 ∧ (48 + d).toUInt8.toNat - 48 = d ∧
      ((48 + d).toUInt8 = 48 ↔ d = 0) := by
  interval_cases d <;> decide

theorem parseNumbers_digits (done : Bytes) (ds : List ℕ) (hds : ∀ d ∈ ds, d < 10) (value : ℕ) (rest : Bytes)
    (h : ds.foldl (fun a d => a * 10 + d) value ≤ 255) :
    parseNumbers done true false value (ds.map (fun d => (48 + d).toUInt8) ++ rest) =
      parseNumbers done true false (ds.foldl (fun a d => a * 10 + d) value) rest := by
  induction ds generalizing value with
  | nil => rfl
  | cons d ds ih =>
    have hd : d < 10 := hds d (by simp)
    obtain ⟨hlo, hhi, hval, -⟩ := digit_range hd
    have hle : value * 10 + d ≤ 255 := Nat.le_trans (le_foldl_digits ds _) h
    have hdot : (48 + d).toUInt8 ≠ 46 := digit_ne hd (by decide)
    rw [List.map_cons, List.cons_append, parseNumbers, if_neg hdot, if_pos ⟨hlo, hhi⟩, if_neg (by simp), hval,
      if_neg (by omega)]
    simp only [Bool.not_true, Bool.and_false, Bool.or_false]
    exact ih (fun e he => hds e (by simp [he])) _ h

theorem parseNumbers_decimal (done : Bytes) (b : UInt8) (rest : Bytes) :
    ∃ zero, parseNumbers done false false 0 (decimal b.toNat ++ rest) =
      parseNumbers done true zero b.toNat rest := by
  by_cases hb : b.toNat = 0
  · refine ⟨true, ?_⟩
    have hzero : decimal 0 = [48] := rfl
    rw [hb, hzero, List.singleton_append, parseNumbers]
    rfl
  · refine ⟨false, ?_⟩
    have hlt := b.toNat_lt
    have hdigits : ∀ d ∈ (Nat.digits 10 b.toNat).reverse, d < 10 := fun d hd =>
      Nat.digits_lt_base (by decide) (List.mem_reverse.mp hd)
    have hval := foldl_digits b.toNat
    rw [Discovery.decimal_eq_map hb]
    cases hds : (Nat.digits 10 b.toNat).reverse with
    | nil => simp [Nat.digits_eq_nil_iff_eq_zero, hb] at hds
    | cons d ds =>
      rw [hds] at hdigits hval
      have hd : d < 10 := hdigits d (by simp)
      have hne : d ≠ 0 := by
        rintro rfl
        have hlast := Nat.getLast_digit_ne_zero 10 hb
        have hhead : (Nat.digits 10 b.toNat).getLast? = some 0 := by
          rw [← List.head?_reverse, hds]
          rfl
        rw [List.getLast?_eq_some_getLast (Nat.digits_ne_nil_iff_ne_zero.mpr hb)] at hhead
        exact hlast (by simpa using hhead)
      obtain ⟨hlo, hhi, hdval, h48⟩ := digit_range hd
      have hdot : (48 + d).toUInt8 ≠ 46 := digit_ne hd (by decide)
      have hn48 : (48 + d).toUInt8 ≠ 48 := fun h => hne (h48.mp h)
      rw [List.map_cons, List.cons_append, parseNumbers, if_neg hdot, if_pos ⟨hlo, hhi⟩, if_neg (by simp), hdval,
        if_neg (by omega)]
      simp only [hn48, decide_false, Bool.false_and, Bool.or_false]
      have hfold : ds.foldl (fun a d => a * 10 + d) (0 * 10 + d) = b.toNat := hval
      rw [parseNumbers_digits done ds (fun e he => hdigits e (by simp [he])) _ rest (by rw [hfold]; omega), hfold]

theorem parseNumbers_dot (done : Bytes) (zero : Bool) (b : UInt8) (rest : Bytes) (h : done.length ≠ 3) :
    parseNumbers done true zero b.toNat (46 :: rest) = parseNumbers (done ++ [b]) false false 0 rest := by
  rw [parseNumbers, if_pos rfl, if_neg (by simp [h])]
  simp

theorem parseIp4_ipText (ip : Block 4) : parseIp4 (ipText ip) = some ip := by
  obtain ⟨bytes, hlen⟩ := ip
  obtain ⟨a, b, c, d, rfl⟩ := List.length_eq_four.mp hlen
  have htext : ipText ⟨[a, b, c, d], hlen⟩ = decimal a.toNat ++ 46 :: (decimal b.toNat ++ 46 ::
      (decimal c.toNat ++ 46 :: (decimal d.toNat ++ []))) := by
    simp [ipText, List.intercalate, ascii]
  have hread : parseNumbers [] false false 0 (ipText ⟨[a, b, c, d], hlen⟩) = some [a, b, c, d] := by
    rw [htext]
    obtain ⟨_, ha⟩ := parseNumbers_decimal [] a (46 :: (decimal b.toNat ++ 46 ::
      (decimal c.toNat ++ 46 :: (decimal d.toNat ++ []))))
    rw [ha, parseNumbers_dot _ _ _ _ (by simp)]
    obtain ⟨_, hb⟩ := parseNumbers_decimal ([] ++ [a]) b (46 :: (decimal c.toNat ++ 46 :: (decimal d.toNat ++ [])))
    rw [hb, parseNumbers_dot _ _ _ _ (by simp)]
    obtain ⟨_, hc⟩ := parseNumbers_decimal ([] ++ [a] ++ [b]) c (46 :: (decimal d.toNat ++ []))
    rw [hc, parseNumbers_dot _ _ _ _ (by simp)]
    obtain ⟨_, hd⟩ := parseNumbers_decimal ([] ++ [a] ++ [b] ++ [c]) d []
    rw [hd, parseNumbers]
    simp
  rw [parseIp4, hread, Option.bind_some, dif_pos hlen]

theorem notMem_ipText_slash (ip : Block 4) : 47 ∉ ipText ip := by
  apply notMem_intercalate (by simp [ascii])
  intro l hl
  obtain ⟨b, -, rfl⟩ := List.mem_map.mp hl
  exact Discovery.notMem_decimal (by decide)

theorem parse_cidrText (base : Block 4) {bits : ℕ} (h : bits ≤ 32) :
    Cidr.parse (cidrText base bits) =
      some ⟨readInt32 base, if bits = 0 then 0 else BitVec.allOnes 32 <<< (32 - bits)⟩ := by
  have htext : cidrText base bits = ipText base ++ 47 :: decimal bits := by simp [cidrText, ascii]
  have hparse : parseInt 63 (decimal bits) = some bits := Discovery.parseInt_decimal (by omega)
  simp only [Cidr.parse, htext, cut_append (notMem_ipText_slash base), parseIp4_ipText, hparse,
    if_neg (Nat.not_lt.mpr h)]

theorem getMsbD_mask {bits : ℕ} (h : bits ≤ 32) (i : ℕ) :
    (if bits = 0 then (0 : BitVec 32) else BitVec.allOnes 32 <<< (32 - bits)).getMsbD i = decide (i < bits) := by
  split
  case isTrue h0 => simp [h0]
  case isFalse =>
    rw [BitVec.getMsbD_shiftLeft, BitVec.getMsbD_allOnes]
    exact decide_eq_decide.mpr (by omega)

theorem contains_iff {base ip : Block 4} {bits : ℕ} (h : bits ≤ 32) {cidr : Cidr}
    (hc : Cidr.parse (cidrText base bits) = some cidr) :
    cidr.contains ip = true ↔ ∀ i < bits, (readInt32 ip).getMsbD i = (readInt32 base).getMsbD i := by
  rw [parse_cidrText base h, Option.some.injEq] at hc
  subst hc
  simp only [Cidr.contains, decide_eq_true_eq]
  constructor
  · intro heq i hi
    have hbit := congrArg (fun v => v.getMsbD i) heq
    simpa only [BitVec.getMsbD_and, getMsbD_mask h, hi, decide_true,
      Bool.and_true] using hbit
  · intro hbits
    apply BitVec.eq_of_getMsbD_eq
    intro i hi
    rw [BitVec.getMsbD_and, BitVec.getMsbD_and, getMsbD_mask h]
    by_cases hlt : i < bits
    · rw [hbits i hlt]
    · simp only [hlt, decide_false, Bool.and_false]

end HciBridge.Subnet
