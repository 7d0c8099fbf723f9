import HciBridge.AuthHex

/-!
`common/discovery.zig`: the two datagrams.
-/

namespace HciBridge.Discovery

open Text
open Auth (Bytes ascii decimal)

structure Announcement where
  bdaddr : Bytes
  port : ℕ
  name : Bytes
  sig : Bytes
deriving DecidableEq, Repr

inductive Message
  | probe
  | announce (ann : Announcement)
deriving DecidableEq, Repr

inductive ParseError
  | badMagic | badFormat | unknownKind
deriving DecidableEq, Repr

def magic : Bytes := ascii "ESPHCI1"

def parseFields : List Bytes → Except ParseError Announcement
  | bdaddr :: portText :: name :: rest =>
    let sig := rest.head?.getD (ascii "-")
    if 1 < rest.length then .error .badFormat
    else if bdaddr.length ≠ 17 then .error .badFormat
    else
      match parseInt 65535 portText with
      | none => .error .badFormat
      | some port => if name = [] then .error .badFormat else .ok ⟨bdaddr, port, name, sig⟩
  | _ => .error .badFormat

def parse (data : Bytes) : Except ParseError Message :=
  let line := if data.getLast? = some 10 then data.dropLast else data
  match line.splitOn 9 with
  | [] => .error .badFormat
  | m :: rest =>
    if m ≠ magic then .error .badMagic
    else
      match rest with
      | [] => .error .badFormat
      | kind :: fields =>
        if kind = ascii "PROBE" then .ok .probe
        else if kind ≠ ascii "ANNOUNCE" then .error .unknownKind
        else (parseFields fields).map Message.announce

/-- The text of an announce; `buildAnnounce`, and the format of `discovery_task`. -/
def announceText (bdaddr : Bytes) (port : ℕ) (name sig : Bytes) : Bytes :=
  magic ++ ascii "\tANNOUNCE\t" ++ bdaddr ++ ascii "\t" ++ decimal port ++ ascii "\t" ++ name ++ ascii "\t" ++
    sig ++ ascii "\n"

theorem decimal_eq_map {n : ℕ} (hn : n ≠ 0) :
    decimal n = (Nat.digits 10 n).reverse.map fun d => (48 + d).toUInt8 := by
  rw [decimal, if_neg hn]

theorem decimal_length_le {n k : ℕ} (hk : 1 ≤ k) (h : n < 10 ^ k) : (decimal n).length ≤ k := by
  by_cases hn : n = 0
  · subst hn
    exact hk
  · rw [decimal_eq_map hn, List.length_map, List.length_reverse]
    exact (Nat.digits_length_le_iff (by decide) n).mpr h

theorem parseInt_decimal {max n : ℕ} (h : n ≤ max) : parseInt max (decimal n) = some n := by
  by_cases hn : n = 0
  · subst hn
    have hzero : decimal 0 = [(48 + 0).toUInt8] := rfl
    rw [hzero]
    exact parseInt_digits max [0] (by simp) (by simp) (Nat.zero_le max)
  · have hdigits := parseInt_digits max (Nat.digits 10 n).reverse
      (by simpa [Nat.digits_eq_nil_iff_eq_zero] using hn)
      (fun d hd => Nat.digits_lt_base (by decide) (List.mem_reverse.mp hd))
      (by rw [foldl_digits]; exact h)
    rw [decimal_eq_map hn, hdigits, foldl_digits]

theorem notMem_decimal {n : ℕ} {c : UInt8} (hc : c < 48 ∨ 57 < c) : c ∉ decimal n := by
  by_cases hn : n = 0
  · subst hn
    intro h
    have : c = 48 := by simpa [decimal, ascii] using h
    subst this
    revert hc
    decide
  · rw [decimal_eq_map hn]
    intro h
    obtain ⟨d, hd, rfl⟩ := List.mem_map.mp h
    exact digit_ne (Nat.digits_lt_base (by decide) (List.mem_reverse.mp hd)) hc rfl

theorem parse_announceText {bdaddr name sig : Bytes} {port : ℕ} (hbd : bdaddr.length = 17) (hbd9 : 9 ∉ bdaddr)
    (hport : port ≤ 65535) (hname : name ≠ []) (hname9 : 9 ∉ name) (hsig9 : 9 ∉ sig) :
    parse (announceText bdaddr port name sig) = .ok (.announce ⟨bdaddr, port, name, sig⟩) := by
  have hlines : announceText bdaddr port name sig =
      ([9] : Bytes).intercalate [magic, ascii "ANNOUNCE", bdaddr, decimal port, name, sig] ++ [10] := by
    simp [announceText, List.intercalate, ascii]
  have hlast : (announceText bdaddr port name sig).getLast? = some 10 := by
    rw [hlines, List.getLast?_append]
    rfl
  have hdrop : (announceText bdaddr port name sig).dropLast =
      ([9] : Bytes).intercalate [magic, ascii "ANNOUNCE", bdaddr, decimal port, name, sig] := by
    rw [hlines, List.dropLast_concat]
  have hsplit : (([9] : Bytes).intercalate [magic, ascii "ANNOUNCE", bdaddr, decimal port, name, sig]).splitOn 9 =
      [magic, ascii "ANNOUNCE", bdaddr, decimal port, name, sig] := by
    apply List.splitOn_intercalate _ _ (by simp)
    intro l hl
    simp only [List.mem_cons, List.not_mem_nil, or_false] at hl
    rcases hl with rfl | rfl | rfl | rfl | rfl | rfl
    · decide
    · decide
    · exact hbd9
    · exact notMem_decimal (by decide)
    · exact hname9
    · exact hsig9
  have hkind : ascii "ANNOUNCE" ≠ ascii "PROBE" := by decide
  simp only [parse, hlast, if_true, hdrop, hsplit, ne_eq, not_true, if_false, hkind, parseFields,
    parseInt_decimal hport, hbd, hname, List.length_cons, List.length_nil, Nat.lt_irrefl, List.head?_cons,
    Option.getD_some, Except.map]

end HciBridge.Discovery
