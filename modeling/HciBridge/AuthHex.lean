import HciBridge.Auth
import HciBridge.Text

/-!
`common/auth.zig`: keys and nonces written as hex text and read back.
-/

namespace HciBridge.Auth

open Text

def hexToBlock (n : ℕ) (hex : Bytes) : Option (Block n) :=
  if hex.length ≠ 2 * n then none
  else (hexToBytes hex).bind fun bs => if h : bs.length = n then some ⟨bs, h⟩ else none

def hexToPsk (hex : Bytes) : Option Psk := hexToBlock 32 hex

def hexToNonce (hex : Bytes) : Option HttpNonce := hexToBlock 20 hex

def pskToHex (psk : Psk) : Bytes := hexlify psk.bytes

theorem charToDigit_hexDigit {n : ℕ} (h : n < 16) : charToDigit 16 (hexDigit n) = some n := by
  unfold hexDigit
  interval_cases n <;> decide

@[simp] theorem hexToBytes_hexlify (bs : Bytes) : hexToBytes (hexlify bs) = some bs :=
  hexToBytes_flatMap hexDigit (fun _ h => charToDigit_hexDigit h) bs

@[simp] theorem hexlify_length (bs : Bytes) : (hexlify bs).length = 2 * bs.length :=
  hexToBytes_length (hexToBytes_hexlify bs)

@[simp] theorem hexToBlock_hexlify {n : ℕ} (b : Block n) : hexToBlock n (hexlify b.bytes) = some b := by
  have hlen : (hexlify b.bytes).length = 2 * n := by rw [hexlify_length, b.length_eq]
  rw [hexToBlock, if_neg (not_not.mpr hlen), hexToBytes_hexlify, Option.bind_some, dif_pos b.length_eq]

theorem hexDigit_range {n : ℕ} (h : n < 16) : 48 ≤ (hexDigit n).toNat ∧ (hexDigit n).toNat ≤ 102 := by
  unfold hexDigit
  interval_cases n <;> decide

theorem mem_hexlify {bs : Bytes} {c : UInt8} (h : c ∈ hexlify bs) : ∃ n < 16, c = hexDigit n := by
  simp only [hexlify, List.mem_flatMap, List.mem_cons, List.not_mem_nil, or_false] at h
  obtain ⟨b, -, rfl | rfl⟩ := h
  · have := b.toNat_lt
    exact ⟨b.toNat / 16, by omega, rfl⟩
  · exact ⟨b.toNat % 16, by omega, rfl⟩

theorem notMem_hexlify {bs : Bytes} {c : UInt8} (hc : ∀ n < 16, hexDigit n ≠ c) : c ∉ hexlify bs := by
  intro h
  obtain ⟨n, hn, rfl⟩ := mem_hexlify h
  exact hc n hn rfl

theorem lower_of_charToDigit : ∀ c, ∀ n ∈ charToDigit 16 c, lower c = hexDigit n ∧ n < 16 :=
  forall_byte (by decide +kernel)

theorem charToDigit_of_lower : ∀ c, ∀ n : Fin 16, lower c = hexDigit n → charToDigit 16 c = some n.val :=
  forall_byte (by decide +kernel)

theorem hexlify_cons (b : UInt8) (bs : Bytes) :
    hexlify (b :: bs) = hexDigit (b.toNat / 16) :: hexDigit (b.toNat % 16) :: hexlify bs := rfl

theorem hexToBytes_iff {hex bs : Bytes} : hexToBytes hex = some bs ↔ hex.map lower = hexlify bs := by
  constructor
  · intro h
    fun_induction hexToBytes hex generalizing bs with
    | case1 =>
      cases h
      rfl
    | case2 => cases h
    | case3 hi lo rest ih =>
      simp only [Option.bind_eq_bind, Option.bind_eq_some_iff, Option.pure_def, Option.some.injEq] at h
      obtain ⟨x, hx, y, hy, bs', hbs, rfl⟩ := h
      obtain ⟨hhi, hx16⟩ := lower_of_charToDigit hi x hx
      obtain ⟨hlo, hy16⟩ := lower_of_charToDigit lo y hy
      have hval : (x * 16 + y).toUInt8.toNat = x * 16 + y := by
        rw [Nat.toUInt8_eq, UInt8.toNat_ofNat']
        omega
      have hdiv : (x * 16 + y) / 16 = x ∧ (x * 16 + y) % 16 = y := by omega
      rw [hexlify_cons, hval, hdiv.1, hdiv.2, List.map_cons, List.map_cons, hhi, hlo, ih hbs]
  · intro h
    induction bs generalizing hex with
    | nil =>
      rw [List.map_eq_nil_iff.mp h]
      rfl
    | cons b bs ih =>
      rw [hexlify_cons] at h
      obtain ⟨hi, rest, rfl, hhi, h⟩ := List.map_eq_cons_iff.mp h
      obtain ⟨lo, rest, rfl, hlo, h⟩ := List.map_eq_cons_iff.mp h
      have hb := b.toNat_lt
      have hx := charToDigit_of_lower hi ⟨b.toNat / 16, by omega⟩ hhi
      have hy := charToDigit_of_lower lo ⟨b.toNat % 16, by omega⟩ hlo
      have hval : b.toNat / 16 * 16 + b.toNat % 16 = b.toNat := by omega
      simp only [hexToBytes, hx, hy, ih h, hval, Option.bind_eq_bind, Option.bind_some, Option.pure_def,
        UInt8.ofNat_toNat, Nat.toUInt8_eq]

theorem hexToPsk_iff {hex : Bytes} {psk : Psk} : hexToPsk hex = some psk ↔ hex.map lower = hexlify psk.bytes := by
  rw [hexToPsk, hexToBlock]
  constructor
  · intro h
    split at h
    case isTrue => cases h
    case isFalse =>
      obtain ⟨bs, hbs, h⟩ := Option.bind_eq_some_iff.mp h
      split at h
      case isTrue =>
        cases h
        exact hexToBytes_iff.mp hbs
      case isFalse => cases h
  · intro h
    have hlen : hex.length = 2 * 32 := by
      have := congrArg List.length h
      rwa [List.length_map, hexlify_length, psk.length_eq] at this
    rw [if_neg (not_not.mpr hlen), hexToBytes_iff.mpr h, Option.bind_some, dif_pos psk.length_eq]

end HciBridge.Auth
