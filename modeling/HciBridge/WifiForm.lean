import HciBridge.AuthHex
import HciBridge.Ota

/-!
The setup form of `firmware/main/net.c`: how `/save` reads the WiFi credentials out of an
`application/x-www-form-urlencoded` body.
-/

namespace HciBridge.WifiForm

open Auth Text Ota

def cString (bs : Bytes) : Bytes := bs.takeWhile fun c => c ≠ 0

/-- One digit of an escape; `char` is unsigned on the ESP32. -/
def digitVal (c : UInt8) : UInt8 := if c ≤ 57 then c - 48 else (c ||| 32) - 97 + 10

/-- The last case has no two bytes after it, so a `%` there stands for itself. -/
def urlDecode : Bytes → Bytes
  | c :: hi :: lo :: rest =>
    if c = 43 then 32 :: urlDecode (hi :: lo :: rest)
    else if c = 37 then (digitVal hi * 16 + digitVal lo) :: urlDecode rest
    else c :: urlDecode (hi :: lo :: rest)
  | c :: rest => (if c = 43 then 32 else c) :: urlDecode rest
  | [] => []

def formField (body : Bytes) (key : String) (outLen : ℕ) : Option Bytes :=
  (after (ascii key ++ [61]) body).map fun p =>
    cString (urlDecode (((cut 38 p).elim p Prod.fst).take (outLen - 1)))

inductive Saved
  | failed
  | refused (response : Response)
  | stored (ssid pass : Bytes)
deriving DecidableEq, Repr

/-- What `nvs_set_str` is given, for the bytes that one `httpd_req_recv` has brought. -/
def portalSave (received : Bytes) : Saved :=
  let body := received.take 255
  if body = [] then .failed
  else match formField (cString body) "ssid" 33 with
    | none | some [] => .refused ⟨400, "ssid required"⟩
    | some ssid => .stored ssid ((formField (cString body) "pass" 65).getD [])

inductive Spells : Bytes → Bytes → Prop
  | nil : Spells [] []
  | raw {c : UInt8} {bytes text : Bytes} (hc : c ∉ ascii " %+&=") (h : Spells bytes text) :
      Spells (c :: bytes) (c :: text)
  | plus {bytes text : Bytes} (h : Spells bytes text) : Spells (32 :: bytes) (43 :: text)
  | escape {hi lo : UInt8} {m n : ℕ} {bytes text : Bytes} (hhi : charToDigit 16 hi = some m)
      (hlo : charToDigit 16 lo = some n) (h : Spells bytes text) :
      Spells ((m * 16 + n).toUInt8 :: bytes) (37 :: hi :: lo :: text)

/-- The field is not cut, or cut so that the `%` or `%2` which stays behind reads like the rest. -/
def Fits (cap : ℕ) (text : Bytes) : Prop :=
  text.length ≤ cap ∨ 1 ≤ cap ∧ text.drop (cap - 1) = ascii "%25" ∨
    2 ≤ cap ∧ (text.drop (cap - 2) = ascii "%252" ∨ text.drop (cap - 2) = ascii "%25%32")

section

variable {c hi lo : UInt8} {m n cap : ℕ} {bytes text : Bytes}

theorem charToDigit_cases (h : charToDigit 16 c = some n) :
    48 ≤ c.toNat ∧ c.toNat ≤ 57 ∧ n = c.toNat - 48 ∨ 65 ≤ c.toNat ∧ c.toNat ≤ 70 ∧ n = c.toNat - 55 ∨
      97 ≤ c.toNat ∧ c.toNat ≤ 102 ∧ n = c.toNat - 87 := by
  simp only [charToDigit, Option.filter_eq_some_iff, decide_eq_true_eq] at h
  obtain ⟨h, hlt⟩ := h
  simp only [UInt8.le_iff_toNat_le, UInt8.reduceToNat] at h
  split at h
  · cases h
    omega
  · split at h
    · cases h
      omega
    · split at h
      · cases h
        omega
      · cases h

theorem charToDigit_lt (h : charToDigit 16 c = some n) : n < 16 := by
  have := charToDigit_cases h
  omega

theorem charToDigit_ne (h : charToDigit 16 c = some n) {x : UInt8} (hx : x.toNat < 48) : c ≠ x := by
  rintro rfl
  have := charToDigit_cases h
  omega

theorem digitVal_eq (h : charToDigit 16 c = some n) : digitVal c = n.toUInt8 := by
  have hc : c = UInt8.ofNat c.toNat := (UInt8.ofNat_toNat).symm
  have hcases := charToDigit_cases h
  clear h
  generalize c.toNat = k at hc hcases
  subst hc
  rcases hcases with ⟨hlo, hhi, rfl⟩ | ⟨hlo, hhi, rfl⟩ | ⟨hlo, hhi, rfl⟩ <;> interval_cases k <;> decide

theorem urlDecode_cons (h : c ≠ 37) : urlDecode (c :: text) = (if c = 43 then 32 else c) :: urlDecode text := by
  match text with
  | [] | [_] => rfl
  | _ :: _ :: _ =>
    rw [urlDecode, if_neg h]
    split <;> rfl

theorem urlDecode_escape (hhi : charToDigit 16 hi = some m) (hlo : charToDigit 16 lo = some n) :
    urlDecode (37 :: hi :: lo :: text) = (m * 16 + n).toUInt8 :: urlDecode text := by
  rw [urlDecode, if_neg (by decide), if_pos rfl, digitVal_eq hhi, digitVal_eq hlo]
  simp

theorem notMem_special (hc : c ∉ ascii " %+&=") : c ≠ 32 ∧ c ≠ 37 ∧ c ≠ 43 ∧ c ≠ 38 ∧ c ≠ 61 := by
  simpa [ascii] using hc

theorem Spells.notMem (h : Spells bytes text) {x : UInt8} (hx : x = 0 ∧ 0 ∉ bytes ∨ x = 38 ∨ x = 61) :
    x ∉ text := by
  have hlow : x ≠ 37 ∧ x ≠ 43 ∧ ∀ c n, charToDigit 16 c = some n → x ≠ c := by
    rcases hx with ⟨rfl, -⟩ | rfl | rfl
    · exact ⟨by decide, by decide, fun c n hc => (charToDigit_ne hc (by decide)).symm⟩
    · exact ⟨by decide, by decide, fun c n hc => (charToDigit_ne hc (by decide)).symm⟩
    · refine ⟨by decide, by decide, ?_⟩
      rintro c n hc rfl
      have hcases := charToDigit_cases hc
      simp at hcases
  obtain ⟨hescape, hplus, hdigit⟩ := hlow
  induction h with
  | nil => exact List.not_mem_nil
  | @raw c bytes text hc h ih =>
    obtain ⟨-, -, -, hamp, heq⟩ := notMem_special hc
    have hxc : x ≠ c := by
      rcases hx with ⟨rfl, hnul⟩ | rfl | rfl
      · exact fun hc => hnul (hc ▸ List.mem_cons_self)
      · exact hamp.symm
      · exact heq.symm
    rw [List.mem_cons, not_or]
    exact ⟨hxc, ih (hx.imp_left fun h => ⟨h.1, fun hmem => h.2 (List.mem_cons_of_mem _ hmem)⟩)⟩
  | plus h ih =>
    rw [List.mem_cons, not_or]
    exact ⟨hplus, ih (hx.imp_left fun h => ⟨h.1, fun hmem => h.2 (List.mem_cons_of_mem _ hmem)⟩)⟩
  | escape hhi hlo h ih =>
    simp only [List.mem_cons, not_or]
    exact ⟨hescape, hdigit _ _ hhi, hdigit _ _ hlo,
      ih (hx.imp_left fun h => ⟨h.1, fun hmem => h.2 (List.mem_cons_of_mem _ hmem)⟩)⟩

theorem Spells.nil_iff (h : Spells bytes text) : bytes = [] ↔ text = [] := by
  cases h <;> simp

theorem digit_eq_iff (h : charToDigit 16 c = some n) {k : ℕ} (hk : k < 10) : n = k ↔ c = (48 + k).toUInt8 := by
  have hcases := charToDigit_cases h
  rw [← UInt8.toNat_inj, Nat.toUInt8_eq, UInt8.toNat_ofNat']
  omega

theorem escape_eq_iff (hhi : charToDigit 16 hi = some m) (hlo : charToDigit 16 lo = some n) {j k : ℕ} (hj : j < 10)
    (hk : k < 10) :
    (m * 16 + n).toUInt8 = (j * 16 + k).toUInt8 ↔ hi = (48 + j).toUInt8 ∧ lo = (48 + k).toUInt8 := by
  rw [← digit_eq_iff hhi hj, ← digit_eq_iff hlo hk, ← UInt8.toNat_inj]
  have hm := charToDigit_lt hhi
  have hn := charToDigit_lt hlo
  simp only [Nat.toUInt8_eq, UInt8.toNat_ofNat']
  omega

theorem Spells.two_iff (h : Spells bytes text) : bytes = ascii "2" ↔ text = ascii "2" ∨ text = ascii "%32" := by
  cases h with
  | nil => simp [ascii]
  | raw hc h =>
    obtain ⟨-, hescape, -, -, -⟩ := notMem_special hc
    simp [ascii, h.nil_iff, hescape]
  | plus h => simp [ascii]
  | @escape hi lo m n bytes text hhi hlo h =>
    have htwo : (m * 16 + n).toUInt8 = 50 ↔ hi = 51 ∧ lo = 50 :=
      escape_eq_iff hhi hlo (j := 3) (k := 2) (by decide) (by decide)
    change (m * 16 + n).toUInt8 :: bytes = [50] ↔ _
    rw [List.cons.injEq, htwo, h.nil_iff]
    simp [ascii, and_assoc]

theorem fits_cons (h : c ≠ 37 ∨ 2 ≤ cap) : Fits (cap + 1) (c :: text) ↔ Fits cap text := by
  unfold Fits
  match cap with
  | 0 | 1 =>
    have hc : c ≠ 37 := by simpa using h
    simp [ascii, hc]
  | cap + 2 => simp

/-- The induction is on the spelling; `cap` ends inside an escape only where it is 1 or 2. -/
theorem urlDecode_take_iff (h : Spells bytes text) : urlDecode (text.take cap) = bytes ↔ Fits cap text := by
  induction h generalizing cap with
  | nil => simp [urlDecode, Fits]
  | @raw c bytes text hc h ih =>
    obtain ⟨-, hescape, hplus, -, -⟩ := notMem_special hc
    cases cap with
    | zero => simp [urlDecode, Fits]
    | succ cap =>
      rw [List.take_succ_cons, urlDecode_cons hescape, if_neg hplus, List.cons.injEq, ih, fits_cons (.inl hescape)]
      simp
  | @plus bytes text h ih =>
    cases cap with
    | zero => simp [urlDecode, Fits]
    | succ cap =>
      rw [List.take_succ_cons, urlDecode_cons (by decide), if_pos rfl, List.cons.injEq, ih,
        fits_cons (.inl (by decide))]
      simp
  | @escape hi lo m n bytes text hhi hlo h ih =>
    have hhi37 := charToDigit_ne hhi (x := 37) (by decide)
    have hlo37 := charToDigit_ne hlo (x := 37) (by decide)
    have hpercent : (m * 16 + n).toUInt8 = 37 ↔ hi = 50 ∧ lo = 53 :=
      escape_eq_iff hhi hlo (j := 2) (k := 5) (by decide) (by decide)
    match cap with
    | 0 => simp [urlDecode, Fits]
    | 1 =>
      have hcut : urlDecode ((37 :: hi :: lo :: text).take 1) = [37] := rfl
      rw [hcut, eq_comm, List.cons.injEq, hpercent, h.nil_iff]
      simp [Fits, ascii, and_assoc]
    | 2 =>
      have hplus : hi ≠ 43 := charToDigit_ne hhi (by decide)
      have hcut : urlDecode ((37 :: hi :: lo :: text).take 2) = [37, hi] := by simp [urlDecode, hplus]
      have htwo : (hi = 50 ∧ lo = 53) ∧ bytes = [hi] ↔ (hi = 50 ∧ lo = 53) ∧ bytes = ascii "2" := by
        apply and_congr_right
        rintro ⟨rfl, -⟩
        rfl
      rw [hcut, eq_comm, List.cons.injEq, hpercent, htwo, h.two_iff]
      simp [Fits, ascii, and_assoc, and_or_left, hhi37]
    | cap + 3 =>
      simp only [List.take_succ_cons]
      rw [urlDecode_escape hhi hlo, List.cons.injEq, ih, fits_cons (.inr (by omega)), fits_cons (.inl hhi37),
        fits_cons (.inl hlo37)]
      simp

theorem Spells.zero_notMem_urlDecode (h : Spells bytes text) (hnul : 0 ∉ bytes) :
    0 ∉ urlDecode (text.take cap) := by
  induction h generalizing cap with
  | nil => simp [urlDecode]
  | @raw c bytes text hc h ih =>
    obtain ⟨-, hescape, hplus, -, -⟩ := notMem_special hc
    rw [List.mem_cons, not_or] at hnul
    cases cap with
    | zero => simp [urlDecode]
    | succ cap =>
      rw [List.take_succ_cons, urlDecode_cons hescape, if_neg hplus, List.mem_cons, not_or]
      exact ⟨hnul.1, ih hnul.2⟩
  | @plus bytes text h ih =>
    rw [List.mem_cons, not_or] at hnul
    cases cap with
    | zero => simp [urlDecode]
    | succ cap =>
      rw [List.take_succ_cons, urlDecode_cons (by decide), if_pos rfl, List.mem_cons, not_or]
      exact ⟨hnul.1, ih hnul.2⟩
  | @escape hi lo m n bytes text hhi hlo h ih =>
    rw [List.mem_cons, not_or] at hnul
    match cap with
    | 0 | 1 => simp [urlDecode]
    | 2 =>
      have hplus : hi ≠ 43 := charToDigit_ne hhi (by decide)
      have hzero : hi ≠ 0 := charToDigit_ne hhi (by decide)
      simp [urlDecode, hplus, hzero.symm]
    | cap + 3 =>
      simp only [List.take_succ_cons]
      rw [urlDecode_escape hhi hlo, List.mem_cons, not_or]
      exact ⟨hnul.1, ih hnul.2⟩

theorem cString_eq (h : 0 ∉ bytes) : cString bytes = bytes := by
  rw [cString, List.takeWhile_eq_self_iff]
  intro c hc
  have hne : c ≠ 0 := fun h0 => h (h0 ▸ hc)
  simpa using hne

theorem formField_of_after {body tail : Bytes} {key : String} (h : Spells bytes text) (hnul : 0 ∉ bytes)
    (hafter : after (ascii key ++ [61]) body = some (text ++ tail)) (htail : tail = [] ∨ ∃ rest, tail = 38 :: rest) :
    formField body key (cap + 1) = some (urlDecode (text.take cap)) := by
  have hamp : 38 ∉ text := h.notMem (.inr (.inl rfl))
  have hcut : (cut 38 (text ++ tail)).elim (text ++ tail) Prod.fst = text := by
    rcases htail with rfl | ⟨rest, rfl⟩
    · rw [List.append_nil, cut_eq_none hamp]
      rfl
    · rw [cut_append hamp]
      rfl
  rw [formField, hafter, Option.map_some, hcut, Nat.add_sub_cancel, cString_eq (h.zero_notMem_urlDecode hnul)]

end

section

variable {k₁ k₂ t₁ t₂ : Bytes}

theorem after_first (hkey : 61 ∉ k₁) :
    after (k₁ ++ [61]) (k₁ ++ [61] ++ t₁ ++ [38] ++ k₂ ++ [61] ++ t₂) = some (t₁ ++ 38 :: (k₂ ++ [61] ++ t₂)) := by
  have hbody : k₁ ++ [61] ++ t₁ ++ [38] ++ k₂ ++ [61] ++ t₂ = k₁ ++ 61 :: (t₁ ++ 38 :: (k₂ ++ [61] ++ t₂)) := by simp
  rw [hbody, after_concat hkey hkey, if_pos List.suffix_rfl]

theorem after_second (hfirst : 61 ∉ k₁) (hkey : 61 ∉ k₂) (hother : ¬k₂ <:+ k₁) (ht : 61 ∉ t₁) :
    after (k₂ ++ [61]) (k₁ ++ [61] ++ t₁ ++ [38] ++ k₂ ++ [61] ++ t₂) = some (t₂ ++ []) := by
  have hbody : k₁ ++ [61] ++ t₁ ++ [38] ++ k₂ ++ [61] ++ t₂ = k₁ ++ 61 :: (t₁ ++ [38] ++ k₂ ++ 61 :: t₂) := by simp
  have hfield : 61 ∉ t₁ ++ [38] ++ k₂ := by simp [ht, hkey]
  rw [hbody, after_concat hkey hfirst, if_neg hother, after_concat hkey hfield, if_pos (List.suffix_append _ _),
    List.append_nil]

end

structure Form (ssid pass st pt body : Bytes) : Prop where
  ssidLength : 1 ≤ ssid.length ∧ ssid.length ≤ 32
  passLength : pass.length ≤ 64
  noNul : 0 ∉ ssid ∧ 0 ∉ pass
  ssidSpells : Spells ssid st
  passSpells : Spells pass pt
  order : body = ascii "ssid" ++ [61] ++ st ++ [38] ++ ascii "pass" ++ [61] ++ pt ∨
    body = ascii "pass" ++ [61] ++ pt ++ [38] ++ ascii "ssid" ++ [61] ++ st
  length : body.length ≤ 255

section

variable {ssid pass st pt body : Bytes}

theorem Form.zero_notMem (h : Form ssid pass st pt body) : 0 ∉ body := by
  have hst : 0 ∉ st := h.ssidSpells.notMem (.inl ⟨rfl, h.noNul.1⟩)
  have hpt : 0 ∉ pt := h.passSpells.notMem (.inl ⟨rfl, h.noNul.2⟩)
  rcases h.order with rfl | rfl <;> simp [ascii, hst, hpt]

theorem Form.formField_ssid (h : Form ssid pass st pt body) :
    formField body "ssid" 33 = some (urlDecode (st.take 32)) := by
  have hpt : 61 ∉ pt := h.passSpells.notMem (.inr (.inr rfl))
  rcases h.order with rfl | rfl
  · exact formField_of_after h.ssidSpells h.noNul.1 (after_first (by decide)) (.inr ⟨_, rfl⟩)
  · exact formField_of_after h.ssidSpells h.noNul.1 (after_second (by decide) (by decide) (by decide) hpt) (.inl rfl)

theorem Form.formField_pass (h : Form ssid pass st pt body) :
    formField body "pass" 65 = some (urlDecode (pt.take 64)) := by
  have hst : 61 ∉ st := h.ssidSpells.notMem (.inr (.inr rfl))
  rcases h.order with rfl | rfl
  · exact formField_of_after h.passSpells h.noNul.2 (after_second (by decide) (by decide) (by decide) hst) (.inl rfl)
  · exact formField_of_after h.passSpells h.noNul.2 (after_first (by decide)) (.inr ⟨_, rfl⟩)

/-- The fields are cut before they are decoded, so that the escapes count against the buffers. -/
theorem credentials_survive_iff (h : Form ssid pass st pt body) :
    portalSave body = .stored ssid pass ↔ Fits 32 st ∧ Fits 64 pt := by
  have hne : body ≠ [] := by
    rcases h.order with rfl | rfl <;> simp
  have hssid : ssid ≠ [] := List.ne_nil_of_length_pos h.ssidLength.1
  have hbody : portalSave body = match some (urlDecode (st.take 32)) with
      | none | some [] => .refused ⟨400, "ssid required"⟩
      | some s => .stored s (urlDecode (pt.take 64)) := by
    rw [portalSave, List.take_of_length_le h.length]
    simp only [hne, if_false, cString_eq h.zero_notMem, h.formField_ssid, h.formField_pass, Option.getD_some]
  rw [hbody, ← urlDecode_take_iff h.ssidSpells, ← urlDecode_take_iff h.passSpells]
  cases hs : urlDecode (st.take 32) with
  | nil => simp [hssid.symm]
  | cons c s => simp

end

theorem credentials_survive_example :
    portalSave (ascii "ssid=%3D+x&pass=") = .stored (ascii "= x") [] ↔ Fits 32 (ascii "%3D+x") ∧ Fits 64 [] := by
  have hssid : Spells (ascii "= x") (ascii "%3D+x") :=
    .escape (m := 3) (n := 13) rfl rfl (.plus (.raw (by decide) .nil))
  exact credentials_survive_iff
    ⟨by decide, by decide, by decide, hssid, .nil, .inl rfl, by decide⟩

def umlauts : Bytes := (List.replicate 6 [195, 132]).flatten

theorem spells_umlauts : Spells umlauts (ascii "%C3%84%C3%84%C3%84%C3%84%C3%84%C3%84") := by
  have hpair {bytes text : Bytes} (h : Spells bytes text) :
      Spells (195 :: 132 :: bytes) (ascii "%C3%84" ++ text) :=
    .escape (m := 12) (n := 3) rfl rfl (.escape (m := 8) (n := 4) rfl rfl h)
  exact hpair (hpair (hpair (hpair (hpair (hpair .nil)))))

theorem credentials_cut : ∃ ssid pass st pt body, Form ssid pass st pt body ∧ portalSave body ≠ .stored ssid pass := by
  refine ⟨umlauts, ascii "x", ascii "%C3%84%C3%84%C3%84%C3%84%C3%84%C3%84", ascii "x",
    ascii "ssid=%C3%84%C3%84%C3%84%C3%84%C3%84%C3%84&pass=x", ?_, by decide⟩
  exact ⟨by decide, by decide, by decide, spells_umlauts, .raw (by decide) .nil, .inl rfl, by decide⟩

end HciBridge.WifiForm
