import HciBridge.Discovery

namespace HciBridge.Discovery

open Text
open Auth (Bytes ascii decimal)

inductive BuildError
  | noSpace
deriving DecidableEq, Repr

/-- `std.fmt.bufPrint` into a buffer of `cap` bytes -/
def bufPrint (cap : ℕ) (text : Bytes) : Except BuildError Bytes :=
  if text.length ≤ cap then .ok text else .error .noSpace

def buildAnnounce (cap : ℕ) (bdaddr : Bytes) (port : UInt16) (name sig : Bytes) : Except BuildError Bytes :=
  bufPrint cap (announceText bdaddr port.toNat name sig)

structure Fields where
  bdaddr : Bytes
  port : UInt16
  name : Bytes
  sig : Bytes
  bdaddr_length : bdaddr.length = 17
  bdaddr_tab : 9 ∉ bdaddr
  name_ne : name ≠ []
  name_tab : 9 ∉ name
  sig_tab : 9 ∉ sig

def Fields.announcement (f : Fields) : Announcement := ⟨f.bdaddr, f.port.toNat, f.name, f.sig⟩

def Fields.build (f : Fields) (cap : ℕ) : Except BuildError Bytes := buildAnnounce cap f.bdaddr f.port f.name f.sig

def Fields.size (f : Fields) : ℕ := 38 + (decimal f.port.toNat).length + f.name.length + f.sig.length

inductive Chomped : Bytes → Bytes → Prop
  | newline (line : Bytes) : Chomped (line ++ [10]) line
  | plain {line : Bytes} (h : 10 ∉ line.getLast?) : Chomped line line

variable {data line : Bytes} {ann : Announcement}

theorem Fields.parse_build (f : Fields) :
    parse (announceText f.bdaddr f.port.toNat f.name f.sig) = .ok (.announce f.announcement) :=
  parse_announceText f.bdaddr_length f.bdaddr_tab (Nat.le_of_lt_succ f.port.toNat_lt) f.name_ne f.name_tab f.sig_tab

theorem Fields.size_eq (f : Fields) : (announceText f.bdaddr f.port.toNat f.name f.sig).length = f.size := by
  have hbd := f.bdaddr_length
  simp only [announceText, magic, ascii, String.reduceToList, List.length_append, List.length_map, List.length_cons,
    List.length_nil, Fields.size]
  omega

theorem exists_chomped (data : Bytes) :
    Chomped data (if data.getLast? = some 10 then data.dropLast else data) := by
  split
  case isTrue h =>
    obtain ⟨line, rfl⟩ := List.getLast?_eq_some_iff.mp h
    rw [List.dropLast_concat]
    exact .newline line
  case isFalse h => exact .plain h

theorem chomped_eq (h : Chomped data line) : (if data.getLast? = some 10 then data.dropLast else data) = line := by
  cases h with
  | newline => simp
  | plain h => exact if_neg h

theorem parse_probe_iff (h : Chomped data line) :
    parse data = .ok .probe ↔ ∃ rest, line.splitOn 9 = magic :: ascii "PROBE" :: rest := by
  rw [parse, chomped_eq h]
  constructor
  · intro hparse
    split at hparse
    case h_1 => cases hparse
    case h_2 m rest hsplit =>
      split at hparse
      case isTrue => cases hparse
      case isFalse hmagic =>
        rw [not_not] at hmagic
        cases rest with
        | nil => cases hparse
        | cons kind fields =>
          by_cases hkind : kind = ascii "PROBE"
          · exact ⟨fields, by rw [hsplit, hmagic, hkind]⟩
          · simp only [hkind, if_false] at hparse
            split at hparse
            case isTrue => cases hparse
            case isFalse => cases hf : parseFields fields <;> simp [hf, Except.map] at hparse
  · rintro ⟨rest, hsplit⟩
    simp [hsplit]

theorem fields_of_parseFields {fields : List Bytes} (hfields : ∀ field ∈ fields, 9 ∉ field)
    (h : parseFields fields = .ok ann) : ∃ f : Fields, f.announcement = ann := by
  unfold parseFields at h
  split at h
  case h_1 bdaddr portText name rest =>
    split at h
    case isTrue => cases h
    case isFalse =>
      split at h
      case isTrue => cases h
      case isFalse hbd =>
        split at h
        case h_1 => cases h
        case h_2 port hport =>
          split at h
          case isTrue => cases h
          case isFalse hname =>
            cases h
            have hlt : port < UInt16.size := Nat.lt_succ_of_le (parseInt_le hport)
            simp only [List.forall_mem_cons] at hfields
            have hsig : 9 ∉ rest.head?.getD (ascii "-") := by
              cases rest with
              | nil => decide
              | cons sig rest => exact hfields.2.2.2 sig List.mem_cons_self
            refine ⟨⟨bdaddr, UInt16.ofNat port, name, rest.head?.getD (ascii "-"), not_not.mp hbd, hfields.1, hname,
              hfields.2.2.1, hsig⟩, ?_⟩
            simp only [Fields.announcement, UInt16.toNat_ofNat_of_lt' hlt]
  case h_2 => cases h

theorem fields_of_parse (h : parse data = .ok (.announce ann)) : ∃ f : Fields, f.announcement = ann := by
  rw [parse] at h
  have htab := fun field (hmem : field ∈ (if data.getLast? = some 10 then data.dropLast else data).splitOn 9) =>
    notMem_of_mem_splitOn hmem
  split at h
  case h_1 => cases h
  case h_2 m rest hsplit =>
    rw [hsplit] at htab
    split at h
    case isTrue => cases h
    case isFalse =>
      cases rest with
      | nil => cases h
      | cons kind fields =>
        dsimp only at h
        split at h
        case isTrue => cases h
        case isFalse =>
          split at h
          case isTrue => cases h
          case isFalse =>
            cases hf : parseFields fields with
            | error e =>
              rw [hf] at h
              cases h
            | ok ann' =>
              rw [hf] at h
              cases h
              exact fields_of_parseFields (fun field hmem => htab field (by simp [hmem])) hf

theorem Fields.build_ok {f : Fields} {cap : ℕ} (h : f.size ≤ cap) :
    ∃ text, f.build cap = .ok text ∧ parse text = .ok (.announce f.announcement) :=
  ⟨_, if_pos (f.size_eq ▸ h), f.parse_build⟩

theorem codec_round_trip :
    (∀ (f : Fields) (cap : ℕ),
      f.build cap = .error .noSpace ∧ cap < f.size ∨
        f.size ≤ cap ∧ ∃ text, f.build cap = .ok text ∧ parse text = .ok (.announce f.announcement)) ∧
    (∀ data ann, parse data = .ok (.announce ann) →
      ∃ f : Fields, f.announcement = ann ∧ ∀ cap, f.size ≤ cap →
        ∃ text, f.build cap = .ok text ∧ parse text = .ok (.announce ann)) ∧
    ∀ data, (∃ line, Chomped data line) ∧ ∀ line, Chomped data line →
      (parse data = .ok .probe ↔ ∃ rest, line.splitOn 9 = magic :: ascii "PROBE" :: rest) := by
  refine ⟨?_, ?_, ?_⟩
  · intro f cap
    by_cases h : f.size ≤ cap
    · exact .inr ⟨h, f.build_ok h⟩
    · refine .inl ⟨?_, not_le.mp h⟩
      exact if_neg (f.size_eq ▸ h)
  · intro data ann h
    obtain ⟨f, rfl⟩ := fields_of_parse h
    exact ⟨f, rfl, fun cap hcap => f.build_ok hcap⟩
  · intro data
    exact ⟨⟨_, exists_chomped data⟩, fun line => parse_probe_iff⟩

end HciBridge.Discovery
