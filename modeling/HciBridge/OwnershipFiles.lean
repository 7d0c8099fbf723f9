import HciBridge.OwnershipSteps

namespace HciBridge.Ownership

open Auth (Bytes Block Psk ascii bdaddrText)
open Config
open Reload
open HostClaim (Curve BoardInfo dropinName claimLine claimedPsk writeFile saveClaim)
open SavedClaim (Files.without Savable entryKey_of_other)
open Revoke (Deleted deleteFile revoke)

section Address

theorem savable_bdaddrText (mac : Block 6) : Savable (bdaddrText mac) := by
  have hrange {c : UInt8} (hc : c.toNat < 48) (hcolon : c ≠ 58) : c ∉ bdaddrText mac :=
    KeyProtocol.Firmware.notMem_bdaddrText (fun n hn h => by have := (Auth.hexDigit_range hn).1; rw [h] at this; omega)
      hcolon
  refine ⟨hrange (by decide) (by decide), ?_, ?_, ?_, ?_⟩
  · exact KeyProtocol.Firmware.notMem_bdaddrText (by decide) (by decide)
  · intro c hc hblank
    have hmem := List.mem_of_head? (Option.mem_def.mp hc)
    rcases List.mem_pair.mp hblank with rfl | rfl
    · exact hrange (by decide) (by decide) hmem
    · exact hrange (by decide) (by decide) hmem
  · intro c hc hblank
    rw [List.mem_singleton] at hblank
    subst hblank
    exact hrange (by decide) (by decide) (List.mem_of_getLast? (Option.mem_def.mp hc))
  · apply hasComment_eq_false_of_notMem
    · exact hrange (by decide) (by decide)
    · exact KeyProtocol.Firmware.notMem_bdaddrText (by decide) (by decide)

theorem plain_bdaddrText (mac : Block 6) : 47 ∉ bdaddrText mac ∧ 0 ∉ bdaddrText mac :=
  ⟨KeyProtocol.Firmware.notMem_bdaddrText (by decide) (by decide),
    KeyProtocol.Firmware.notMem_bdaddrText (by decide) (by decide)⟩

end Address

section

variable {site : Site} {files files' : Files}

def Site.name (site : Site) : Bytes := dropinName (bdaddrText site.mac)

def Site.rest (site : Site) : List Entry := site.dropIns.filter fun e => e.name ≠ site.name

def Site.key (site : Site) (files : Files) : Option Psk :=
  (loadKeys files site.env site.cfgPath).toOption.bind fun keys => lookupPsk keys.psk (bdaddrText site.mac)

def Site.Has (site : Site) (files : Files) : Prop :=
  ∃ entries, files = ⟨site.main, .listing entries none⟩ ∧ (entries.filter fun e => e.name ≠ site.name) = site.rest

def Site.Written (site : Site) (files : Files) : Prop :=
  ∃ e : Entry, e.name = site.name ∧ e.kind ≠ .directory ∧ files = ⟨site.main, .listing (site.rest ++ [e]) none⟩

theorem Site.has_files (site : Site) : site.Has site.files := ⟨site.dropIns, rfl, rfl⟩

theorem Site.Has.without (h : site.Has files) :
    Files.without files site.name = ⟨site.main, .listing site.rest none⟩ := by
  obtain ⟨entries, rfl, hrest⟩ := h
  simp only [Files.without, hrest]

theorem Site.has_rest (site : Site) : site.Has ⟨site.main, .listing site.rest none⟩ := by
  refine ⟨site.rest, rfl, ?_⟩
  simp only [Site.rest, List.filter_filter, Bool.and_self]

theorem Site.others_eq (site : Site) :
    ∀ e ∈ confItems ⟨site.main, .listing site.rest none⟩ site.cfgPath ++ envItems (getPosix site.env),
      SavedClaim.entryFor (bdaddrText site.mac) e = false := by
  have h := site.others
  rwa [show Files.without ⟨site.main, .listing site.dropIns none⟩ (dropinName (bdaddrText site.mac)) =
    ⟨site.main, .listing site.rest none⟩ from site.has_files.without] at h

theorem Site.key_rest (site : Site) : site.key ⟨site.main, .listing site.rest none⟩ = none := by
  obtain ⟨keys, hkeys, hpsk⟩ := loadKeys_spec ⟨site.main, .listing site.rest none⟩ site.env site.cfgPath
  rw [Site.key, hkeys]
  simp only [Except.toOption, Option.bind_some, lookupPsk, List.findSome?_eq_none_iff, List.mem_reverse]
  intro e he
  rw [hpsk] at he
  exact entryKey_of_other (site.others_eq e he)

theorem Site.plain_name (site : Site) : 47 ∉ site.name ∧ 0 ∉ site.name := by
  obtain ⟨hslash, hzero⟩ := plain_bdaddrText site.mac
  rw [Site.name, SavedClaim.mem_dropinName (.inl rfl), SavedClaim.mem_dropinName (.inr rfl)]
  exact ⟨hslash, hzero⟩

theorem Site.deleteFile_eq (h : site.Has files) (disk : Revoke.Disk) :
    ∃ entries, files.dropIns = .listing entries none ∧
      deleteFile disk files site.name =
        match entries.find? fun e => e.name = site.name with
        | none => .notFound
        | some e =>
          if e.kind = .directory ∨ disk.writable = false then .failed
          else .removed ⟨site.main, .listing site.rest none⟩ := by
  have hwithout := h.without
  obtain ⟨entries, rfl, -⟩ := h
  obtain ⟨hslash, hzero⟩ := site.plain_name
  refine ⟨entries, rfl, ?_⟩
  rw [deleteFile, if_neg hzero, if_neg hslash]
  cases hfind : entries.find? fun e => e.name = site.name with
  | none => simp only [hfind]
  | some e => simp only [hfind, hwithout]

theorem Site.deleteFile_cases (h : site.Has files) (disk : Revoke.Disk) :
    deleteFile disk files site.name = .notFound ∨ deleteFile disk files site.name = .failed ∨
      deleteFile disk files site.name = .removed ⟨site.main, .listing site.rest none⟩ := by
  obtain ⟨entries, -, hdel⟩ := site.deleteFile_eq h disk
  rw [hdel]
  split
  case h_1 => exact .inl rfl
  case h_2 =>
    split
    case isTrue => exact .inr (.inl rfl)
    case isFalse => exact .inr (.inr rfl)

theorem Site.revoke_spec (h : site.Has files) (disk : Revoke.Disk) {code : Option ℕ}
    (hrevoke : revoke disk files site.env site.cfgPath (bdaddrText site.mac) = (code, files')) :
    site.Has files' ∧ (code = some 0 → site.key files' = none) := by
  have hlen := KeyProtocol.Firmware.bdaddrText_length site.mac
  rw [revoke, if_neg (not_not.mpr hlen), if_neg (Nat.not_lt.mpr site.fits)] at hrevoke
  rcases site.deleteFile_cases h disk with hdel | hdel | hdel
  · rw [show deleteFile disk files (dropinName (bdaddrText site.mac)) = .notFound from hdel] at hrevoke
    dsimp only at hrevoke
    split at hrevoke
    case h_1 =>
      cases hrevoke
      exact ⟨h, fun hcode => by cases hcode⟩
    case h_2 keys hkeys =>
      split at hrevoke
      case isTrue =>
        cases hrevoke
        exact ⟨h, fun hcode => by cases hcode⟩
      case isFalse hnone =>
        cases hrevoke
        refine ⟨h, fun _ => ?_⟩
        rw [Site.key, hkeys]
        exact Option.not_isSome_iff_eq_none.mp hnone
  · rw [show deleteFile disk files (dropinName (bdaddrText site.mac)) = .failed from hdel] at hrevoke
    cases hrevoke
    exact ⟨h, fun hcode => by cases hcode⟩
  · rw [show deleteFile disk files (dropinName (bdaddrText site.mac)) = .removed _ from hdel] at hrevoke
    cases hrevoke
    exact ⟨site.has_rest, fun _ => site.key_rest⟩

theorem Site.has_writeFile (h : site.Has files) (disk : HostClaim.Disk) (data : Bytes) :
    site.Has (writeFile disk files site.name data).2 := by
  obtain ⟨hslash, hzero⟩ := site.plain_name
  have hhas := h
  obtain ⟨entries, rfl, hrest⟩ := h
  rw [writeFile, if_neg hslash]
  split
  case isTrue => exact hhas
  case isFalse =>
    dsimp only
    split
    case isTrue => exact hhas
    case isFalse =>
      refine ⟨_, rfl, ?_⟩
      simp [← hrest]

theorem Site.has_saveClaim (h : site.Has files) {disk : HostClaim.Disk} {psk : Psk} {code : Option ℕ}
    (hsave : saveClaim disk files site.cfgPath (bdaddrText site.mac) psk = (code, files')) : site.Has files' := by
  have hwrite := site.has_writeFile h disk (claimLine (bdaddrText site.mac) psk)
  rw [Site.name] at hwrite
  unfold saveClaim at hsave
  split at hsave
  case isTrue =>
    cases hsave
    exact h
  case isFalse =>
    split at hsave
    case isTrue =>
      cases hsave
      exact h
    case isFalse =>
      split at hsave
      case h_1 hfiles | h_2 hfiles =>
        cases hsave
        rwa [hfiles] at hwrite

theorem Site.saveClaim_spec (h : site.Has files) {disk : HostClaim.Disk} {psk : Psk}
    (hsave : saveClaim disk files site.cfgPath (bdaddrText site.mac) psk = (some 0, files')) :
    site.Written files' ∧ site.key files' = some psk := by
  have hwithout := h.without
  obtain ⟨entries, rfl, hrest⟩ := h
  have hslash := (plain_bdaddrText site.mac).1
  have hread : SavedClaim.Readable ⟨site.main, .listing entries none⟩ site.cfgPath := by
    obtain ⟨pairs, hpairs⟩ := site.readable
    exact loadRaw_listing_ok hpairs _
  obtain ⟨hplace, hsaved⟩ := SavedClaim.saved_of_saveClaim hsave
  obtain ⟨pairs, hpairs⟩ := (SavedClaim.readable_saved hplace.1 hslash hsaved).mpr hread
  constructor
  · obtain ⟨entries', kind, hentries, hkind, rfl⟩ := SavedClaim.saveClaim_listing hslash hsave hpairs
    cases hentries
    refine ⟨⟨site.name, kind, .content (claimLine (bdaddrText site.mac) psk)⟩, rfl, hkind.1, ?_⟩
    rw [← hrest]
    rfl
  · have hother : SavedClaim.NoOther ⟨site.main, .listing entries none⟩ site.cfgPath site.env
        (bdaddrText site.mac) := by
      rw [SavedClaim.NoOther, show Files.without _ (dropinName (bdaddrText site.mac)) = _ from hwithout]
      exact site.others_eq
    obtain ⟨keys, hkeys, hlookup⟩ :=
      SavedClaim.key_found (savable_bdaddrText site.mac) hslash hsave hpairs hother
    rw [Site.key, hkeys]
    exact hlookup

theorem Site.has_claim (h : site.Has files) {c : Curve} {disk : HostClaim.Disk} {status reply : Bytes}
    {info : BoardInfo} {secretKey : Block 32} {st : ℕ} {code : Option ℕ}
    (hinfo : HostClaim.boardInfo status = some info) (hbdaddr : info.bdaddr = bdaddrText site.mac)
    (hclaim : HostClaim.claim c disk files site.cfgPath status secretKey st reply = (code, files')) :
    site.Has files' := by
  simp only [HostClaim.claim, hinfo, hbdaddr] at hclaim
  repeat' split at hclaim
  all_goals first
    | exact site.has_saveClaim h hclaim
    | cases hclaim; exact h

theorem Site.claim_spec (h : site.Has files) {c : Curve} {disk : HostClaim.Disk} {status reply : Bytes}
    {info : BoardInfo} {secretKey : Block 32} {st : ℕ} {code : Option ℕ}
    (hinfo : HostClaim.boardInfo status = some info) (hbdaddr : info.bdaddr = bdaddrText site.mac)
    (hclaim : HostClaim.claim c disk files site.cfgPath status secretKey st reply = (code, files')) :
    site.Has files' ∧ (code = some 0 →
      ∃ psk, claimedPsk c secretKey st reply = some psk ∧ site.Written files' ∧ site.key files' = some psk) := by
  refine ⟨site.has_claim h hinfo hbdaddr hclaim, ?_⟩
  rintro rfl
  obtain ⟨psk, hpsk, hsave⟩ := SavedClaim.claim_zero hinfo hclaim
  rw [hbdaddr] at hsave
  exact ⟨psk, hpsk, site.saveClaim_spec h hsave⟩

end

end HciBridge.Ownership
