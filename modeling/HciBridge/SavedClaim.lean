import HciBridge.HostClaim

namespace HciBridge.SavedClaim

open Text
open Auth (Bytes Block Psk ascii pskToHex)
open Config
open Reload
open HostClaim

structure Savable (bdaddr : Bytes) : Prop where
  noNewline : 10 ∉ bdaddr
  noEquals : 61 ∉ bdaddr
  noLeadingBlank : ∀ c ∈ bdaddr.head?, c ∉ ([32, 9] : Bytes)
  noTrailingSpace : ∀ c ∈ bdaddr.getLast?, c ∉ ([32] : Bytes)
  noComment : hasComment (some 32) bdaddr = false

theorem pskToHex_last (psk : Psk) : ∀ c ∈ (pskToHex psk).getLast?, 48 ≤ c.toNat := by
  intro c hc
  obtain ⟨n, hn, rfl⟩ := Auth.mem_hexlify (List.mem_of_getLast? hc)
  exact (Auth.hexDigit_range hn).1

theorem pskToHex_ne_nil (psk : Psk) : pskToHex psk ≠ [] := by
  intro h
  have := congrArg List.length h
  simp [pskToHex, psk.length_eq] at this

theorem last_append_hex (a : Bytes) (psk : Psk) (strip : Bytes) (hstrip : ∀ c ∈ strip, c.toNat < 48) :
    ∀ c ∈ (a ++ pskToHex psk).getLast?, c ∉ strip := by
  intro c hc hmem
  rw [List.getLast?_append_of_ne_nil _ (pskToHex_ne_nil psk)] at hc
  have := pskToHex_last psk c hc
  have := hstrip c hmem
  omega

theorem trim_hex (psk : Psk) (strip : Bytes) (hstrip : ∀ c ∈ strip, c.toNat < 48) :
    trim strip (pskToHex psk) = pskToHex psk := by
  apply trim_eq_self
  · intro c hc hmem
    obtain ⟨n, hn, rfl⟩ := Auth.mem_hexlify (List.mem_of_head? hc)
    have := (Auth.hexDigit_range hn).1
    have := hstrip _ hmem
    omega
  · exact last_append_hex [] psk strip hstrip

theorem notMem_hex_of_lt (psk : Psk) {c : UInt8} (hc : c.toNat < 48) : c ∉ pskToHex psk := by
  intro h
  obtain ⟨n, hn, rfl⟩ := Auth.mem_hexlify h
  have := (Auth.hexDigit_range hn).1
  omega

def claimText (bdaddr : Bytes) (psk : Psk) : Bytes :=
  ascii "psk = " ++ (bdaddr ++ 61 :: pskToHex psk)

theorem claimLine_eq (bdaddr : Bytes) (psk : Psk) : claimLine bdaddr psk = claimText bdaddr psk ++ [10] := by
  simp only [claimLine, claimText, List.append_assoc]
  rfl

theorem entryKey_saved {bdaddr : Bytes} (psk : Psk) (h : Savable bdaddr) :
    entryKey bdaddr (bdaddr ++ 61 :: pskToHex psk) = some psk := by
  have hname : trim [32] bdaddr = bdaddr := by
    apply trim_eq_self _ h.noTrailingSpace
    intro c hc hmem
    rw [List.mem_singleton] at hmem
    exact h.noLeadingBlank c hc (by simp [hmem])
  rw [entryKey, cut_append h.noEquals]
  simp only [hname, eqlIgnoreCase_self, if_true, trim_hex psk [32] (by simp)]
  exact Auth.hexToBlock_hexlify psk

theorem applyTextFrom_claimLine {bdaddr : Bytes} (psk : Psk) (h : 10 ∉ bdaddr) (source : Bytes) :
    applyTextFrom [] (claimLine bdaddr psk) source = (applyLine source (claimText bdaddr psk)).toList := by
  have hline : 10 ∉ claimText bdaddr psk := by
    simp only [claimText, List.mem_append, List.mem_cons, not_or]
    exact ⟨by decide, h, by decide, notMem_hex_of_lt psk (by decide)⟩
  rw [claimLine_eq, applyTextFrom, List.splitOn_append_cons_self_of_not_mem hline, List.nil_append]
  have hempty : applyLine source [] = none := rfl
  cases hp : applyLine source (claimText bdaddr psk) <;> simp [hp, hempty]

theorem hasComment_claimText {bdaddr : Bytes} (psk : Psk) (h : hasComment (some 32) bdaddr = false) :
    stripComment (claimText bdaddr psk) = claimText bdaddr psk := by
  have hhead : hasComment none (ascii "psk = ") = false := by decide
  have hhex : hasComment (bdaddr.getLast?.or (some 32)) (61 :: pskToHex psk) = false := by
    apply hasComment_eq_false_of_notMem
    · simp only [List.mem_cons, not_or]
      exact ⟨by decide, notMem_hex_of_lt psk (by decide)⟩
    · simp only [List.mem_cons, not_or]
      exact ⟨by decide, Auth.notMem_hexlify (by decide)⟩
  rw [stripComment, claimText, stripCommentFrom_append hhead]
  have hlast : (ascii "psk = ").getLast?.or none = some 32 := by decide
  rw [hlast, stripCommentFrom_append h, stripCommentFrom_eq_self hhex]

theorem applyLine_claimText {bdaddr : Bytes} (psk : Psk) (h : Savable bdaddr) (source : Bytes) :
    applyLine source (claimText bdaddr psk) = some ⟨ascii "psk", bdaddr ++ 61 :: pskToHex psk, source⟩ := by
  have htrim : trim [32, 9, 13] (claimText bdaddr psk) = claimText bdaddr psk := by
    apply trim_eq_self
    · intro c hc
      cases hc
      decide
    · have := last_append_hex (ascii "psk = " ++ (bdaddr ++ [61])) psk [32, 9, 13] (by simp)
      simpa [claimText] using this
  have hval : trim [32, 9] (32 :: (bdaddr ++ 61 :: pskToHex psk)) = bdaddr ++ 61 :: pskToHex psk := by
    rw [trim_cons (by decide)]
    apply trim_eq_self
    · intro c hc
      cases hbd : bdaddr with
      | nil =>
        simp only [hbd, List.nil_append, List.head?_cons, Option.mem_def, Option.some.injEq] at hc
        rw [← hc]
        decide
      | cons b bs =>
        simp only [hbd, List.cons_append, List.head?_cons] at hc
        exact h.noLeadingBlank c (by rw [hbd]; exact hc)
    · have := last_append_hex (bdaddr ++ [61]) psk [32, 9] (by simp)
      simpa using this
  have hcut : cut 61 (claimText bdaddr psk) = some (ascii "psk ", 32 :: (bdaddr ++ 61 :: pskToHex psk)) :=
    cut_eq_some.mpr ⟨rfl, by decide⟩
  have hkey : trim [32, 9] (ascii "psk ") = ascii "psk" := by decide
  have hne : claimText bdaddr psk ≠ [] := by simp [claimText, ascii]
  simp only [applyLine, hasComment_claimText psk h.noComment, htrim, if_neg hne, hcut, hkey, hval]
  rfl

def entryFor (bdaddr entry : Bytes) : Bool :=
  match cut 61 entry with
  | none => false
  | some (before, _) => eqlIgnoreCase (trim [32] before) bdaddr

def Files.without (files : Files) (name : Bytes) : Files :=
  match files.dropIns with
  | .listing entries err => { files with dropIns := .listing (entries.filter fun e => e.name ≠ name) err }
  | _ => files

theorem entryKey_of_other {bdaddr e : Bytes} (h : entryFor bdaddr e = false) : entryKey bdaddr e = none := by
  cases hcut : cut 61 e with
  | none => simp only [entryKey, hcut]
  | some p =>
    obtain ⟨before, after⟩ := p
    simp only [entryFor, hcut] at h
    simp only [entryKey, hcut, h, Bool.false_eq_true, if_false]

def NoOther (files : Files) (cfgPath : Bytes) (env : Environ) (bdaddr : Bytes) : Prop :=
  ∀ e ∈ confItems (Files.without files (dropinName bdaddr)) cfgPath ++ envItems (getPosix env),
    entryFor bdaddr e = false

def Readable (files : Files) (cfgPath : Bytes) : Prop := ∃ pairs, loadRaw files cfgPath = .ok pairs

/-- There is a place for the drop-in: the path fits, and a file of that name can be there. -/
def HasPlace (files : Files) (cfgPath bdaddr : Bytes) : Prop :=
  (cfgPath ++ ascii ".d/" ++ dropinName bdaddr).length ≤ 512 ∧ 0 ∉ bdaddr ∧
    (47 ∈ bdaddr ∨
      match files.dropIns with
      | .absent | .notDir => False
      | .failed _ => True
      | .listing entries _ =>
        ∀ e, (entries.find? fun e => e.name = dropinName bdaddr) = some e → e.kind ≠ .directory ∧ e.kind ≠ .special)

theorem mem_dropinName {bdaddr : Bytes} {c : UInt8} (h : c = 47 ∨ c = 0) :
    c ∈ dropinName bdaddr ↔ c ∈ bdaddr := by
  have hends : c ∉ ascii "board-" ∧ c ∉ ascii ".conf" := by
    rcases h with rfl | rfl <;> decide
  have hmap : ∀ x : UInt8, (if x = 58 then 45 else lower x) = c ↔ x = c := by
    intro x
    have hlt : c < 65 := by rcases h with rfl | rfl <;> decide
    by_cases hx : x = 58
    · subst hx
      rcases h with rfl | rfl <;> decide
    · rw [if_neg hx, lower_eq_iff hlt]
  simp only [dropinName, List.mem_append, hends.1, hends.2, List.mem_map, hmap, false_or, or_false,
    exists_eq_right]

theorem saveClaim_zero {disk : Disk} {files files' : Files} {cfgPath bdaddr : Bytes} {psk : Psk}
    (h : saveClaim disk files cfgPath bdaddr psk = (some 0, files')) :
    (cfgPath ++ ascii ".d/" ++ dropinName bdaddr).length ≤ 512 ∧
      writeFile disk files (dropinName bdaddr) (claimLine bdaddr psk) = (true, files') := by
  unfold saveClaim at h
  split at h
  case isTrue => cases h
  case isFalse =>
    split at h
    case isTrue => cases h
    case isFalse hlen =>
      split at h
      case h_1 hwrite =>
        cases h
        exact ⟨Nat.not_lt.mp hlen, hwrite⟩
      case h_2 => cases h

def withDropin (entries : List Entry) (bdaddr : Bytes) (psk : Psk) (kind : EntryKind) : List Entry :=
  (entries.filter fun e => e.name ≠ dropinName bdaddr) ++ [⟨dropinName bdaddr, kind, .content (claimLine bdaddr psk)⟩]

inductive Saved (files : Files) (bdaddr : Bytes) (psk : Psk) : Files → Prop
  | elsewhere (files' : Files) (hslash : 47 ∈ bdaddr) : Saved files bdaddr psk files'
  | unlisted (err : ReadError) (hdir : files.dropIns = .failed err) : Saved files bdaddr psk files
  | listed (entries : List Entry) (err : Option ReadError) (kind : EntryKind)
      (hdir : files.dropIns = .listing entries err) (hkind : kind ≠ .directory ∧ kind ≠ .special) :
      Saved files bdaddr psk ⟨files.main, .listing (withDropin entries bdaddr psk kind) err⟩

theorem saved_of_saveClaim {disk : Disk} {files files' : Files} {cfgPath bdaddr : Bytes} {psk : Psk}
    (h : saveClaim disk files cfgPath bdaddr psk = (some 0, files')) :
    HasPlace files cfgPath bdaddr ∧ Saved files bdaddr psk files' := by
  obtain ⟨hlen, hwrite⟩ := saveClaim_zero h
  unfold writeFile at hwrite
  split at hwrite
  case isTrue => cases hwrite
  case isFalse hzero =>
    rw [not_or, mem_dropinName (Or.inr rfl)] at hzero
    split at hwrite
    case isTrue hslash =>
      rw [mem_dropinName (Or.inl rfl)] at hslash
      exact ⟨⟨hlen, hzero.1, .inl hslash⟩, .elsewhere files' hslash⟩
    case isFalse =>
      obtain ⟨main, dropIns⟩ := files
      cases dropIns with
      | absent => cases hwrite
      | notDir => cases hwrite
      | failed err =>
        rw [Prod.mk.injEq] at hwrite
        obtain ⟨-, rfl⟩ := hwrite
        exact ⟨⟨hlen, hzero.1, .inr trivial⟩, .unlisted err rfl⟩
      | listing entries err =>
        dsimp only at hwrite
        split at hwrite
        case isTrue => cases hwrite
        case isFalse hkind =>
          rw [not_or] at hkind
          rw [Prod.mk.injEq, Option.isNone_iff_eq_none] at hwrite
          obtain ⟨hcut, rfl⟩ := hwrite
          refine ⟨⟨hlen, hzero.1, .inr fun e he => ?_⟩, ?_⟩
          · simpa [he] using hkind
          · rw [hcut]
            exact .listed entries err _ rfl hkind

theorem dpath_length {cfgPath name : Bytes} (h : (cfgPath ++ ascii ".d/" ++ name).length ≤ 512) :
    (cfgPath ++ ascii ".d").length ≤ 512 := by
  have hslash : (ascii ".d/").length = 3 := rfl
  have hd : (ascii ".d").length = 2 := rfl
  simp only [List.length_append] at h ⊢
  omega

theorem isFragment_dropin (bdaddr : Bytes) (psk : Psk) {kind : EntryKind} (h : kind ≠ .directory ∧ kind ≠ .special) :
    Entry.isFragment ⟨dropinName bdaddr, kind, .content (claimLine bdaddr psk)⟩ = true := by
  have hsuffix : ascii ".conf" <:+ dropinName bdaddr := List.suffix_append _ _
  simp only [Entry.isFragment, hsuffix, and_true, decide_eq_true_eq]
  cases kind <;> simp at h ⊢

theorem readable_saved {files files' : Files} {cfgPath bdaddr : Bytes} {psk : Psk}
    (hlen : (cfgPath ++ ascii ".d/" ++ dropinName bdaddr).length ≤ 512) (hslash : 47 ∉ bdaddr)
    (h : Saved files bdaddr psk files') : Readable files' cfgPath ↔ Readable files cfgPath := by
  obtain ⟨main, dropIns⟩ := files
  cases h with
  | elsewhere _ h => exact absurd h hslash
  | unlisted => exact Iff.rfl
  | listed entries err kind hdir =>
    cases hdir
    cases err with
    | none =>
      constructor
      · rintro ⟨pairs, hpairs⟩
        exact loadRaw_listing_ok hpairs _
      · rintro ⟨pairs, hpairs⟩
        exact loadRaw_listing_ok hpairs _
    | some err =>
      have hbad : ∀ es, ¬ Readable ⟨main, .listing es (some err)⟩ cfgPath := by
        rintro es ⟨pairs, hpairs⟩
        exact loadRaw_unreadable_dir (dpath_length hlen) (Or.inr ⟨_, rfl⟩) pairs hpairs
      exact iff_of_false (hbad _) (hbad _)

theorem saveClaim_listing {disk : Disk} {files files' : Files} {cfgPath bdaddr : Bytes} {psk : Psk}
    {pairs : List Pair} (hslash : 47 ∉ bdaddr)
    (h : saveClaim disk files cfgPath bdaddr psk = (some 0, files')) (hok : loadRaw files' cfgPath = .ok pairs) :
    ∃ entries kind, files.dropIns = .listing entries none ∧ (kind ≠ .directory ∧ kind ≠ .special) ∧
      files' = ⟨files.main, .listing (withDropin entries bdaddr psk kind) none⟩ := by
  obtain ⟨⟨hlen, -⟩, hsaved⟩ := saved_of_saveClaim h
  obtain ⟨main, dropIns⟩ := files
  cases hsaved with
  | elsewhere _ h => exact absurd h hslash
  | unlisted err hdir =>
    cases hdir
    exact absurd hok (loadRaw_unreadable_dir (dpath_length hlen) (Or.inl rfl) pairs)
  | listed entries err kind hdir hkind =>
    cases hdir
    cases err with
    | some err => exact absurd hok (loadRaw_unreadable_dir (dpath_length hlen) (Or.inr ⟨_, rfl⟩) pairs)
    | none => exact ⟨entries, kind, rfl, hkind, rfl⟩

def savedPair (cfgPath bdaddr : Bytes) (psk : Psk) : Pair :=
  ⟨ascii "psk", bdaddr ++ 61 :: pskToHex psk, cfgPath ++ ascii ".d" ++ ascii "/" ++ dropinName bdaddr⟩

theorem fragmentPairs_saved {cfgPath bdaddr : Bytes} (psk : Psk) (kind : EntryKind) (h : Savable bdaddr)
    (hlen : (cfgPath ++ ascii ".d/" ++ dropinName bdaddr).length ≤ 512) :
    fragmentPairs (cfgPath ++ ascii ".d") ⟨dropinName bdaddr, kind, .content (claimLine bdaddr psk)⟩ =
      [savedPair cfgPath bdaddr psk] := by
  have hpath : ¬ 640 < (cfgPath ++ ascii ".d" ++ ascii "/" ++ dropinName bdaddr).length := by
    have hd : ascii ".d/" = ascii ".d" ++ ascii "/" := rfl
    rw [hd, ← List.append_assoc cfgPath] at hlen
    omega
  rw [fragmentPairs, applyFragment]
  simp only [if_neg hpath, readFile]
  rw [applyTextFrom_claimLine psk h.noNewline, applyLine_claimText psk h]
  rfl

theorem mem_saved_pairs {disk : Disk} {files files' : Files} {cfgPath bdaddr : Bytes} {psk : Psk}
    {pairs : List Pair} (hsav : Savable bdaddr) (hslash : 47 ∉ bdaddr)
    (h : saveClaim disk files cfgPath bdaddr psk = (some 0, files')) (hok : loadRaw files' cfgPath = .ok pairs) :
    ∃ pairs', loadRaw (Files.without files (dropinName bdaddr)) cfgPath = .ok pairs' ∧
      ∀ p, p ∈ pairs ↔ p ∈ pairs' ∨ p = savedPair cfgPath bdaddr psk := by
  obtain ⟨entries, kind, hdir, hkind, rfl⟩ := saveClaim_listing hslash h hok
  obtain ⟨hlen, -⟩ := saveClaim_zero h
  have hfrag := isFragment_dropin bdaddr psk hkind
  have hwithout : Files.without files (dropinName bdaddr) =
      ⟨files.main, .listing (entries.filter fun e => e.name ≠ dropinName bdaddr) none⟩ := by
    rw [Files.without, hdir]
  rw [hwithout]
  obtain ⟨pairs', hpairs'⟩ :=
    loadRaw_listing_ok hok (entries.filter fun e => e.name ≠ dropinName bdaddr)
  refine ⟨pairs', hpairs', ?_⟩
  intro p
  rw [mem_loadRaw_listing (dpath_length hlen) hok, mem_loadRaw_listing (dpath_length hlen) hpairs']
  simp only [withDropin, List.mem_append, List.mem_singleton, or_and_right, exists_or, exists_eq_left, hfrag, true_and,
    fragmentPairs_saved psk kind hsav hlen, or_assoc]

theorem key_found {disk : Disk} {files files' : Files} {cfgPath bdaddr : Bytes} {psk : Psk} {env : Environ}
    {pairs : List Pair} (hsav : Savable bdaddr) (hslash : 47 ∉ bdaddr)
    (hsave : saveClaim disk files cfgPath bdaddr psk = (some 0, files')) (hok : loadRaw files' cfgPath = .ok pairs)
    (hother : NoOther files cfgPath env bdaddr) :
    ∃ s, loadKeys files' env cfgPath = .ok s ∧ lookupPsk s.psk bdaddr = some psk := by
  obtain ⟨pairs', hpairs', hmem⟩ := mem_saved_pairs hsav hslash hsave hok
  obtain ⟨s, hs, hpsk⟩ := loadKeys_spec files' env cfgPath
  refine ⟨s, hs, ?_⟩
  have hconf : confItems files' cfgPath = pairs.filterMap pskOf := by
    rw [confItems, loadRawOrDefaults, hok, pskItems_confLayers]
  have hconf' : confItems (Files.without files (dropinName bdaddr)) cfgPath = pairs'.filterMap pskOf := by
    rw [confItems, loadRawOrDefaults, hpairs', pskItems_confLayers]
  have hsaved : pskOf (savedPair cfgPath bdaddr psk) = some (bdaddr ++ 61 :: pskToHex psk) := rfl
  rw [hpsk, hconf]
  apply lookupPsk_of_unique (e := bdaddr ++ 61 :: pskToHex psk) _ (entryKey_saved psk hsav)
  · intro e he
    rcases List.mem_append.mp he with he | he
    · obtain ⟨p, hp, hpe⟩ := List.mem_filterMap.mp he
      rcases (hmem p).mp hp with hp | rfl
      · right
        apply entryKey_of_other (hother e _)
        rw [hconf']
        exact List.mem_append_left _ (List.mem_filterMap.mpr ⟨p, hp, hpe⟩)
      · left
        rw [hsaved, Option.some.injEq] at hpe
        exact hpe.symm
    · right
      exact entryKey_of_other (hother e (List.mem_append_right _ he))
  · apply List.mem_append_left
    exact List.mem_filterMap.mpr ⟨_, (hmem _).mpr (Or.inr rfl), hsaved⟩

/-- Where a claim can end well, there is no way out of the directory, and the configuration can be read unless
another entry has the address. -/
def Finds (files : Files) (cfgPath bdaddr : Bytes) : Prop :=
  HasPlace files cfgPath bdaddr → 47 ∉ bdaddr ∧ (NoOther files cfgPath [] bdaddr → Readable files cfgPath)

theorem claim_zero {c : Curve} {disk : Disk} {files files' : Files} {cfgPath body : Bytes} {info : BoardInfo}
    {secretKey : Block 32} {status : ℕ} {reply : Bytes} (hinfo : boardInfo body = some info)
    (h : claim c disk files cfgPath body secretKey status reply = (some 0, files')) :
    ∃ psk, claimedPsk c secretKey status reply = some psk ∧
      saveClaim disk files cfgPath info.bdaddr psk = (some 0, files') := by
  simp only [claim, hinfo] at h
  split at h
  · cases h
  · cases h
  · split at h
    · cases h
    case isFalse hstatus =>
      split at h
      · cases h
      case h_2 boardPk hpk =>
        split at h
        · cases h
        case h_2 psk hpsk =>
          exact ⟨psk, by rw [claimedPsk, if_neg hstatus, hpk, Option.bind_some, hpsk], h⟩

end HciBridge.SavedClaim
