import HciBridge.SavedClaim

/-!
`revoke` of `host/cli.zig`: the drop-in of a board is removed, and what is left of its key.
-/

namespace HciBridge.Revoke

open Auth (Bytes Block ascii pskToHex)
open Config
open Reload
open HostClaim (dropinName claimLine)
open SavedClaim (Files.without)

inductive Deleted
  | removed (files : Files)
  | notFound
  | failed
deriving DecidableEq, Repr

/-- Whether files can be removed beside the configuration, and what the system makes of a path that
goes through further directories or into a directory that cannot be listed. -/
structure Disk where
  writable : Bool
  elsewhere : Files → Bytes → Deleted

def deleteFile (disk : Disk) (files : Files) (name : Bytes) : Deleted :=
  if 0 ∈ name then .failed
  else if 47 ∈ name then disk.elsewhere files name
  else
    match files.dropIns with
    | .absent => .notFound
    | .notDir => .failed
    | .failed _ => disk.elsewhere files name
    | .listing _ (some _) => disk.elsewhere files name
    | .listing entries none =>
      match entries.find? fun e => e.name = name with
      | none => .notFound
      | some e =>
        if e.kind = .directory ∨ disk.writable = false then .failed else .removed (Files.without files name)

/-- The exit code, `none` when an error is returned, and the files afterwards. -/
def revoke (disk : Disk) (files : Files) (env : Environ) (cfgPath bdaddr : Bytes) : Option ℕ × Files :=
  if bdaddr.length ≠ 17 then (some 2, files)
  else if 512 < (cfgPath ++ ascii ".d/" ++ dropinName bdaddr).length then (none, files)
  else
    match deleteFile disk files (dropinName bdaddr) with
    | .removed files' => (some 0, files')
    | .notFound =>
      match loadKeys files env cfgPath with
      | .error _ => (none, files)
      | .ok keys => if (lookupPsk keys.psk bdaddr).isSome then (some 1, files) else (some 0, files)
    | .failed => (some 1, files)

def EnvHasKey (env : Environ) (bdaddr : Bytes) : Prop :=
  ∃ e ∈ envItems (getPosix env), (entryKey bdaddr e).isSome = true

def PairsHaveKey (pairs : List Pair) (bdaddr : Bytes) : Prop :=
  ∃ p ∈ pairs, ∃ e ∈ pskOf p, (entryKey bdaddr e).isSome = true

/-- A valid key for the board in a text that can be read or in the environment, whether or not the
configuration as a whole can be read. -/
def KeyRemains (files : Files) (env : Environ) (cfgPath bdaddr : Bytes) : Prop :=
  EnvHasKey env bdaddr ∨ PairsHaveKey (mainPairs files.main cfgPath) bdaddr ∨
    ∃ e ∈ files.fragments, PairsHaveKey (fragmentPairs (cfgPath ++ ascii ".d") e) bdaddr

structure RevocationComplete (disk : Disk) (files : Files) (env : Environ) (cfgPath bdaddr : Bytes) : Prop where
  forgotten : ∀ files', revoke disk files env cfgPath bdaddr = (some 0, files') →
    ∃ keys, loadKeys files' env cfgPath = .ok keys ∧ lookupPsk keys.psk bdaddr = none
  reported : ∀ code files', revoke disk files env cfgPath bdaddr = (code, files') →
    KeyRemains files' env cfgPath bdaddr → code ≠ some 0

/-- Nowhere else is a key for the board; without a drop-in it is enough that `loadKeys` can see it. -/
def NoKeyElsewhere (disk : Disk) (files : Files) (env : Environ) (cfgPath bdaddr : Bytes) : Prop :=
  match deleteFile disk files (dropinName bdaddr) with
  | .removed files' => ¬ KeyRemains files' env cfgPath bdaddr
  | .notFound =>
    (∃ pairs, loadRaw files cfgPath = .ok pairs) ∨ EnvHasKey env bdaddr ∨ ¬ KeyRemains files env cfgPath bdaddr
  | .failed => True

section

variable {files : Files} {env : Environ} {cfgPath bdaddr : Bytes} {keys : Settings}

theorem isSome_lookupPsk (entries : List Bytes) (bdaddr : Bytes) :
    (lookupPsk entries bdaddr).isSome = true ↔ ∃ e ∈ entries, (entryKey bdaddr e).isSome = true := by
  simp only [lookupPsk, List.findSome?_isSome_iff, List.mem_reverse]

theorem lookup_loadKeys (hkeys : loadKeys files env cfgPath = .ok keys) :
    (lookupPsk keys.psk bdaddr).isSome = true ↔
      PairsHaveKey (loadRawOrDefaults files cfgPath) bdaddr ∨ EnvHasKey env bdaddr := by
  obtain ⟨s, hs, hpsk⟩ := loadKeys_spec files env cfgPath
  rw [hkeys] at hs
  cases hs
  rw [isSome_lookupPsk, hpsk, confItems, pskItems_confLayers]
  constructor
  · rintro ⟨e, he, hkey⟩
    rcases List.mem_append.mp he with he | he
    · obtain ⟨p, hp, hpe⟩ := List.mem_filterMap.mp he
      exact .inl ⟨p, hp, e, hpe, hkey⟩
    · exact .inr ⟨e, he, hkey⟩
  · rintro (⟨p, hp, e, hpe, hkey⟩ | ⟨e, he, hkey⟩)
    · exact ⟨e, List.mem_append_left _ (List.mem_filterMap.mpr ⟨p, hp, hpe⟩), hkey⟩
    · exact ⟨e, List.mem_append_right _ he, hkey⟩

theorem pairsHaveKey_loadRaw {pairs : List Pair} (hlen : (cfgPath ++ ascii ".d").length ≤ 512)
    (hok : loadRaw files cfgPath = .ok pairs) :
    PairsHaveKey pairs bdaddr ↔ PairsHaveKey (mainPairs files.main cfgPath) bdaddr ∨
      ∃ e ∈ files.fragments, PairsHaveKey (fragmentPairs (cfgPath ++ ascii ".d") e) bdaddr := by
  have hmem := mem_loadRaw hlen hok
  constructor
  · rintro ⟨p, hp, hkey⟩
    rcases (hmem p).mp hp with hp | ⟨e, he, hp⟩
    · exact .inl ⟨p, hp, hkey⟩
    · exact .inr ⟨e, he, p, hp, hkey⟩
  · rintro (⟨p, hp, hkey⟩ | ⟨e, he, p, hp, hkey⟩)
    · exact ⟨p, (hmem p).mpr (.inl hp), hkey⟩
    · exact ⟨p, (hmem p).mpr (.inr ⟨e, he, hp⟩), hkey⟩

theorem keyRemains_of_lookup (hlen : (cfgPath ++ ascii ".d").length ≤ 512)
    (hkeys : loadKeys files env cfgPath = .ok keys) (h : (lookupPsk keys.psk bdaddr).isSome = true) :
    KeyRemains files env cfgPath bdaddr := by
  rcases (lookup_loadKeys hkeys).mp h with hpairs | henv
  · cases hok : loadRaw files cfgPath with
    | error err =>
      obtain ⟨p, hp, -⟩ := hpairs
      simp [loadRawOrDefaults, hok] at hp
    | ok pairs =>
      rw [loadRawOrDefaults, hok] at hpairs
      exact .inr ((pairsHaveKey_loadRaw hlen hok).mp hpairs)
  · exact .inl henv

theorem lookup_of_keyRemains {pairs : List Pair} (hlen : (cfgPath ++ ascii ".d").length ≤ 512)
    (hok : loadRaw files cfgPath = .ok pairs) (hkeys : loadKeys files env cfgPath = .ok keys)
    (h : KeyRemains files env cfgPath bdaddr) : (lookupPsk keys.psk bdaddr).isSome = true := by
  rw [lookup_loadKeys hkeys, loadRawOrDefaults, hok]
  rcases h with henv | hpairs
  · exact .inr henv
  · exact .inl ((pairsHaveKey_loadRaw hlen hok).mpr hpairs)

theorem lookup_unreadable {err : ReadError} (hfail : loadRaw files cfgPath = .error err)
    (hkeys : loadKeys files env cfgPath = .ok keys) :
    (lookupPsk keys.psk bdaddr).isSome = true ↔ EnvHasKey env bdaddr := by
  rw [lookup_loadKeys hkeys, loadRawOrDefaults, hfail]
  simp [PairsHaveKey]

variable {disk : Disk} {files' : Files} {code : Option ℕ}

theorem complete_of_code (h : revoke disk files env cfgPath bdaddr = (code, files')) (hcode : code ≠ some 0) :
    RevocationComplete disk files env cfgPath bdaddr := by
  refine ⟨fun files'' hzero => ?_, fun code' files'' hcode' _ => ?_⟩
  · rw [h] at hzero
    cases hzero
    exact absurd rfl hcode
  · rw [h] at hcode'
    cases hcode'
    exact hcode

theorem complete_of_zero (hlen : (cfgPath ++ ascii ".d").length ≤ 512)
    (h : revoke disk files env cfgPath bdaddr = (some 0, files')) :
    RevocationComplete disk files env cfgPath bdaddr ↔ ¬ KeyRemains files' env cfgPath bdaddr := by
  constructor
  · intro hcomplete hremains
    exact hcomplete.reported (some 0) files' h hremains rfl
  · intro hno
    obtain ⟨keys, hkeys, -⟩ := loadKeys_spec files' env cfgPath
    refine ⟨fun files'' hzero => ?_, fun code files'' hcode hremains => ?_⟩
    · rw [h] at hzero
      cases hzero
      refine ⟨keys, hkeys, Option.not_isSome_iff_eq_none.mp fun hsome => ?_⟩
      exact hno (keyRemains_of_lookup hlen hkeys hsome)
    · rw [h] at hcode
      cases hcode
      exact absurd hremains hno

end

theorem revocation_complete_iff (disk : Disk) (files : Files) (env : Environ) (cfgPath bdaddr : Bytes)
    (hlen : bdaddr.length = 17) :
    RevocationComplete disk files env cfgPath bdaddr ↔
      512 < (cfgPath ++ ascii ".d/" ++ dropinName bdaddr).length ∨
        NoKeyElsewhere disk files env cfgPath bdaddr := by
  by_cases hpath : 512 < (cfgPath ++ ascii ".d/" ++ dropinName bdaddr).length
  · have hrevoke : revoke disk files env cfgPath bdaddr = (none, files) := by
      rw [revoke, if_neg (not_not.mpr hlen), if_pos hpath]
    exact iff_of_true (complete_of_code hrevoke nofun) (.inl hpath)
  · have hdpath := SavedClaim.dpath_length (Nat.not_lt.mp hpath)
    rw [or_iff_right hpath, NoKeyElsewhere]
    obtain ⟨keys, hkeys, -⟩ := loadKeys_spec files env cfgPath
    cases hdel : deleteFile disk files (dropinName bdaddr) with
    | failed =>
      have hrevoke : revoke disk files env cfgPath bdaddr = (some 1, files) := by
        simp only [revoke, if_neg (not_not.mpr hlen), if_neg hpath, hdel]
      exact iff_of_true (complete_of_code hrevoke (by decide)) trivial
    | removed files' =>
      have hrevoke : revoke disk files env cfgPath bdaddr = (some 0, files') := by
        simp only [revoke, if_neg (not_not.mpr hlen), if_neg hpath, hdel]
      exact complete_of_zero hdpath hrevoke
    | notFound =>
      -- the path that looks elsewhere before it says that there is nothing to do
      by_cases hsome : (lookupPsk keys.psk bdaddr).isSome = true
      · have hrevoke : revoke disk files env cfgPath bdaddr = (some 1, files) := by
          simp only [revoke, if_neg (not_not.mpr hlen), if_neg hpath, hdel, hkeys, if_pos hsome]
        refine iff_of_true (complete_of_code hrevoke (by decide)) ?_
        cases hok : loadRaw files cfgPath with
        | ok pairs => exact .inl ⟨pairs, rfl⟩
        | error err => exact .inr (.inl ((lookup_unreadable hok hkeys).mp hsome))
      · have hrevoke : revoke disk files env cfgPath bdaddr = (some 0, files) := by
          simp only [revoke, if_neg (not_not.mpr hlen), if_neg hpath, hdel, hkeys, if_neg hsome]
        rw [complete_of_zero hdpath hrevoke]
        constructor
        · exact fun hno => .inr (.inr hno)
        · rintro (⟨pairs, hok⟩ | henv | hno)
          · exact fun hremains => hsome (lookup_of_keyRemains hdpath hok hkeys hremains)
          · exact absurd ((lookup_loadKeys hkeys).mpr (.inr henv)) hsome
          · exact hno

section Vector

def vectorBdaddr : Bytes := ascii "a0:a3:b3:2f:61:1e"
def vectorPath : Bytes := ascii "/etc/hcibridge/hcibridge.conf"
def vectorDropIn : Entry := ⟨dropinName vectorBdaddr, .file, .content (claimLine vectorBdaddr (Block.fill 32 66))⟩
def localDisk : Disk := ⟨true, fun _ _ => .failed⟩

theorem revoke_only_drop_in :
    RevocationComplete localDisk ⟨.absent, .listing [vectorDropIn] none⟩ [] vectorPath vectorBdaddr := by
  apply (revocation_complete_iff localDisk ⟨.absent, .listing [vectorDropIn] none⟩ [] vectorPath vectorBdaddr
    (by decide)).mpr
  right
  have hdel : deleteFile localDisk ⟨.absent, .listing [vectorDropIn] none⟩ (dropinName vectorBdaddr) =
      .removed ⟨.absent, .listing [] none⟩ := by decide +kernel
  rw [NoKeyElsewhere, hdel]
  rintro (⟨e, he, -⟩ | ⟨p, hp, -⟩ | ⟨e, he, -⟩)
  · cases he
  · cases hp
  · cases he

/-- The same key is in the main file too: the drop-in goes, the key stays, and the exit code is 0. -/
theorem revoke_leaves_key :
    ¬ ∀ (disk : Disk) (files : Files) (env : Environ) (cfgPath bdaddr : Bytes), bdaddr.length = 17 →
      RevocationComplete disk files env cfgPath bdaddr := by
  intro h
  obtain ⟨keys, hkeys, hnone⟩ := (h localDisk
    ⟨.content (claimLine vectorBdaddr (Block.fill 32 66)), .listing [vectorDropIn] none⟩ [] vectorPath vectorBdaddr
    (by decide)).forgotten ⟨.content (claimLine vectorBdaddr (Block.fill 32 66)), .listing [] none⟩
    (by decide +kernel)
  have hsome : ((loadKeys ⟨.content (claimLine vectorBdaddr (Block.fill 32 66)), .listing [] none⟩ []
      vectorPath).toOption.bind fun s => lookupPsk s.psk vectorBdaddr).isSome = true := by decide +kernel
  rw [hkeys] at hsome
  simp [Except.toOption, hnone] at hsome

end Vector

end HciBridge.Revoke
