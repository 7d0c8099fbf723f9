import HciBridge.Settings

/-!
The keys of a running manager: `Keys.refresh` and `Active.revokeMissing` of `host/manager.zig`,
`loadKeys` of `host/cli.zig` and the start of `runMode` in `host/main.zig`.
-/

namespace HciBridge.Reload

open Auth (Bytes ascii)
open Config

abbrev Environ := List (Bytes × Bytes)

def getPosix (env : Environ) (name : Bytes) : Option Bytes := (env.find? fun p => p.1 = name).map Prod.snd

/-- `Environ.Map`: a name that comes again replaces the earlier value. -/
def mapGet (env : Environ) (name : Bytes) : Option Bytes :=
  (env.reverse.find? fun p => p.1 = name).map Prod.snd

def loadRawOrDefaults (files : Files) (path : Bytes) : List Pair :=
  match loadRaw files path with
  | .ok pairs => pairs
  | .error _ => []

def loadKeys (files : Files) (env : Environ) (path : Bytes) : Except Error Settings :=
  resolve (loadRawOrDefaults files path) [] (getPosix env)

structure Keys where
  entries : List Bytes
  last : Option ℤ
deriving DecidableEq, Repr

/-- Nanoseconds on the clock, compared in whole milliseconds. -/
def Keys.throttled (keys : Keys) (now : ℤ) : Bool :=
  match keys.last with
  | none => false
  | some t => (now - t).tdiv 1000000 < 2000

/-- `now` is the clock when the last reading is looked at, `stamp` when the new one is noted. -/
def Keys.refresh (keys : Keys) (reload : Option (Except Error Settings)) (now stamp : ℤ) : Bool × Keys :=
  match reload with
  | none => (false, keys)
  | some result =>
    if keys.throttled now then (false, keys)
    else
      match result with
      | .error _ => (false, { keys with last := some stamp })
      | .ok fresh => (true, { entries := fresh.psk, last := some stamp })

structure Registered where
  bdaddr : Bytes
  shut : Option Bool
deriving DecidableEq, Repr

def Registered.live (b : Registered) : Bool := b.shut = some false

def Registered.kill (b : Registered) : Registered := { b with shut := b.shut.map fun _ => true }

def revokeMissing (entries : List Bytes) (active : List Registered) : List Registered :=
  active.map fun b => if (lookupPsk entries b.bdaddr).isSome then b else b.kill

/-- What `run` does with the keys and the boards on every announce it does not filter out. -/
def refreshAndRevoke (keys : Keys) (active : List Registered) (reload : Option (Except Error Settings))
    (now stamp : ℤ) : Keys × List Registered :=
  let (refreshed, keys) := keys.refresh reload now stamp
  (keys, if refreshed then revokeMissing keys.entries active else active)

/-- `--config` and its value taken out of the arguments, the last one names the file. -/
def stripConfig (path : Bytes) : List Bytes → Except Error (Bytes × List Bytes)
  | [] => .ok (path, [])
  | arg :: rest =>
    if arg = ascii "--config" then
      match rest with
      | [] => .error .missingValue
      | v :: rest => stripConfig v rest
    else (stripConfig path rest).map fun r => (r.1, arg :: r.2)

/-- `runMode` up to the settings it hands to `manager.run`. -/
def startSettings (files : Bytes → Files) (defaultPath : Bytes) (env : Environ) (args : List Bytes) :
    Except Error (Bytes × Settings) := do
  let (path, filtered) ← stripConfig defaultPath args
  let s ← resolve (loadRawOrDefaults (files path) path) filtered (mapGet env)
  return (path, s)

def Keys.start (s : Settings) : Keys := ⟨s.psk, none⟩

def Keys.refreshAll (keys : Keys) (reload : Option (Except Error Settings)) (clock : List (ℤ × ℤ)) : Keys :=
  clock.foldl (fun k t => (k.refresh reload t.1 t.2).2) keys

def confItems (files : Files) (path : Bytes) : List Bytes :=
  pskItems (confLayers (loadRawOrDefaults files path))

def envItems (get : Bytes → Option Bytes) : List Bytes := pskItems (envLayers get)

theorem loadKeys_spec (files : Files) (env : Environ) (path : Bytes) :
    ∃ s, loadKeys files env path = .ok s ∧ s.psk = confItems files path ++ envItems (getPosix env) :=
  resolve_nil _ _

theorem confItems_of_error {files : Files} {path : Bytes} {err : ReadError}
    (h : loadRaw files path = .error err) : confItems files path = [] := by
  simp [confItems, loadRawOrDefaults, h, confLayers, pskItems]

theorem kill_eq_self_iff (b : Registered) : b.kill = b ↔ b.live = false := by
  obtain ⟨bdaddr, shut⟩ := b
  rcases shut with _ | _ | _ <;> simp [Registered.kill, Registered.live]

theorem revokeMissing_eq_self_iff (entries : List Bytes) (active : List Registered) :
    revokeMissing entries active = active ↔
      ∀ b ∈ active, b.live = true → (lookupPsk entries b.bdaddr).isSome = true := by
  induction active with
  | nil => simp [revokeMissing]
  | cons b active ih =>
    simp only [revokeMissing, List.map_cons, List.cons.injEq, List.forall_mem_cons] at ih ⊢
    apply and_congr _ ih
    split
    case isTrue h => simp [h]
    case isFalse h => simp [kill_eq_self_iff, h]

theorem refresh_of_throttled {keys : Keys} {now : ℤ} (h : keys.throttled now = true)
    (reload : Option (Except Error Settings)) (stamp : ℤ) : keys.refresh reload now stamp = (false, keys) := by
  cases reload with
  | none => rfl
  | some result => simp only [Keys.refresh, h, if_true]

theorem refresh_loadKeys {keys : Keys} {now : ℤ} (h : keys.throttled now = false) (files : Files)
    (env : Environ) (path : Bytes) (stamp : ℤ) :
    keys.refresh (some (loadKeys files env path)) now stamp =
      (true, ⟨confItems files path ++ envItems (getPosix env), some stamp⟩) := by
  obtain ⟨s, hs, hpsk⟩ := loadKeys_spec files env path
  simp only [Keys.refresh, h, Bool.false_eq_true, if_false, hs, hpsk]

theorem read_error_keeps_boards_iff (keys : Keys) (active : List Registered) (files : Files) (env : Environ)
    (path : Bytes) (now stamp : ℤ) (err : ReadError) (hfail : loadRaw files path = .error err) :
    ((refreshAndRevoke keys active (some (loadKeys files env path)) now stamp).1.entries = keys.entries ∧
      (refreshAndRevoke keys active (some (loadKeys files env path)) now stamp).2 = active) ↔
    (keys.throttled now = true ∨
      envItems (getPosix env) = keys.entries ∧
        ∀ b ∈ active, b.live = true → (lookupPsk keys.entries b.bdaddr).isSome = true) := by
  by_cases ht : keys.throttled now = true
  · simp [refreshAndRevoke, refresh_of_throttled ht, ht]
  · have hfresh := refresh_loadKeys (Bool.not_eq_true _ ▸ ht) files env path stamp
    rw [confItems_of_error hfail, List.nil_append] at hfresh
    simp only [refreshAndRevoke, hfresh, if_true, ht, Bool.false_eq_true, false_or]
    apply and_congr_right
    intro hentries
    rw [hentries]
    exact revokeMissing_eq_self_iff keys.entries active

/-- The main file cannot be opened: the key from it is dropped and its board is cut off. -/
theorem read_error_revokes_board :
    ¬ ∀ (keys : Keys) (active : List Registered) (files : Files) (env : Environ) (path : Bytes)
      (now stamp : ℤ) (err : ReadError), loadRaw files path = .error err →
      (refreshAndRevoke keys active (some (loadKeys files env path)) now stamp).1.entries = keys.entries ∧
        (refreshAndRevoke keys active (some (loadKeys files env path)) now stamp).2 = active := by
  intro h
  have hcut := h ⟨[ascii "aa:bb:cc:dd:ee:01=" ++ List.replicate 64 98], none⟩
    [⟨ascii "aa:bb:cc:dd:ee:01", some false⟩] ⟨.failed .accessDenied, .absent⟩ []
    (ascii "/etc/hcibridge/hcibridge.conf") 0 0 .accessDenied rfl
  revert hcut
  decide

theorem read_error_keeps_boards_throttled :
    (refreshAndRevoke ⟨[ascii "aa:bb:cc:dd:ee:01=" ++ List.replicate 64 98], some 0⟩
        [⟨ascii "aa:bb:cc:dd:ee:01", some false⟩]
        (some (loadKeys ⟨.failed .accessDenied, .absent⟩ [] (ascii "hcibridge.conf"))) 1000000000 1000000000).2 =
      [⟨ascii "aa:bb:cc:dd:ee:01", some false⟩] :=
  ((read_error_keeps_boards_iff _ _ _ _ _ _ _ .accessDenied rfl).mpr (Or.inl (by decide))).2

def flagItems (args : List Bytes) : List Bytes :=
  match stripConfig [] args with
  | .error _ => []
  | .ok (_, filtered) =>
    match flagLayers filtered with
    | .error _ => []
    | .ok (_, flags) => pskItems flags

theorem stripConfig_filtered {path : Bytes} {args : List Bytes} {r : Bytes × List Bytes}
    (h : stripConfig path args = .ok r) (path' : Bytes) : ∃ q, stripConfig path' args = .ok (q, r.2) := by
  fun_induction stripConfig path args generalizing path' r with
  | case1 path =>
    cases h
    exact ⟨path', rfl⟩
  | case2 => cases h
  | case3 path v rest ih =>
    simp only [stripConfig, if_true]
    exact ih h v
  | case4 path arg rest harg ih =>
    cases hs : stripConfig path rest with
    | error e => rw [hs] at h; cases h
    | ok r' =>
      rw [hs] at h
      cases h
      obtain ⟨q, hq⟩ := ih hs path'
      refine ⟨q, ?_⟩
      rw [stripConfig.eq_def]
      simp only [if_neg harg, hq]
      rfl

theorem startSettings_psk {files : Bytes → Files} {defaultPath path : Bytes} {env : Environ} {args : List Bytes}
    {s : Settings} (h : startSettings files defaultPath env args = .ok (path, s)) :
    s.psk = confItems (files path) path ++ envItems (mapGet env) ++ flagItems args := by
  unfold startSettings at h
  cases hstrip : stripConfig defaultPath args with
  | error e => rw [hstrip] at h; cases h
  | ok r =>
    obtain ⟨q, filtered⟩ := r
    rw [hstrip] at h
    simp only [Except.bind, bind] at h
    cases hres : resolve (loadRawOrDefaults (files q) q) filtered (mapGet env) with
    | error e => rw [hres] at h; cases h
    | ok s' =>
      rw [hres] at h
      cases h
      obtain ⟨once, flags, hflags, hpsk⟩ := resolve_psk hres
      obtain ⟨q', hq'⟩ := stripConfig_filtered hstrip []
      rw [hpsk]
      simp only [flagItems, hq', hflags]
      rfl

theorem refreshAll_entries (keys : Keys) (files : Files) (env : Environ) (path : Bytes) (clock : List (ℤ × ℤ)) :
    (keys.refreshAll (some (loadKeys files env path)) clock).entries = keys.entries ∨
      (keys.refreshAll (some (loadKeys files env path)) clock).entries =
        confItems files path ++ envItems (getPosix env) := by
  induction clock generalizing keys with
  | nil => exact Or.inl rfl
  | cons t clock ih =>
    by_cases ht : keys.throttled t.1 = true
    · have hkeep := refresh_of_throttled ht (some (loadKeys files env path)) t.2
      simp only [Keys.refreshAll, List.foldl_cons, hkeep]
      exact ih keys
    · have hfresh := refresh_loadKeys (Bool.not_eq_true _ ▸ ht) files env path t.2
      simp only [Keys.refreshAll, List.foldl_cons, hfresh]
      rcases ih ⟨confItems files path ++ envItems (getPosix env), some t.2⟩ with h | h
      · exact Or.inr h
      · exact Or.inr h

theorem refreshAll_start (s : Settings) (files : Files) (env : Environ) (path : Bytes) :
    ((Keys.start s).refreshAll (some (loadKeys files env path)) [(0, 0)]).entries =
      confItems files path ++ envItems (getPosix env) := by
  have hthrottle : (Keys.start s).throttled 0 = false := rfl
  have hfresh := refresh_loadKeys hthrottle files env path 0
  simp only [Keys.refreshAll, List.foldl_cons, List.foldl_nil, hfresh]

theorem refresh_noop_iff (files : Bytes → Files) (defaultPath path : Bytes) (env : Environ) (args : List Bytes)
    (s : Settings) (hstart : startSettings files defaultPath env args = .ok (path, s)) :
    ((∀ clock bdaddr,
        lookupPsk ((Keys.start s).refreshAll (some (loadKeys (files path) env path)) clock).entries bdaddr =
          lookupPsk s.psk bdaddr) ∧
      ∀ clock active, (∀ b ∈ active, (lookupPsk s.psk b.bdaddr).isSome = true) →
        revokeMissing ((Keys.start s).refreshAll (some (loadKeys (files path) env path)) clock).entries active =
          active) ↔
    (∀ bdaddr k, lookupPsk (flagItems args) bdaddr = some k →
        lookupPsk (confItems (files path) path ++ envItems (getPosix env)) bdaddr = some k) ∧
      ∀ bdaddr, lookupPsk (flagItems args) bdaddr = none →
        lookupPsk (confItems (files path) path ++ envItems (mapGet env)) bdaddr =
          lookupPsk (confItems (files path) path ++ envItems (getPosix env)) bdaddr := by
  have hpsk := startSettings_psk hstart
  have hlookup : ∀ bdaddr, lookupPsk s.psk bdaddr = (lookupPsk (flagItems args) bdaddr).or
      (lookupPsk (confItems (files path) path ++ envItems (mapGet env)) bdaddr) := by
    intro bdaddr
    rw [hpsk, lookupPsk_append]
  constructor
  · rintro ⟨hsame, -⟩
    have hreread : ∀ bdaddr, lookupPsk (confItems (files path) path ++ envItems (getPosix env)) bdaddr =
        lookupPsk s.psk bdaddr := by
      intro bdaddr
      rw [← hsame [(0, 0)] bdaddr, refreshAll_start]
    constructor
    · intro bdaddr k hk
      rw [hreread, hlookup, hk, Option.some_or]
    · intro bdaddr hnone
      rw [hreread, hlookup, hnone, Option.none_or]
  · rintro ⟨hflag, hnoflag⟩
    have hsame : ∀ clock bdaddr,
        lookupPsk ((Keys.start s).refreshAll (some (loadKeys (files path) env path)) clock).entries bdaddr =
          lookupPsk s.psk bdaddr := by
      intro clock bdaddr
      rcases refreshAll_entries (Keys.start s) (files path) env path clock with h | h
      · rw [h]
        rfl
      · rw [h, hlookup]
        cases hk : lookupPsk (flagItems args) bdaddr with
        | none => rw [Option.none_or, hnoflag bdaddr hk]
        | some k => rw [Option.some_or, hflag bdaddr k hk]
    refine ⟨hsame, ?_⟩
    intro clock active htrusted
    rw [revokeMissing_eq_self_iff]
    intro b hb _
    rw [hsame]
    exact htrusted b hb

theorem refresh_noop_env :
    lookupPsk (((Keys.start { Settings.default with psk := [ascii "aa:bb:cc:dd:ee:01=" ++ List.replicate 64 98] }
        ).refreshAll (some (loadKeys ⟨.absent, .absent⟩
          [(ascii "HCIBRIDGE_PSK", ascii "aa:bb:cc:dd:ee:01=" ++ List.replicate 64 98)] [])) [(0, 0)]).entries)
        (ascii "AA:BB:CC:DD:EE:01") =
      lookupPsk [ascii "aa:bb:cc:dd:ee:01=" ++ List.replicate 64 98] (ascii "AA:BB:CC:DD:EE:01") :=
  ((refresh_noop_iff (fun _ => ⟨.absent, .absent⟩) [] []
    [(ascii "HCIBRIDGE_PSK", ascii "aa:bb:cc:dd:ee:01=" ++ List.replicate 64 98)] []
    { Settings.default with psk := [ascii "aa:bb:cc:dd:ee:01=" ++ List.replicate 64 98] } (by decide)).mpr
      ⟨fun _ _ h => (Option.some_ne_none _ h.symm).elim, fun _ _ => rfl⟩).1 _ _

/-- A board whose key was given with `--psk` is gone after the first refresh. -/
theorem refresh_forgets_flag :
    ¬ ∀ (files : Bytes → Files) (defaultPath path : Bytes) (env : Environ) (args : List Bytes) (s : Settings),
      startSettings files defaultPath env args = .ok (path, s) → ∀ clock bdaddr,
        lookupPsk ((Keys.start s).refreshAll (some (loadKeys (files path) env path)) clock).entries bdaddr =
          lookupPsk s.psk bdaddr := by
  intro h
  have hflag := h (fun _ => ⟨.absent, .absent⟩) [] [] []
    [ascii "--psk", ascii "aa:bb:cc:dd:ee:01=" ++ List.replicate 64 98]
    { Settings.default with psk := [ascii "aa:bb:cc:dd:ee:01=" ++ List.replicate 64 98] } (by decide)
    [(0, 0)] (ascii "aa:bb:cc:dd:ee:01")
  revert hflag
  decide

end HciBridge.Reload
