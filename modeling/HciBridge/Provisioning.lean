import HciBridge.Runs
import HciBridge.WifiForm

/-!
The WiFi side of `firmware/main/net.c` over any number of boots: the credentials that `/save` puts into
flash, what `load_creds` makes of them and what `wifi_connect` gives to the driver.
-/

namespace HciBridge.Provisioning

open Auth (Bytes ascii)
open WifiForm

/-- The strings `ssid` and `pass` of the namespace `bridge`. -/
structure Nvs where
  ssid : Option Bytes
  pass : Option Bytes
deriving DecidableEq, Repr

/-- `CONFIG_BRIDGE_WIFI_SSID` and `CONFIG_BRIDGE_WIFI_PASS` -/
structure Kconfig where
  ssid : Bytes
  pass : Bytes
  noNul : 0 ∉ ssid ∧ 0 ∉ pass

/-- What `nvs_open` and the two `nvs_get_str` of a boot come to; `none` is any error. -/
structure Reads where
  opened : Bool
  ssid : Option Bytes
  pass : Option Bytes
deriving DecidableEq, Repr

/-- `ESP_OK` means that the buffer holds the stored string with its NUL. -/
structure Reads.Sound (nvs : Nvs) (r : Reads) : Prop where
  ssid : ∀ v ∈ r.ssid, nvs.ssid = some v ∧ v.length < 33
  pass : ∀ v ∈ r.pass, nvs.pass = some v ∧ v.length < 65

/-- The flash can be read: only a string that is missing or too long is an error. -/
structure Reads.Works (nvs : Nvs) (r : Reads) : Prop extends r.Sound nvs where
  opened : r.opened = true
  findsSsid : ∀ v ∈ nvs.ssid, v.length < 33 → r.ssid = some v
  findsPass : ∀ v ∈ nvs.pass, v.length < 65 → r.pass = some v

instance (nvs : Nvs) (r : Reads) : Decidable (r.Sound nvs) :=
  decidable_of_iff ((∀ v ∈ r.ssid, nvs.ssid = some v ∧ v.length < 33) ∧
    ∀ v ∈ r.pass, nvs.pass = some v ∧ v.length < 65) ⟨fun h => ⟨h.1, h.2⟩, fun h => ⟨h.ssid, h.pass⟩⟩

instance (nvs : Nvs) (r : Reads) : Decidable (r.Works nvs) :=
  decidable_of_iff (r.Sound nvs ∧ r.opened = true ∧ (∀ v ∈ nvs.ssid, v.length < 33 → r.ssid = some v) ∧
    ∀ v ∈ nvs.pass, v.length < 65 → r.pass = some v)
    ⟨fun h => ⟨h.1, h.2.1, h.2.2.1, h.2.2.2⟩, fun h => ⟨h.toSound, h.opened, h.findsSsid, h.findsPass⟩⟩

def strlcpy (src : Bytes) (len : ℕ) : Bytes := src.take (len - 1)

def loadCreds (cfg : Kconfig) (r : Reads) : Option (Bytes × Bytes) :=
  let stored := if r.opened then r.ssid.filter fun ssid => ssid ≠ [] else none
  match stored with
  | some ssid => some (ssid, r.pass.getD [])
  | none => if 0 < cfg.ssid.length then some (strlcpy cfg.ssid 33, strlcpy cfg.pass 65) else none

structure Station where
  ssid : Bytes
  password : Bytes
deriving DecidableEq, Repr

def copied (n : ℕ) (s : Bytes) : Bytes := s.take (min s.length n) ++ List.replicate (n - min s.length n) 0

def wifiConnect (ssid pass : Bytes) : Station := ⟨copied 32 ssid, copied 64 pass⟩

/-- A value that fills its array has no terminator. -/
def Station.name (w : Station) : Bytes := cString w.ssid

def Station.phrase (w : Station) : Bytes := cString w.password

inductive Mode
  | off
  | portal (r : Reads)
  | station (r : Reads) (w : Station)
deriving DecidableEq, Repr

structure State where
  nvs : Nvs
  mode : Mode
deriving DecidableEq, Repr

/-- `/save` says which of its two writes have lasted when the board comes up again. -/
inductive Label
  | boot (r : Reads)
  | save (received : Bytes) (ssidLasts passLasts : Bool)
  | powerOff
deriving DecidableEq, Repr

variable (cfg : Kconfig)

def netStart (r : Reads) : Mode :=
  match loadCreds cfg r with
  | none => .portal r
  | some (ssid, pass) => .station r (wifiConnect ssid pass)

def step (s : State) : Label → Option State
  | .boot r =>
    match s.mode with
    | .off => some { s with mode := netStart cfg r }
    | _ => none
  | .save received ssidLasts passLasts =>
    match s.mode, portalSave received with
    | .portal _, .stored ssid pass => some
      ⟨⟨if ssidLasts then some ssid else s.nvs.ssid, if passLasts then some pass else s.nvs.pass⟩, .off⟩
    | .portal _, _ => some s
    | _, _ => none
  | .powerOff => some { s with mode := .off }

/-- Strings of any length, as an earlier firmware may have left them. -/
def IsInit (s : State) : Prop := s.mode = .off ∧ (∀ v ∈ s.nvs.ssid, 0 ∉ v) ∧ ∀ v ∈ s.nvs.pass, 0 ∉ v

def sound (s : State) : Label → Bool
  | .boot r => r.Sound s.nvs
  | _ => true

def readable (s : State) : Label → Bool
  | .boot r => r.Works s.nvs
  | _ => true

abbrev Reachable : State → Prop := Runs.ReachableWhile (step cfg) IsInit sound

section Strings

variable {n : ℕ} {s : Bytes}

theorem copied_length (n : ℕ) (s : Bytes) : (copied n s).length = n := by
  rw [copied, List.length_append, List.length_take, List.length_replicate]
  omega

theorem cString_copied (hnul : 0 ∉ s) (hlen : s.length ≤ n) : cString (copied n s) = s := by
  rw [copied, Nat.min_eq_left hlen, List.take_length, cString, List.takeWhile_append_of_pos]
  · cases n - s.length with
    | zero => simp
    | succ k => simp [List.replicate_succ]
  · intro c hc
    have hne : c ≠ 0 := fun h0 => hnul (h0 ▸ hc)
    simpa using hne

theorem zero_notMem_cString (s : Bytes) : 0 ∉ cString s := by
  intro h
  have hne := List.mem_takeWhile_imp h
  simp at hne

theorem urlDecode_length_le (s : Bytes) : (urlDecode s).length ≤ s.length := by
  induction s using urlDecode.induct with
  | case1 hi lo rest ih =>
    simp only [urlDecode, if_true, List.length_cons] at ih ⊢
    omega
  | case2 hi lo rest hplus ih =>
    simp only [urlDecode, hplus, if_false, if_true, List.length_cons]
    omega
  | case3 c hi lo rest hplus hescape ih =>
    simp only [urlDecode, hplus, hescape, if_false, List.length_cons] at ih ⊢
    omega
  | case4 c rest hshort ih =>
    rw [urlDecode]
    · simp only [List.length_cons]
      omega
    · exact hshort
  | case5 => simp [urlDecode]

theorem formField_fits {body : Bytes} {key : String} {outLen : ℕ} {v : Bytes}
    (h : formField body key outLen = some v) : 0 ∉ v ∧ v.length ≤ outLen - 1 := by
  obtain ⟨p, -, rfl⟩ := Option.map_eq_some_iff.mp h
  refine ⟨zero_notMem_cString _, ?_⟩
  calc (cString (urlDecode _)).length ≤ (urlDecode _).length := (List.takeWhile_prefix _).length_le
    _ ≤ _ := urlDecode_length_le _
    _ ≤ outLen - 1 := List.length_take_le _ _

theorem portalSave_stored {received ssid pass : Bytes} (h : portalSave received = .stored ssid pass) :
    (0 ∉ ssid ∧ ssid ≠ [] ∧ ssid.length ≤ 32) ∧ 0 ∉ pass ∧ pass.length ≤ 64 := by
  unfold portalSave at h
  dsimp only at h
  split at h
  case isTrue => cases h
  case isFalse =>
    split at h
    case h_1 => cases h
    case h_2 => cases h
    case h_3 ssid' hne hssid =>
      cases h
      obtain ⟨hnul, hlen⟩ := formField_fits hssid
      refine ⟨⟨hnul, ?_, hlen⟩, ?_⟩
      · rintro rfl
        exact hne rfl
      · cases hpass : formField (cString (received.take 255)) "pass" 65 with
        | none => simp
        | some pass => exact formField_fits hpass

end Strings

section Creds

variable {cfg} {nvs : Nvs} {r : Reads} {ssid pass : Bytes}

def Usable (nvs : Nvs) : Prop := ∃ ssid, nvs.ssid = some ssid ∧ ssid ≠ [] ∧ ssid.length ≤ 32

def Nvs.phrase (nvs : Nvs) : Bytes := (nvs.pass.filter fun v => v.length ≤ 64).getD []

def Reads.NoName (r : Reads) : Prop := r.opened = true → ∀ v ∈ r.ssid, v = []

inductive Source (cfg : Kconfig) (nvs : Nvs) (r : Reads) : Bytes → Bytes → Prop
  | stored {ssid pass : Bytes} (hopened : r.opened = true) (hssid : nvs.ssid = some ssid)
      (hpass : nvs.pass = some pass) : Source cfg nvs r ssid pass
  | withoutPass {ssid : Bytes} (hopened : r.opened = true) (hssid : nvs.ssid = some ssid) (hpass : r.pass = none) :
      Source cfg nvs r ssid []
  | baked (hne : cfg.ssid ≠ []) (h : r.NoName) : Source cfg nvs r (cfg.ssid.take 32) (cfg.pass.take 64)

theorem noName (h : (if r.opened then r.ssid.filter fun ssid => ssid ≠ [] else none) = none) : r.NoName := by
  intro hopened v hv
  rw [if_pos hopened, Option.filter_eq_none_iff] at h
  simpa using h v hv

theorem Reads.Works.not_usable (h : r.Works nvs) (hname : r.NoName) : ¬Usable nvs := by
  rintro ⟨ssid, hssid, hne, hlen⟩
  exact hne (hname h.opened ssid (h.findsSsid ssid hssid (by omega)))

theorem Reads.Works.pass_eq (h : r.Works nvs) : r.pass.getD [] = nvs.phrase := by
  unfold Nvs.phrase
  cases hread : r.pass with
  | some v =>
    obtain ⟨hpass, hlen⟩ := h.pass v hread
    simp [hpass, Option.filter, show v.length ≤ 64 by omega]
  | none =>
    have hnone : nvs.pass.filter (fun v => v.length ≤ 64) = none := by
      rw [Option.filter_eq_none_iff]
      intro v hv hfits
      have hfound := h.findsPass v hv (by simpa [Nat.lt_succ_iff] using hfits)
      rw [hread] at hfound
      cases hfound
    rw [hnone]

theorem loadCreds_usable (h : r.Works nvs) (hssid : nvs.ssid = some ssid) (hne : ssid ≠ []) (hlen : ssid.length ≤ 32) :
    loadCreds cfg r = some (ssid, nvs.phrase) := by
  have hread : r.ssid.filter (fun ssid => ssid ≠ []) = some ssid := by
    rw [h.findsSsid ssid hssid (by omega), Option.filter_some_pos (by simpa using hne)]
  simp only [loadCreds, h.opened, if_true, hread, h.pass_eq]

theorem loadCreds_some (hs : r.Sound nvs) (h : loadCreds cfg r = some (ssid, pass)) :
    Source cfg nvs r ssid pass ∧ ssid ≠ [] ∧ ssid.length ≤ 32 ∧ pass.length ≤ 64 := by
  unfold loadCreds at h
  dsimp only at h
  split at h
  case h_1 ssid' hstored =>
    cases h
    have hopened : r.opened = true := by
      by_contra hclosed
      rw [if_neg hclosed] at hstored
      cases hstored
    rw [if_pos hopened, Option.filter_eq_some_iff] at hstored
    obtain ⟨hread, hne⟩ := hstored
    obtain ⟨hssid, hlen⟩ := hs.ssid _ hread
    have hne : ssid ≠ [] := by simpa using hne
    cases hpass : r.pass with
    | none => exact ⟨.withoutPass hopened hssid hpass, hne, by omega, by simp⟩
    | some v =>
      obtain ⟨hstored, hfits⟩ := hs.pass v hpass
      exact ⟨.stored hopened hssid hstored, hne, by omega, by simpa [Nat.lt_succ_iff] using hfits⟩
  case h_2 hstored =>
    split at h
    case isFalse => cases h
    case isTrue hpos =>
      cases h
      have hne : cfg.ssid ≠ [] := List.ne_nil_of_length_pos hpos
      refine ⟨.baked hne (noName hstored), ?_, List.length_take_le _ _, List.length_take_le _ _⟩
      simpa [strlcpy] using hne

theorem loadCreds_none (h : loadCreds cfg r = none) : cfg.ssid = [] ∧ r.NoName := by
  unfold loadCreds at h
  dsimp only at h
  split at h
  case h_1 => cases h
  case h_2 hstored =>
    split at h
    case isTrue => cases h
    case isFalse hpos => exact ⟨List.eq_nil_of_length_eq_zero (by omega), noName hstored⟩

theorem Source.noNul (h : Source cfg nvs r ssid pass) (hssid : ∀ v ∈ nvs.ssid, 0 ∉ v)
    (hpass : ∀ v ∈ nvs.pass, 0 ∉ v) : 0 ∉ ssid ∧ 0 ∉ pass := by
  cases h with
  | stored _ h h' => exact ⟨hssid ssid h, hpass pass h'⟩
  | withoutPass _ h _ => exact ⟨hssid ssid h, List.not_mem_nil⟩
  | baked hne h =>
    exact ⟨fun hmem => cfg.noNul.1 (List.mem_of_mem_take hmem), fun hmem => cfg.noNul.2 (List.mem_of_mem_take hmem)⟩

end Creds

section Runs

variable {cfg} {s s' : State}

structure Joins (w : Station) (ssid pass : Bytes) : Prop where
  sizes : w.ssid.length = 32 ∧ w.password.length = 64
  name : w.name = ssid
  phrase : w.phrase = pass

theorem joins_wifiConnect {ssid pass : Bytes} (hnul : 0 ∉ ssid ∧ 0 ∉ pass) (hssid : ssid.length ≤ 32)
    (hpass : pass.length ≤ 64) : Joins (wifiConnect ssid pass) ssid pass :=
  ⟨⟨copied_length _ _, copied_length _ _⟩, cString_copied hnul.1 hssid, cString_copied hnul.2 hpass⟩

structure Inv (cfg : Kconfig) (s : State) : Prop where
  ssid : ∀ v ∈ s.nvs.ssid, 0 ∉ v
  pass : ∀ v ∈ s.nvs.pass, 0 ∉ v
  mode : s.mode = .off ∨ ∃ r : Reads, r.Sound s.nvs ∧ s.mode = netStart cfg r

theorem Inv.step {l : Label} (hi : Inv cfg s) (hc : sound s l = true) (h : step cfg s l = some s') : Inv cfg s' := by
  cases l with
  | boot r =>
    simp only [Provisioning.step] at h
    split at h
    case h_1 =>
      cases h
      exact ⟨hi.ssid, hi.pass, .inr ⟨r, of_decide_eq_true hc, rfl⟩⟩
    case h_2 => cases h
  | save received ssidLasts passLasts =>
    simp only [Provisioning.step] at h
    split at h
    case h_1 ssid pass _ hsave =>
      cases h
      obtain ⟨⟨hssid, -, -⟩, hpass, -⟩ := portalSave_stored hsave
      refine ⟨?_, ?_, .inl rfl⟩
      · cases ssidLasts with
        | false => exact hi.ssid
        | true => exact fun v hv => by cases hv; exact hssid
      · cases passLasts with
        | false => exact hi.pass
        | true => exact fun v hv => by cases hv; exact hpass
    case h_2 =>
      cases h
      exact hi
    case h_3 => cases h
  | powerOff =>
    cases h
    exact ⟨hi.ssid, hi.pass, .inl rfl⟩

theorem Reachable.inv (h : Reachable cfg s) : Inv cfg s := by
  refine h.invariant (Inv cfg) ?_ ?_
  · rintro s ⟨hmode, hssid, hpass⟩
    exact ⟨hssid, hpass, .inl hmode⟩
  · exact fun _ _ _ _ hi hc hs => hi.step hc hs

theorem Inv.station {r : Reads} {w : Station} (hi : Inv cfg s) (hw : s.mode = .station r w) :
    r.Sound s.nvs ∧ ∃ ssid pass, loadCreds cfg r = some (ssid, pass) ∧ w = wifiConnect ssid pass := by
  rcases hi.mode with hoff | ⟨r', hsound, hmode⟩
  · rw [hoff] at hw
    cases hw
  · rw [hmode, netStart] at hw
    split at hw
    case h_1 => cases hw
    case h_2 ssid pass hload =>
      cases hw
      exact ⟨hsound, ssid, pass, hload, rfl⟩

theorem Inv.portal {r : Reads} (hi : Inv cfg s) (hw : s.mode = .portal r) :
    r.Sound s.nvs ∧ loadCreds cfg r = none := by
  rcases hi.mode with hoff | ⟨r', hsound, hmode⟩
  · rw [hoff] at hw
    cases hw
  · rw [hmode, netStart] at hw
    split at hw
    case h_1 hload =>
      cases hw
      exact ⟨hsound, hload⟩
    case h_2 => cases hw

def Settled (nvs : Nvs) (ssid : Bytes) (s : State) : Prop :=
  s.nvs = nvs ∧ (s.mode = .off ∨ ∃ r, s.mode = .station r (wifiConnect ssid nvs.phrase))

theorem Settled.step {nvs : Nvs} {ssid : Bytes} {l : Label} (hssid : nvs.ssid = some ssid) (hne : ssid ≠ [])
    (hlen : ssid.length ≤ 32) (hset : Settled nvs ssid s) (hc : readable s l = true) (h : step cfg s l = some s') :
    Settled nvs ssid s' := by
  obtain ⟨rfl, hmode⟩ := hset
  cases l with
  | boot r =>
    have hworks : r.Works s.nvs := of_decide_eq_true hc
    simp only [Provisioning.step] at h
    split at h
    case h_1 =>
      cases h
      refine ⟨rfl, .inr ⟨r, ?_⟩⟩
      simp only [netStart, loadCreds_usable hworks hssid hne hlen]
    case h_2 => cases h
  | save received ssidLasts passLasts =>
    rcases hmode with hmode | ⟨r, hmode⟩ <;> simp [Provisioning.step, hmode] at h
  | powerOff =>
    cases h
    exact ⟨rfl, .inl rfl⟩

theorem settled_run {nvs : Nvs} {ssid : Bytes} {ls : List Label} (hssid : nvs.ssid = some ssid) (hne : ssid ≠ [])
    (hlen : ssid.length ≤ 32) (hset : Settled nvs ssid s) (hrun : Runs.run (step cfg) readable s ls = some s') :
    Settled nvs ssid s' := by
  have hreach : Runs.ReachableWhile (step cfg) (Settled nvs ssid) readable s' :=
    Runs.reachableWhile_of_run ls (.start hset) hrun
  exact hreach.invariant (Settled nvs ssid) (fun _ h => h) fun _ _ _ _ h hc hs => h.step hssid hne hlen hc hs

structure Provisioned (cfg : Kconfig) (s : State) : Prop where
  station : ∀ r w, s.mode = .station r w → ∃ ssid pass, Source cfg s.nvs r ssid pass ∧ ssid ≠ [] ∧ Joins w ssid pass ∧
    (r.Works s.nvs → Usable s.nvs → s.nvs.ssid = some ssid ∧ pass = s.nvs.phrase)
  portal : ∀ r, s.mode = .portal r → cfg.ssid = [] ∧ r.NoName ∧ (r.Works s.nvs → ¬Usable s.nvs)
  stays : s.mode = .off → Usable s.nvs → ∀ ls s', Runs.run (step cfg) readable s ls = some s' →
    s'.nvs = s.nvs ∧ ∀ r, s'.mode ≠ .portal r
  joins : ∀ received ssid pass s₁, portalSave received = .stored ssid pass →
    step cfg s (.save received true true) = some s₁ → ∀ ls s', Runs.run (step cfg) readable s₁ ls = some s' →
    s'.mode = .off ∨ ∃ r w, s'.mode = .station r w ∧ Joins w ssid pass

theorem credentials_kept (h : Reachable cfg s) : Provisioned cfg s := by
  have hi := Reachable.inv h
  refine ⟨?_, ?_, ?_, ?_⟩
  · intro r w hw
    obtain ⟨hsound, ssid, pass, hload, rfl⟩ := hi.station hw
    obtain ⟨hsource, hne, hssid, hpass⟩ := loadCreds_some hsound hload
    refine ⟨ssid, pass, hsource, hne, joins_wifiConnect (hsource.noNul hi.ssid hi.pass) hssid hpass, ?_⟩
    rintro hworks ⟨ssid', hssid', hne', hlen'⟩
    have hstored : loadCreds cfg r = some (ssid', s.nvs.phrase) := loadCreds_usable hworks hssid' hne' hlen'
    rw [hload] at hstored
    cases hstored
    exact ⟨hssid', rfl⟩
  · intro r hw
    obtain ⟨-, hload⟩ := hi.portal hw
    obtain ⟨hempty, hname⟩ := loadCreds_none hload
    exact ⟨hempty, hname, fun hworks => hworks.not_usable hname⟩
  · rintro hoff ⟨ssid, hssid, hne, hlen⟩ ls s' hrun
    obtain ⟨hnvs, hmode⟩ := settled_run hssid hne hlen ⟨rfl, .inl hoff⟩ hrun
    refine ⟨hnvs, fun r hportal => ?_⟩
    rcases hmode with hmode | ⟨r', hmode⟩ <;> rw [hmode] at hportal <;> cases hportal
  · intro received ssid pass s₁ hsave hs ls s' hrun
    obtain ⟨⟨hnul, hne, hssid⟩, hnul', hpass⟩ := portalSave_stored hsave
    have hs₁ : s₁ = ⟨⟨some ssid, some pass⟩, .off⟩ := by
      simp only [step, hsave] at hs
      split at hs
      case h_1 heq =>
        cases heq
        cases hs
        rfl
      case h_2 hother => exact (hother ssid pass rfl).elim
      case h_3 => cases hs
    subst hs₁
    have hsettled : Settled ⟨some ssid, some pass⟩ ssid ⟨⟨some ssid, some pass⟩, .off⟩ := ⟨rfl, .inl rfl⟩
    obtain ⟨hnvs, hmode⟩ := settled_run rfl hne hssid hsettled hrun
    have hphrase : Nvs.phrase ⟨some ssid, some pass⟩ = pass := by simp [Nvs.phrase, Option.filter, hpass]
    rw [hphrase] at hmode
    rcases hmode with hmode | ⟨r, hmode⟩
    · exact .inl hmode
    · exact .inr ⟨r, _, hmode, joins_wifiConnect ⟨hnul, hnul'⟩ hssid hpass⟩

def home : Nvs := ⟨some (ascii "home"), some (ascii "secret")⟩

theorem credentials_kept_station :
    (∃ s, Provisioned ⟨[], [], by decide⟩ s ∧ s.nvs = home ∧
      s.mode = .station ⟨true, home.ssid, none⟩ (wifiConnect (ascii "home") [])) ∧
    ∃ s, Provisioned ⟨[], [], by decide⟩ s ∧ s.nvs = home ∧
      s.mode = .station ⟨true, home.ssid, home.pass⟩ (wifiConnect (ascii "home") (ascii "secret")) := by
  obtain ⟨s, hs, hp⟩ := Runs.exists_of_run (step ⟨[], [], by decide⟩) IsInit sound ⟨⟨none, none⟩, .off⟩
    [.boot ⟨true, none, none⟩, .save (ascii "ssid=home&pass=secret") true true, .boot ⟨true, home.ssid, none⟩]
    (fun s => decide (s.nvs = home ∧
      s.mode = .station ⟨true, home.ssid, none⟩ (wifiConnect (ascii "home") [])))
    ⟨rfl, nofun, nofun⟩ (by decide +kernel)
  obtain ⟨s', hs', hp'⟩ := Runs.exists_of_run (step ⟨[], [], by decide⟩) IsInit sound ⟨⟨none, none⟩, .off⟩
    [.boot ⟨true, none, none⟩, .save (ascii "ssid=home&pass=secret") true true, .boot ⟨true, home.ssid, none⟩,
      .powerOff, .boot ⟨true, home.ssid, home.pass⟩]
    (fun s => decide (s.nvs = home ∧
      s.mode = .station ⟨true, home.ssid, home.pass⟩ (wifiConnect (ascii "home") (ascii "secret"))))
    ⟨rfl, nofun, nofun⟩ (by decide +kernel)
  exact ⟨⟨s, credentials_kept hs, of_decide_eq_true hp⟩, s', credentials_kept hs', of_decide_eq_true hp'⟩

end Runs

end HciBridge.Provisioning
