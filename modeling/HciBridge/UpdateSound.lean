import HciBridge.ReleaseFetch
import HciBridge.Update

namespace HciBridge.Update

open Auth (Bytes Psk ascii hexlify)
open Config (lookupPsk)
open Release (Latest Tag Tagged Served assetUrl imageName sumFor)
open StatusJson (BoardInfo boardInfo)

variable (c : Command)

def FromRelease (l : Latest) : Prop :=
  Tag l.tag ∧ Tagged c.net l.tag ∧ Served c.net (assetUrl l.tag (ascii "SHA256SUMS")) l.sums

def Verified (l : Latest) (board img : Bytes) : Prop :=
  ∃ name, imageName board = .ok name ∧ sumFor l.sums name = some (hexlify (c.hashes.sha256 img).bytes) ∧
    Served c.net (assetUrl l.tag name) img

inductive Chosen (l : Option Latest) (page : Option Bytes) (img : Bytes) : Prop
  | file (h : c.fileImage = some img)
  | release {r : Latest} {info : BoardInfo} {board : Bytes} (hfile : c.fileImage = none) (hl : l = some r)
      (hpage : page.bind boardInfo = some info) (hboard : (c.boardOverride <|> info.board) = some board)
      (hnew : info.version ≠ r.tag) (h : Verified c r board img)

inductive Proved (page : Option Bytes) (img : Bytes) : Option Bytes → Prop
  | keyed {info : BoardInfo} {psk : Psk} {headers : Bytes} (hpage : page.bind boardInfo = some info)
      (hclaimed : info.claimed ≠ none) (hkey : lookupPsk c.keys info.bdaddr = some psk)
      (h : KeyProtocol.Zig.authHeaders c.hashes psk (ascii "POST") (ascii "/ota") info.nonce img = some headers) :
      Proved page img (some headers)
  | beforeKeys {info : BoardInfo} (hpage : page.bind boardInfo = some info) (hclaimed : info.claimed = none) :
      Proved page img none

def State.rel (s : State) : Option Latest := s.latest.map LatestImages.rel

/-- The release for a board that the command comes to in state `s`, and the number of the next request. -/
inductive Found (s : State) : Latest → ℕ → Prop
  | before {r : Latest} (h : s.rel = some r) : Found s r s.requests
  | now {r : Latest} {t : ℕ} (hnone : s.rel = none) (h : Release.latest c.net s.requests = (.ok r, t)) : Found s r t

/-- Why a board that the command comes to in state `s` is sent nothing although it may need an image. -/
inductive Unsent (s : State) (a : Answers) : Prop
  | noPage (hfile : c.fileImage = none) (hpage : a.firstPage.bind boardInfo = none)
  | noPreset {info : BoardInfo} (hfile : c.fileImage = none) (hpage : a.firstPage.bind boardInfo = some info)
      (hboard : (c.boardOverride <|> info.board) = none)
  | noRelease {info : BoardInfo} {board : Bytes} {t : ℕ} {e : Release.Err} (hfile : c.fileImage = none)
      (hpage : a.firstPage.bind boardInfo = some info) (hboard : (c.boardOverride <|> info.board) = some board)
      (hnone : s.rel = none) (h : Release.latest c.net s.requests = (.error e, t))
  | noImage {r : Latest} {info : BoardInfo} {board : Bytes} {t t' : ℕ} {e : Release.Err} (hfile : c.fileImage = none)
      (hpage : a.firstPage.bind boardInfo = some info) (hboard : (c.boardOverride <|> info.board) = some board)
      (hr : Found c s r t) (hnew : info.version ≠ r.tag) (h : r.image c.hashes.sha256 c.net board t = (.error e, t'))
  | gone (hpage : a.secondPage.bind boardInfo = none)
  | noKey {info : BoardInfo} (hpage : a.secondPage.bind boardInfo = some info) (hclaimed : info.claimed ≠ none)
      (hkey : lookupPsk c.keys info.bdaddr = none)

inductive Outcome (l : Option Latest) (s : State) (b : Addr × Answers) : Option Post × Bool → Prop
  | upToDate {r : Latest} {info : BoardInfo} (hfile : c.fileImage = none) (hl : l = some r)
      (hpage : b.2.firstPage.bind boardInfo = some info) (h : info.version = r.tag) : Outcome l s b (none, true)
  | failed (h : Unsent c s b.2) : Outcome l s b (none, false)
  | posted {img : Bytes} {headers : Option Bytes} (himg : Chosen c l b.2.firstPage img)
      (hproof : Proved c b.2.secondPage img headers) :
      Outcome l s b (some ⟨⟨b.1.ip, 80⟩, img, headers⟩, b.2.upload = some 200)

def starts (s : State) : List (Addr × Answers) → List State
  | [] => []
  | b :: bridges => s :: starts (visit c b.1 b.2 s).2 bridges

def Kept (s : State) : Prop :=
  ∀ li, s.latest = some li → FromRelease c li.rel ∧ ∀ p ∈ li.cache, Verified c li.rel p.1 p.2

section Rounds

variable {c} {s s' : State} {li : LatestImages} {info : BoardInfo} {board img : Bytes} {t : ℕ}

theorem authHeaders_fits (H : KeyProtocol.Hashes) (psk : Psk) (nonce : Option Auth.HttpNonce) (body : Bytes) :
    ∃ headers, KeyProtocol.Zig.authHeaders H psk (ascii "POST") (ascii "/ota") nonce body = some headers := by
  have hhex (d : Auth.Digest) : (hexlify d.bytes).length = 64 := by
    rw [Auth.hexlify_length, d.length_eq]
  unfold KeyProtocol.Zig.authHeaders
  cases nonce with
  | none =>
    refine ⟨_, if_pos ?_⟩
    simp [ascii, KeyProtocol.Zig.httpAuthLegacy, hhex]
  | some n =>
    refine ⟨_, if_pos ?_⟩
    simp [ascii, KeyProtocol.Zig.httpAuth, KeyProtocol.Zig.httpPre, hhex]

theorem Chosen.mono {l l' : Option Latest} {page : Option Bytes} (h : Chosen c l page img)
    (hl : ∀ r, l = some r → l' = some r) : Chosen c l' page img := by
  cases h with
  | file h => exact .file h
  | release hfile hr hpage hboard hnew h => exact .release hfile (hl _ hr) hpage hboard hnew h

theorem Outcome.mono {l l' : Option Latest} {b : Addr × Answers} {res : Option Post × Bool} (h : Outcome c l s b res)
    (hl : ∀ r, l = some r → l' = some r) : Outcome c l' s b res := by
  cases h with
  | upToDate hfile hr hpage hversion => exact .upToDate hfile (hl _ hr) hpage hversion
  | failed h => exact .failed h
  | posted himg hproof => exact .posted (himg.mono hl) hproof

inductive Pick (c : Command) (s₀ : State) (a : Answers) : Picked → State → Prop
  | reported (s : State) (h : Unsent c s₀ a) : Pick c s₀ a .reported s
  | nothingToDo {s : State} {r : Latest} {info : BoardInfo} (hfile : c.fileImage = none) (hr : s.rel = some r)
      (hpage : a.firstPage.bind boardInfo = some info) (h : info.version = r.tag) : Pick c s₀ a .nothingToDo s
  | image {s : State} {img : Bytes} (h : Chosen c s.rel a.firstPage img) : Pick c s₀ a (.image img) s

theorem mem_of_lookup {cache : List (Bytes × Bytes)} (h : cache.lookup board = some img) : (board, img) ∈ cache := by
  obtain ⟨before, after, rfl, -⟩ := List.lookup_eq_some_iff.mp h
  simp

theorem kept_of_new {rel : Latest} (hrel : FromRelease c rel) (t : ℕ) : Kept c ⟨some ⟨rel, []⟩, t⟩ := by
  rintro li ⟨⟩
  exact ⟨hrel, nofun⟩

theorem cachedImage_spec (board : Bytes) (hkept : Kept c ⟨some li, t⟩) :
    Kept c (cachedImage c li board t).2 ∧ (cachedImage c li board t).2.rel = some li.rel ∧
      (cachedImage c li board t).2.requests ≤ t + 18 ∧
      ((cachedImage c li board t).1 = .reported ∧
          (∃ e t', li.rel.image c.hashes.sha256 c.net board t = (.error e, t')) ∨
        ∃ img, (cachedImage c li board t).1 = .image img ∧ Verified c li.rel board img) := by
  obtain ⟨hrel, hcache⟩ := hkept li rfl
  unfold cachedImage
  split
  case h_1 img hlookup =>
    exact ⟨hkept, rfl, Nat.le_add_right _ _, .inr ⟨img, rfl, hcache _ (mem_of_lookup hlookup)⟩⟩
  case h_2 =>
    have htime := Release.image_time c.hashes.sha256 c.net li.rel board t
    split
    case h_1 himage =>
      rw [himage] at htime
      exact ⟨hkept, rfl, htime, .inl ⟨rfl, _, _, himage⟩⟩
    case h_2 img t' himage =>
      rw [himage] at htime
      obtain ⟨name, hname, hsum, hserved⟩ := Release.image_ok himage
      have hverified : Verified c li.rel board img := ⟨name, hname, hsum, hserved⟩
      refine ⟨?_, rfl, htime, .inr ⟨img, rfl, hverified⟩⟩
      rintro _ ⟨⟩
      exact ⟨hrel, List.forall_mem_cons.mpr ⟨hverified, hcache⟩⟩

theorem pickFor_spec {a : Answers} (hfile : c.fileImage = none) (hpage : a.firstPage.bind boardInfo = some info)
    (hboard : (c.boardOverride <|> info.board) = some board) (hfound : Found c s li.rel t)
    (hkept : Kept c ⟨some li, t⟩) :
    Kept c (pickFor c li info board t).2 ∧ (pickFor c li info board t).2.rel = some li.rel ∧
      (pickFor c li info board t).2.requests ≤ t + 18 ∧
      Pick c s a (pickFor c li info board t).1 (pickFor c li info board t).2 := by
  unfold pickFor
  split
  case isTrue hsame => exact ⟨hkept, rfl, Nat.le_add_right _ _, .nothingToDo hfile rfl hpage hsame⟩
  case isFalse hnew =>
    obtain ⟨hkept', hrel, htime, hpick⟩ := cachedImage_spec board hkept
    refine ⟨hkept', hrel, htime, ?_⟩
    rcases hpick with ⟨hpick, _, _, himage⟩ | ⟨img, hpick, hverified⟩
    · rw [hpick]
      exact .reported _ (.noImage hfile hpage hboard hfound hnew himage)
    · rw [hpick]
      exact .image (.release hfile hrel hpage hboard hnew hverified)

theorem imageFor_spec (a : Answers) (hkept : Kept c s) :
    Kept c (imageFor c a.firstPage s).2 ∧ (∀ r, s.rel = some r → (imageFor c a.firstPage s).2.rel = some r) ∧
      (imageFor c a.firstPage s).2.requests ≤ s.requests + 54 ∧
      Pick c s a (imageFor c a.firstPage s).1 (imageFor c a.firstPage s).2 := by
  unfold imageFor
  split
  case h_1 img hfile => exact ⟨hkept, fun _ => id, Nat.le_add_right _ _, .image (.file hfile)⟩
  case h_2 hfile =>
    split
    case h_1 hpage => exact ⟨hkept, fun _ => id, Nat.le_add_right _ _, .reported _ (.noPage hfile hpage)⟩
    case h_2 info hpage =>
      split
      case h_1 hboard =>
        exact ⟨hkept, fun _ => id, Nat.le_add_right _ _, .reported _ (.noPreset hfile hpage hboard)⟩
      case h_2 board hboard =>
        split
        case h_1 li hli =>
          have hkept' : Kept c ⟨some li, s.requests⟩ := fun li' hli' => hkept li' (hli.trans hli')
          have hsrel : s.rel = some li.rel := by rw [State.rel, hli, Option.map_some]
          obtain ⟨hkept', hrel, htime, hpick⟩ := pickFor_spec hfile hpage hboard (.before hsrel) hkept'
          refine ⟨hkept', fun r hr => ?_, by omega, hpick⟩
          rw [hrel, ← hr, hsrel]
        case h_2 hnone =>
          have hlook := Release.latest_time c.net s.requests
          have hsrel : s.rel = none := by rw [State.rel, hnone, Option.map_none]
          have hfresh (s' : State) : ∀ r, s.rel = some r → s'.rel = some r := by
            intro r hr
            rw [hsrel] at hr
            cases hr
          split
          case h_1 hlatest =>
            rw [hlatest] at hlook
            refine ⟨nofun, hfresh _, ?_, .reported _ (.noRelease hfile hpage hboard hsrel hlatest)⟩
            dsimp only at hlook ⊢
            omega
          case h_2 rel t' hlatest =>
            rw [hlatest] at hlook
            have hrelease := Release.latest_ok hlatest
            obtain ⟨hkept', -, htime, hpick⟩ := pickFor_spec hfile hpage hboard (.now hsrel hlatest)
              (kept_of_new hrelease t')
            exact ⟨hkept', hfresh _, by dsimp only at hlook; omega, hpick⟩

theorem updateOne_spec {l : Option Latest} {b : Addr × Answers} (himg : Chosen c l b.2.firstPage img) :
    Outcome c l s b (updateOne c ⟨b.1.ip, 80⟩ img b.2.secondPage b.2.upload) := by
  unfold updateOne
  split
  case h_1 hpage => exact .failed (.gone hpage)
  case h_2 info hpage =>
    split
    case h_1 hclaimed =>
      split
      case h_1 hkey => exact .failed (.noKey hpage (by simp [hclaimed]) hkey)
      case h_2 psk hkey =>
        obtain ⟨headers, hheaders⟩ := authHeaders_fits c.hashes psk info.nonce img
        dsimp only
        rw [hheaders]
        exact .posted himg (.keyed hpage (by simp [hclaimed]) hkey hheaders)
    case h_2 hclaimed => exact .posted himg (.beforeKeys hpage hclaimed)

theorem visit_spec (b : Addr × Answers) (hkept : Kept c s) :
    Kept c (visit c b.1 b.2 s).2 ∧ (∀ r, s.rel = some r → (visit c b.1 b.2 s).2.rel = some r) ∧
      (visit c b.1 b.2 s).2.requests ≤ s.requests + 54 ∧
      Outcome c (visit c b.1 b.2 s).2.rel s b (visit c b.1 b.2 s).1 := by
  obtain ⟨hkept', hrel, htime, hpick⟩ := imageFor_spec b.2 hkept
  unfold visit
  dsimp only
  generalize imageFor c b.2.firstPage s = r at hkept' hrel htime hpick
  obtain ⟨picked, s'⟩ := r
  cases hpick with
  | reported _ h => exact ⟨hkept', hrel, htime, .failed h⟩
  | nothingToDo hfile hr hpage h => exact ⟨hkept', hrel, htime, .upToDate hfile hr hpage h⟩
  | image h => exact ⟨hkept', hrel, htime, updateOne_spec h⟩

theorem visits_spec (bridges : List (Addr × Answers)) (hkept : Kept c s) :
    Kept c (visits c s bridges).2 ∧ (∀ r, s.rel = some r → (visits c s bridges).2.rel = some r) ∧
      (visits c s bridges).2.requests ≤ s.requests + 54 * bridges.length ∧
      List.Forall₂ (fun x res => Outcome c (visits c s bridges).2.rel x.1 x.2 res) ((starts c s bridges).zip bridges)
        (visits c s bridges).1 := by
  induction bridges generalizing s with
  | nil => exact ⟨hkept, fun _ => id, le_refl _, .nil⟩
  | cons b bridges ih =>
    obtain ⟨hkept₁, hrel₁, htime₁, houtcome⟩ := visit_spec b hkept
    obtain ⟨hkept₂, hrel₂, htime₂, houtcomes⟩ := ih hkept₁
    refine ⟨hkept₂, fun r hr => hrel₂ r (hrel₁ r hr), ?_, .cons (houtcome.mono hrel₂) houtcomes⟩
    simp only [visits, List.length_cons]
    omega

end Rounds

def Target.boards : Target → List (Addr × Answers)
  | all bridges => bridges
  | address none _ => []
  | address (some ip) a => [(⟨ip, 80⟩, a)]

theorem length_visits (s : State) (bridges : List (Addr × Answers)) :
    (visits c s bridges).1.length = bridges.length := by
  induction bridges generalizing s with
  | nil => rfl
  | cons b bridges ih => simp [visits, ih]

theorem update_all_code (bridges : List (Addr × Answers)) :
    (update c (.all bridges)).2 = 0 ↔ bridges ≠ [] ∧ ∀ res ∈ (visits c ⟨none, 0⟩ bridges).1, res.2 = true := by
  simp only [update]
  rw [← length_visits c ⟨none, 0⟩ bridges]
  by_cases hne : bridges = []
  · simp [hne]
  · rw [if_neg hne]
    split
    case isTrue hall => simpa [hne, List.countP_eq_length] using hall
    case isFalse hall => simpa [hne, List.countP_eq_length] using hall

theorem update_sound (target : Target) :
    ∃ (l : Option Latest) (results : List (Option Post × Bool)), (∀ r, l = some r → FromRelease c r) ∧
      List.Forall₂ (fun x res => Outcome c l x.1 x.2 res) ((starts c ⟨none, 0⟩ target.boards).zip target.boards)
        results ∧
      (update c target).1 = results.filterMap Prod.fst ∧
      ((update c target).2 = 0 ↔ target.boards ≠ [] ∧ ∀ res ∈ results, res.2 = true) := by
  have hstart : Kept c ⟨none, 0⟩ := nofun
  obtain ⟨hkept, -, -, houtcomes⟩ := visits_spec target.boards hstart
  refine ⟨_, _, ?_, houtcomes, ?_, ?_⟩
  · intro r hr
    obtain ⟨li, hli, rfl⟩ := Option.map_eq_some_iff.mp hr
    exact (hkept li hli).1
  · cases target with
    | all => rfl
    | address ip a =>
      cases ip with
      | none => rfl
      | some ip =>
        simp only [update, Target.boards, visits]
        generalize (visit c ⟨ip, 80⟩ a ⟨none, 0⟩).1 = result
        obtain ⟨post | post, good⟩ := result <;> rfl
  · cases target with
    | all bridges => exact update_all_code c bridges
    | address ip a =>
      cases ip with
      | none => simp [update, Target.boards]
      | some ip => simp [update, Target.boards, visits]

end HciBridge.Update
