import HciBridge.ReleaseText

namespace HciBridge.Release

open Auth (Bytes Digest ascii hexlify)
open Text

inductive Redirects (net : Net) : ℕ → Bytes → ℕ → Bytes → Prop
  | here (t : ℕ) (url : Bytes) : Redirects net t url 0 url
  | hop {t n status : ℕ} {url loc last : Bytes} {body : Body} (h : net t url = .response status (some loc) body)
      (hs : isRedirect status = true) (hlen : loc.length ≤ maxLocation) (hnext : Redirects net (t + 1) loc n last) :
      Redirects net t url (n + 1) last

def Served (net : Net) (url body : Bytes) : Prop :=
  body.length ≤ maxBody ∧ ∃ t n last location b, n < 6 ∧ Redirects net t url n last ∧
    net (t + n) last = .response 200 location b ∧ readBody [] b.reads b.broken = .ok body

def Tagged (net : Net) (tag : Bytes) : Prop :=
  ∃ t n last status loc body, n < 6 ∧ Redirects net t latestUrl n last ∧
    net (t + n) last = .response status (some loc) body ∧ isRedirect status = true ∧ tagFromLocation loc = some tag

/-- Three attempts in a row, from the `t`-th request on, that all failed with an error that may go away. -/
def Thrice {α : Type} (f : ℕ → Except Err α × ℕ) (t : ℕ) (e : Err) (t' : ℕ) : Prop :=
  ∃ e₁ t₁ e₂ t₂, f t = (.error e₁, t₁) ∧ transient e₁ = true ∧ f t₁ = (.error e₂, t₂) ∧ transient e₂ = true ∧
    f t₂ = (.error e, t') ∧ transient e = true

section Loops

variable {net : Net} {body : Bytes}

theorem readBody_length {acc : Bytes} {reads : List Bytes} {broken : Bool} (hacc : acc.length ≤ maxBody)
    (h : readBody acc reads broken = .ok body) : body.length ≤ maxBody := by
  induction reads generalizing acc with
  | nil =>
    rw [readBody] at h
    split at h
    case isTrue => cases h
    case isFalse =>
      cases h
      exact hacc
  | cons chunk reads ih =>
    rw [readBody] at h
    split at h
    case isTrue =>
      cases h
      exact hacc
    case isFalse =>
      split at h
      case isTrue => cases h
      case isFalse hle => exact ih (not_lt.mp hle) h

theorem hop_last {t n : ℕ} {last : Bytes} {reply : Reply} (h : net (t + 1 + n) last = reply) :
    net (t + (n + 1)) last = reply := by
  rw [← h, Nat.add_assoc, Nat.add_comm 1 n]

theorem getLoop_ok {hops t : ℕ} {redirected : Bool} {url : Bytes}
    (h : (getLoop net hops redirected url t).1 = .ok body) :
    ∃ n last location b, n < hops ∧ Redirects net t url n last ∧
      net (t + n) last = .response 200 location b ∧ readBody [] b.reads b.broken = .ok body := by
  induction hops generalizing redirected url t with
  | zero => cases h
  | succ hops ih =>
    rw [getLoop] at h
    split at h
    case h_1 => cases h
    case h_2 status location b hnet =>
      split at h
      case isTrue hs =>
        split at h
        case h_1 => cases h
        case h_2 loc =>
          split at h
          case isTrue => cases h
          case isFalse hlen =>
            obtain ⟨n, last, location, b', hn, hred, hlast, hbody⟩ := ih h
            exact ⟨n + 1, last, location, b', by omega, .hop hnet hs (not_lt.mp hlen) hred, hop_last hlast, hbody⟩
      case isFalse =>
        split at h
        case isTrue => cases h
        case isFalse hok =>
          rw [not_not] at hok
          subst hok
          exact ⟨0, url, location, b, Nat.succ_pos _, .here t url, hnet, h⟩

theorem tagLoop_ok {hops t : ℕ} {url tag : Bytes} (h : (tagLoop net hops url t).1 = .ok tag) :
    ∃ n last status loc b, n < hops ∧ Redirects net t url n last ∧
      net (t + n) last = .response status (some loc) b ∧ isRedirect status = true ∧
      tagFromLocation loc = some tag := by
  induction hops generalizing url t with
  | zero => cases h
  | succ hops ih =>
    rw [tagLoop] at h
    split at h
    case h_1 => cases h
    case h_2 status location b hnet =>
      split at h
      case isTrue hs =>
        split at h
        case h_1 => cases h
        case h_2 loc =>
          split at h
          case h_1 htag =>
            cases h
            exact ⟨0, url, status, loc, b, Nat.succ_pos _, .here t url, hnet, hs, htag⟩
          case h_2 =>
            split at h
            case isTrue => cases h
            case isFalse hlen =>
              obtain ⟨n, last, status', loc', b', hn, hred, hlast, hs', htag⟩ := ih h
              exact ⟨n + 1, last, status', loc', b', by omega, .hop hnet hs (not_lt.mp hlen) hred, hop_last hlast, hs',
                htag⟩
      case isFalse => cases h

theorem getLoop_time (net : Net) (hops : ℕ) (redirected : Bool) (url : Bytes) (t : ℕ) :
    (getLoop net hops redirected url t).2 ≤ t + hops := by
  induction hops generalizing redirected url t with
  | zero => exact Nat.le_refl t
  | succ hops ih =>
    rw [getLoop]
    split
    case h_1 => omega
    case h_2 =>
      split
      case isTrue =>
        split
        case h_1 => omega
        case h_2 =>
          split
          case isTrue => omega
          case isFalse => exact (ih _ _ _).trans (by omega)
      case isFalse => split <;> omega

theorem tagLoop_time (net : Net) (hops : ℕ) (url : Bytes) (t : ℕ) : (tagLoop net hops url t).2 ≤ t + hops := by
  induction hops generalizing url t with
  | zero => exact Nat.le_refl t
  | succ hops ih =>
    rw [tagLoop]
    split
    case h_1 => omega
    case h_2 =>
      split
      case isTrue =>
        split
        case h_1 => omega
        case h_2 =>
          split
          case h_1 => omega
          case h_2 =>
            split
            case isTrue => omega
            case isFalse => exact (ih _ _).trans (by omega)
      case isFalse => omega

end Loops

section Retry

variable {α : Type} {f : ℕ → Except Err α × ℕ}

theorem retryFrom_ok {more t : ℕ} {a : α} (h : (retryFrom f more t).1 = .ok a) : ∃ t', (f t').1 = .ok a := by
  induction more generalizing t with
  | zero => exact ⟨t, h⟩
  | succ more ih =>
    rw [retryFrom] at h
    split at h
    case h_1 t' hf =>
      cases h
      exact ⟨t, by rw [hf]⟩
    case h_2 =>
      split at h
      case isTrue => exact ih h
      case isFalse => cases h

theorem retryFrom_time {m : ℕ} (hf : ∀ t, (f t).2 ≤ t + m) (more t : ℕ) :
    (retryFrom f more t).2 ≤ t + (more + 1) * m := by
  induction more generalizing t with
  | zero =>
    rw [Nat.zero_add, Nat.one_mul]
    exact hf t
  | succ more ih =>
    have ht := hf t
    have hmul : (more + 1 + 1) * m = (more + 1) * m + m := Nat.succ_mul _ _
    rw [retryFrom]
    split
    case h_1 t' heq =>
      rw [heq] at ht
      dsimp only at ht ⊢
      have hpos : 0 ≤ (more + 1) * m := Nat.zero_le _
      omega
    case h_2 t' heq =>
      rw [heq] at ht
      dsimp only at ht ⊢
      have hnext := ih t'
      have hpos : 0 ≤ (more + 1) * m := Nat.zero_le _
      split
      case isTrue => omega
      case isFalse => omega

theorem retry_time {m : ℕ} (hf : ∀ t, (f t).2 ≤ t + m) (t : ℕ) : (retry f t).2 ≤ t + attempts * m :=
  retryFrom_time hf (attempts - 1) t

theorem retry_ok {t : ℕ} {a : α} (h : (retry f t).1 = .ok a) : ∃ t', (f t').1 = .ok a := retryFrom_ok h

theorem retryFrom_error (more : ℕ) {t t' : ℕ} {e : Err} (h : retryFrom f (more + 1) t = (.error e, t'))
    (he : transient e = true) :
    ∃ e₁ t₁, f t = (.error e₁, t₁) ∧ transient e₁ = true ∧ retryFrom f more t₁ = (.error e, t') := by
  rw [retryFrom] at h
  split at h
  case h_1 => cases h
  case h_2 e₁ t₁ hf =>
    split at h
    case isTrue he₁ => exact ⟨e₁, t₁, hf, he₁, h⟩
    case isFalse he₁ =>
      cases h
      exact absurd he he₁

theorem retry_error {t t' : ℕ} {e : Err} (h : retry f t = (.error e, t')) (he : transient e = true) :
    Thrice f t e t' := by
  obtain ⟨e₁, t₁, hf, he₁, hrest⟩ := retryFrom_error 1 h he
  obtain ⟨e₂, t₂, hf₂, he₂, hlast⟩ := retryFrom_error 0 hrest he
  exact ⟨e₁, t₁, e₂, t₂, hf, he₁, hf₂, he₂, hlast, he⟩

end Retry

section Files

variable {net : Net}

theorem get_ok {url body : Bytes} {t : ℕ} (h : (get net url t).1 = .ok body) : Served net url body := by
  obtain ⟨t', hf⟩ := retry_ok h
  obtain ⟨n, last, location, b, hn, hred, hlast, hbody⟩ := getLoop_ok hf
  exact ⟨readBody_length (Nat.zero_le _) hbody, t', n, last, location, b, hn, hred, hlast, hbody⟩

theorem get_time (net : Net) (url : Bytes) (t : ℕ) : (get net url t).2 ≤ t + 18 :=
  retry_time (fun t => getLoop_time net 6 false url t) t

theorem bufPrint_lasting {cap : ℕ} {text : Bytes} {e : Err} (h : bufPrint cap text = .error e) :
    transient e = false := by
  rw [bufPrint] at h
  split at h
  case isTrue => cases h
  case isFalse =>
    cases h
    rfl

theorem bufPrint_ok {cap : ℕ} {text out : Bytes} (h : bufPrint cap text = .ok out) : text = out := by
  rw [bufPrint] at h
  split at h
  case isTrue =>
    cases h
    rfl
  case isFalse => cases h

theorem latestTag_time (net : Net) (t : ℕ) : (retry (latestTag net) t).2 ≤ t + 18 :=
  retry_time (fun t => tagLoop_time net 6 latestUrl t) t

theorem latest_time (net : Net) (t : ℕ) : (latest net t).2 ≤ t + 36 := by
  have htag := latestTag_time net t
  rw [latest]
  split
  case h_1 heq =>
    rw [heq] at htag
    exact htag.trans (by omega)
  case h_2 tag t₁ heq =>
    rw [heq] at htag
    dsimp only at htag
    split
    case h_1 => exact htag.trans (by omega)
    case h_2 url _ =>
      have hget := get_time net url t₁
      split
      case h_1 heq | h_2 heq =>
        rw [heq] at hget
        exact hget.trans (by omega)

theorem tagged_of_retry {tag : Bytes} {t : ℕ} (h : (retry (latestTag net) t).1 = .ok tag) :
    Tag tag ∧ Tagged net tag := by
  obtain ⟨t₀, hf⟩ := retry_ok h
  obtain ⟨n, last, status, loc, b, hn, hred, hlast, hs, hloc⟩ := tagLoop_ok hf
  exact ⟨(cut_of_tagFromLocation hloc).1, t₀, n, last, status, loc, b, hn, hred, hlast, hs, hloc⟩

theorem latest_error {t t' : ℕ} {e : Err} (h : latest net t = (.error e, t')) (he : transient e = true) :
    Thrice (latestTag net) t e t' ∨
      ∃ tag t₁, Tagged net tag ∧ Thrice (getOnce net (assetUrl tag (ascii "SHA256SUMS"))) t₁ e t' := by
  rw [latest] at h
  split at h
  case h_1 htag =>
    cases h
    exact .inl (retry_error htag he)
  case h_2 tag t₁ htag =>
    split at h
    case h_1 hurl =>
      cases h
      simp [bufPrint_lasting hurl] at he
    case h_2 url hurl =>
      split at h
      case h_1 hget =>
        cases h
        rw [← bufPrint_ok hurl] at hget
        exact .inr ⟨tag, t₁, (tagged_of_retry (by rw [htag])).2, retry_error hget he⟩
      case h_2 => cases h

theorem latest_ok {l : Latest} {t t' : ℕ} (h : latest net t = (.ok l, t')) :
    Tag l.tag ∧ Tagged net l.tag ∧ Served net (assetUrl l.tag (ascii "SHA256SUMS")) l.sums := by
  rw [latest] at h
  split at h
  case h_1 => cases h
  case h_2 tag t₁ htag =>
    split at h
    case h_1 => cases h
    case h_2 url hurl =>
      split at h
      case h_1 => cases h
      case h_2 sums t₂ hget =>
        cases h
        have hretry : (retry (latestTag net) t).1 = .ok tag := by rw [htag]
        obtain ⟨hform, htagged⟩ := tagged_of_retry hretry
        have hserved : Served net url sums := get_ok (by rw [hget])
        rw [← bufPrint_ok hurl] at hserved
        exact ⟨hform, htagged, hserved⟩

theorem image_time (sha256 : Bytes → Digest) (net : Net) (l : Latest) (board : Bytes) (t : ℕ) :
    (l.image sha256 net board t).2 ≤ t + 18 := by
  rw [Latest.image]
  split
  case h_1 => exact Nat.le_add_right _ _
  case h_2 =>
    split
    case h_1 => exact Nat.le_add_right _ _
    case h_2 =>
      split
      case h_1 => exact Nat.le_add_right _ _
      case h_2 url _ =>
        have hget := get_time net url t
        split
        case h_1 heq =>
          rw [heq] at hget
          exact hget
        case h_2 heq =>
          rw [heq] at hget
          split <;> exact hget

theorem image_ok {sha256 : Bytes → Digest} {l : Latest} {board body : Bytes} {t t' : ℕ}
    (h : l.image sha256 net board t = (.ok body, t')) :
    ∃ name, imageName board = .ok name ∧ sumFor l.sums name = some (hexlify (sha256 body).bytes) ∧
      Served net (assetUrl l.tag name) body := by
  rw [Latest.image] at h
  split at h
  case h_1 => cases h
  case h_2 name hname =>
    split at h
    case h_1 => cases h
    case h_2 expected hsum =>
      split at h
      case h_1 => cases h
      case h_2 url hurl =>
        split at h
        case h_1 => cases h
        case h_2 got t₁ hget =>
          split at h
          case isTrue hhash =>
            cases h
            have hserved : Served net url body := get_ok (by rw [hget])
            rw [← bufPrint_ok hurl] at hserved
            exact ⟨name, hname, by rw [hhash, hsum], hserved⟩
          case isFalse => cases h

theorem image_error {sha256 : Bytes → Digest} {l : Latest} {board : Bytes} {t t' : ℕ} {e : Err}
    (h : l.image sha256 net board t = (.error e, t')) (he : transient e = true) :
    ∃ name, imageName board = .ok name ∧ Thrice (getOnce net (assetUrl l.tag name)) t e t' := by
  rw [Latest.image] at h
  split at h
  case h_1 hname =>
    cases h
    simp [bufPrint_lasting hname] at he
  case h_2 name hname =>
    split at h
    case h_1 =>
      cases h
      cases he
    case h_2 =>
      split at h
      case h_1 hurl =>
        cases h
        simp [bufPrint_lasting hurl] at he
      case h_2 url hurl =>
        split at h
        case h_1 hget =>
          cases h
          rw [← bufPrint_ok hurl] at hget
          exact ⟨name, hname, retry_error hget he⟩
        case h_2 =>
          split at h
          case isTrue => cases h
          case isFalse =>
            cases h
            cases he

end Files

theorem fetched_from_release (sha256 : Bytes → Digest) (net : Net) :
    (∀ t l t', latest net t = (.ok l, t') → Tag l.tag ∧ Tagged net l.tag ∧
      Served net (assetUrl l.tag (ascii "SHA256SUMS")) l.sums) ∧
    (∀ l board t body t', Latest.image sha256 net l board t = (.ok body, t') →
      ∃ name, imageName board = .ok name ∧ sumFor l.sums name = some (hexlify (sha256 body).bytes) ∧
        Served net (assetUrl l.tag name) body) ∧
    (∀ t, (latest net t).2 ≤ t + 36 ∧ ∀ l board, (Latest.image sha256 net l board t).2 ≤ t + 18) ∧
    -- what may go away is given up on after three attempts: at the tag, at the sums, at the image
    (∀ t e t', latest net t = (.error e, t') → transient e = true →
      Thrice (latestTag net) t e t' ∨
        ∃ tag t₁, Tagged net tag ∧ Thrice (getOnce net (assetUrl tag (ascii "SHA256SUMS"))) t₁ e t') ∧
    (∀ l board t e t', Latest.image sha256 net l board t = (.error e, t') → transient e = true →
      ∃ name, imageName board = .ok name ∧ Thrice (getOnce net (assetUrl l.tag name)) t e t') :=
  ⟨fun _ _ _ => latest_ok, fun _ _ _ _ _ => image_ok,
    fun t => ⟨latest_time net t, fun l board => image_time sha256 net l board t⟩, fun _ _ _ => latest_error,
    fun _ _ _ _ _ => image_error⟩

end HciBridge.Release
