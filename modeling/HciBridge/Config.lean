import HciBridge.Auth
import HciBridge.Text

/-!
`host/config.zig`: the main configuration file and the drop-in directory beside it.
-/

namespace HciBridge.Config

open Text
open Auth (Bytes ascii)

structure Pair where
  key : Bytes
  value : Bytes
  source : Bytes
deriving DecidableEq, Repr

/-- `prev` is the byte in front, `none` at the start of the line. -/
def stripCommentFrom (prev : Option UInt8) : Bytes → Bytes
  | [] => []
  | c :: cs =>
    if (c = 35 ∨ c = 59) ∧ (prev = none ∨ prev = some 32 ∨ prev = some 9) then []
    else c :: stripCommentFrom (some c) cs

def stripComment (line : Bytes) : Bytes := stripCommentFrom none line

def applyLine (source raw : Bytes) : Option Pair :=
  let line := trim [32, 9, 13] (stripComment raw)
  if line = [] then none
  else
    match cut 61 line with
    | none => none
    | some (before, after) =>
      let key := trim [32, 9] before
      let val := trim [32, 9] after
      if key = [] then none else some ⟨key, val, source⟩

def applyTextFrom (pairs : List Pair) (text source : Bytes) : List Pair :=
  pairs ++ (text.splitOn 10).filterMap (applyLine source)

def applyText (pairs : List Pair) (text : Bytes) : List Pair := applyTextFrom pairs text (ascii "config")

inductive ReadError
  | accessDenied | isDir | inputOutput | unexpected
deriving DecidableEq, Repr

inductive FileState
  | absent
  | failed (err : ReadError)
  | content (text : Bytes)
deriving DecidableEq, Repr

inductive EntryKind
  | file | symLink | unknown | directory | special
deriving DecidableEq, Repr

structure Entry where
  name : Bytes
  kind : EntryKind
  file : FileState
deriving DecidableEq, Repr

inductive DirState
  | absent
  | notDir
  | failed (err : ReadError)
  | listing (entries : List Entry) (err : Option ReadError)
deriving DecidableEq, Repr

/-- The main file and `<path>.d`. -/
structure Files where
  main : FileState
  dropIns : DirState
deriving DecidableEq, Repr

def readFile : FileState → Except ReadError (Option Bytes)
  | .absent => .ok none
  | .failed err => .error err
  | .content text => .ok (some text)

def Entry.isFragment (e : Entry) : Bool :=
  (e.kind = .file ∨ e.kind = .symLink ∨ e.kind = .unknown) ∧ ascii ".conf" <:+ e.name

def sortByName (entries : List Entry) : List Entry := entries.insertionSort fun a b => a.name ≤ b.name

def applyFragment (dpath : Bytes) (pairs : List Pair) (e : Entry) : List Pair :=
  let fpath := dpath ++ ascii "/" ++ e.name
  if 640 < fpath.length then pairs
  else
    match readFile e.file with
    | .ok (some frag) => applyTextFrom pairs frag fpath
    | .ok none => pairs
    | .error _ => pairs

def loadRaw (files : Files) (path : Bytes) : Except ReadError (List Pair) := do
  let pairs :=
    match ← readFile files.main with
    | some main => applyTextFrom [] main path
    | none => []
  let dpath := path ++ ascii ".d"
  if 512 < dpath.length then return pairs
  match files.dropIns with
  | .absent | .notDir => return pairs
  | .failed err => throw err
  | .listing _ (some err) => throw err
  | .listing entries none =>
    return (sortByName (entries.filter Entry.isFragment)).foldl (applyFragment dpath) pairs

def hasComment (prev : Option UInt8) : Bytes → Bool
  | [] => false
  | c :: cs => ((c = 35 ∨ c = 59) ∧ (prev = none ∨ prev = some 32 ∨ prev = some 9)) || hasComment (some c) cs

theorem stripCommentFrom_isPrefix (prev : Option UInt8) (l : Bytes) : stripCommentFrom prev l <+: l := by
  induction l generalizing prev with
  | nil => exact List.prefix_rfl
  | cons c cs ih =>
    rw [stripCommentFrom]
    split
    · exact List.nil_prefix
    · exact List.prefix_cons_inj c |>.mpr (ih (some c))

theorem stripCommentFrom_append {prev : Option UInt8} {a : Bytes} (h : hasComment prev a = false) (b : Bytes) :
    stripCommentFrom prev (a ++ b) = a ++ stripCommentFrom (a.getLast?.or prev) b := by
  induction a generalizing prev with
  | nil => rfl
  | cons c cs ih =>
    simp only [hasComment, Bool.or_eq_false_iff, decide_eq_false_iff_not] at h
    rw [List.cons_append, stripCommentFrom, if_neg h.1, ih h.2, List.cons_append]
    cases cs with
    | nil => rfl
    | cons d ds => rw [List.getLast?_cons_cons, List.getLast?_eq_some_getLast (List.cons_ne_nil d ds)]; rfl

theorem stripCommentFrom_eq_self {prev : Option UInt8} {l : Bytes} (h : hasComment prev l = false) :
    stripCommentFrom prev l = l := by
  have := stripCommentFrom_append h []
  rwa [List.append_nil, stripCommentFrom, List.append_nil] at this

theorem hasComment_eq_false_of_notMem {prev : Option UInt8} {l : Bytes} (h35 : 35 ∉ l) (h59 : 59 ∉ l) :
    hasComment prev l = false := by
  induction l generalizing prev with
  | nil => rfl
  | cons c cs ih =>
    simp only [List.mem_cons, not_or] at h35 h59
    have hc : ¬ ((c = 35 ∨ c = 59) ∧ (prev = none ∨ prev = some 32 ∨ prev = some 9)) := by
      rintro ⟨rfl | rfl, -⟩
      · exact h35.1 rfl
      · exact h59.1 rfl
    simp only [hasComment, hc, decide_false, Bool.false_or]
    exact ih h35.2 h59.2

theorem applyLine_eq_some {source raw : Bytes} {p : Pair} (h : applyLine source raw = some p) :
    ∃ before after, cut 61 (trim [32, 9, 13] (stripComment raw)) = some (before, after) ∧
      p = ⟨trim [32, 9] before, trim [32, 9] after, source⟩ ∧ trim [32, 9] before ≠ [] := by
  unfold applyLine at h
  simp only at h
  split at h
  · cases h
  · split at h
    · cases h
    case h_2 before after hcut =>
      split at h
      · cases h
      case isFalse hkey =>
        cases h
        exact ⟨before, after, hcut, rfl, hkey⟩

def fragmentPairs (dpath : Bytes) (e : Entry) : List Pair := applyFragment dpath [] e

theorem applyFragment_eq (dpath : Bytes) (pairs : List Pair) (e : Entry) :
    applyFragment dpath pairs e = pairs ++ fragmentPairs dpath e := by
  obtain ⟨name, kind, file⟩ := e
  simp only [fragmentPairs, applyFragment]
  by_cases hlen : 640 < (dpath ++ ascii "/" ++ name).length
  · simp only [if_pos hlen, List.append_nil]
  · simp only [if_neg hlen]
    cases file <;> simp only [readFile, applyTextFrom, List.nil_append, List.append_nil]

theorem foldl_applyFragment (dpath : Bytes) (es : List Entry) (pairs : List Pair) :
    es.foldl (applyFragment dpath) pairs = pairs ++ es.flatMap (fragmentPairs dpath) := by
  induction es generalizing pairs with
  | nil => simp
  | cons e es ih => rw [List.foldl_cons, ih, applyFragment_eq, List.flatMap_cons, List.append_assoc]

def mainPairs (main : FileState) (path : Bytes) : List Pair :=
  match main with
  | .content text => applyTextFrom [] text path
  | _ => []

theorem mem_loadRaw_listing {main : FileState} {es : List Entry} {path : Bytes} {pairs : List Pair}
    (hlen : (path ++ ascii ".d").length ≤ 512)
    (h : loadRaw ⟨main, .listing es none⟩ path = .ok pairs) (p : Pair) :
    p ∈ pairs ↔ p ∈ mainPairs main path ∨
      ∃ e ∈ es, e.isFragment = true ∧ p ∈ fragmentPairs (path ++ ascii ".d") e := by
  have hpairs : pairs = mainPairs main path ++
      (sortByName (es.filter Entry.isFragment)).flatMap (fragmentPairs (path ++ ascii ".d")) := by
    unfold loadRaw at h
    cases main with
    | failed err => cases h
    | absent =>
      simp only [readFile, bind, Except.bind, if_neg (Nat.not_lt.mpr hlen), foldl_applyFragment] at h
      cases h
      rfl
    | content text =>
      simp only [readFile, bind, Except.bind, if_neg (Nat.not_lt.mpr hlen), foldl_applyFragment] at h
      cases h
      rfl
  have hsort : ∀ e, e ∈ sortByName (es.filter Entry.isFragment) ↔ e ∈ es ∧ e.isFragment = true := by
    intro e
    rw [sortByName, List.mem_insertionSort, List.mem_filter]
  simp only [hpairs, List.mem_append, List.mem_flatMap, hsort, and_assoc]

theorem loadRaw_unreadable_dir {main : FileState} {d : DirState} {path : Bytes} {err : ReadError}
    (hlen : (path ++ ascii ".d").length ≤ 512) (hd : d = .failed err ∨ ∃ es, d = .listing es (some err))
    (pairs : List Pair) : loadRaw ⟨main, d⟩ path ≠ .ok pairs := by
  intro h
  unfold loadRaw at h
  rcases hd with rfl | ⟨es, rfl⟩
  · cases main <;>
      simp only [readFile, bind, Except.bind, if_neg (Nat.not_lt.mpr hlen)] at h <;> cases h
  · cases main <;>
      simp only [readFile, bind, Except.bind, if_neg (Nat.not_lt.mpr hlen)] at h <;> cases h

def Files.fragments (files : Files) : List Entry :=
  match files.dropIns with
  | .listing entries _ => entries.filter Entry.isFragment
  | _ => []

theorem mem_loadRaw {files : Files} {path : Bytes} {pairs : List Pair} (hlen : (path ++ ascii ".d").length ≤ 512)
    (h : loadRaw files path = .ok pairs) (p : Pair) :
    p ∈ pairs ↔ p ∈ mainPairs files.main path ∨
      ∃ e ∈ files.fragments, p ∈ fragmentPairs (path ++ ascii ".d") e := by
  have hnone : files.fragments = [] → loadRaw ⟨files.main, .absent⟩ path = .ok pairs →
      (p ∈ pairs ↔ p ∈ mainPairs files.main path ∨
        ∃ e ∈ files.fragments, p ∈ fragmentPairs (path ++ ascii ".d") e) := by
    intro hfrag habsent
    have hpairs : pairs = mainPairs files.main path := by
      unfold loadRaw at habsent
      cases hmain : files.main with
      | failed err =>
        rw [hmain] at habsent
        cases habsent
      | absent | content =>
        simp only [hmain, readFile, bind, Except.bind, if_neg (Nat.not_lt.mpr hlen)] at habsent
        cases habsent
        rfl
    simp [hfrag, hpairs]
  obtain ⟨main, dropIns⟩ := files
  cases dropIns with
  | absent => exact hnone rfl h
  | notDir => exact hnone rfl h
  | failed err => exact absurd h (loadRaw_unreadable_dir hlen (Or.inl rfl) pairs)
  | listing es err =>
    cases err with
    | some err => exact absurd h (loadRaw_unreadable_dir hlen (Or.inr ⟨es, rfl⟩) pairs)
    | none => simp only [mem_loadRaw_listing hlen h, Files.fragments, List.mem_filter, and_assoc]

theorem loadRaw_listing_ok {main : FileState} {es : List Entry} {path : Bytes} {pairs : List Pair}
    (h : loadRaw ⟨main, .listing es none⟩ path = .ok pairs) (es' : List Entry) :
    ∃ pairs', loadRaw ⟨main, .listing es' none⟩ path = .ok pairs' := by
  unfold loadRaw at h ⊢
  cases main with
  | failed err => cases h
  | absent =>
    simp only [readFile, bind, Except.bind]
    split <;> exact ⟨_, rfl⟩
  | content text =>
    simp only [readFile, bind, Except.bind]
    split <;> exact ⟨_, rfl⟩

end HciBridge.Config
