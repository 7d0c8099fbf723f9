import HciBridge.Auth
import HciBridge.Text

/-!
`readResponse` of `host/httpc.zig`: how the bytes of a connection become a response, whatever the
reads they come in.
-/

namespace HciBridge.Httpc

open Auth (Bytes ascii)
open Text

def maxBody : ℕ := 2 ^ 20
def readLen : ℕ := 4096
def endOfHead : Bytes := [13, 10, 13, 10]

inductive Error
  | responseTooLarge
  | badResponse
deriving DecidableEq, Repr

structure Response where
  status : ℕ
  body : Bytes
deriving DecidableEq, Repr

/-- `splitSequence` at `"\r\n"` -/
def lines : Bytes → List Bytes
  | [] => [[]]
  | 13 :: 10 :: rest => [] :: lines rest
  | c :: rest => (lines rest).modifyHead fun line => c :: line

def contentLengthLine (line : Bytes) : Option (Option ℕ) :=
  (cut 58 line).bind fun p =>
    if eqlIgnoreCase (trim [32] p.1) (ascii "content-length") then some (parseInt (2 ^ 64 - 1) (trim [32] p.2))
    else none

def contentLength (head : Bytes) : Option ℕ := ((lines head).findSome? contentLengthLine).join

def expectedLen (buf : Bytes) : Except Error (Option ℕ) :=
  match cutSeq endOfHead buf with
  | none => .ok none
  | some (head, _) =>
    match contentLength head with
    | none => .ok none
    | some cl => if maxBody < cl then .error .responseTooLarge else .ok (some (head.length + 4 + cl))

def statusOf (head : Bytes) : Option ℕ := do
  let line ← (lines head).head?
  let word ← ((line.splitOn 32).filter fun word => word ≠ [])[1]?
  parseInt (2 ^ 16 - 1) word

def parseResponse (bytes : Bytes) : Except Error Response :=
  match cutSeq endOfHead bytes with
  | none => .error .badResponse
  | some (head, rest) =>
    let body := match contentLength head with
      | some cl => if cl < rest.length then rest.take cl else rest
      | none => rest
    match statusOf head with
    | none => .error .badResponse
    | some status => .ok ⟨status, body⟩

def complete (buf : Bytes) : Except Error Bool := do
  match ← expectedLen buf with
  | some want => return decide (want ≤ buf.length)
  | none => if maxBody < buf.length then throw .responseTooLarge else return false

/-- The list holds what each `fill(1)` brings until the peer closes. -/
def readLoop (buf : Bytes) : List Bytes → Except Error Bytes
  | [] => (complete buf).map fun _ => buf
  | chunk :: chunks => do if ← complete buf then return buf else readLoop (buf ++ chunk) chunks

def readResponse (chunks : List Bytes) : Except Error Response := do parseResponse (← readLoop [] chunks)

structure Reads (stream : Bytes) (chunks : List Bytes) : Prop where
  flatten : chunks.flatten = stream
  length : ∀ c ∈ chunks, 1 ≤ c.length ∧ c.length ≤ readLen

structure CompleteOrError (stream : Bytes) : Prop where
  same : ∀ c₁ c₂, Reads stream c₁ → Reads stream c₂ → readResponse c₁ = readResponse c₂
  whole : ∀ head rest cl, cutSeq endOfHead stream = some (head, rest) → contentLength head = some cl → cl ≤ maxBody →
    ∀ chunks resp, Reads stream chunks → readResponse chunks = .ok resp →
      cl ≤ rest.length ∧ resp.body = rest.take cl

/-- Nothing is promised for a body that the peer cuts short, nor where the end of the header block
lies within one read after the size limit. -/
def Covered (stream : Bytes) : Prop :=
  ∀ head rest cl, cutSeq endOfHead stream = some (head, rest) → contentLength head = some cl → cl ≤ maxBody →
    head.length + 4 ≤ maxBody + 1 ∧ (cl ≤ rest.length ∨ statusOf head = none) ∨
      maxBody + readLen < head.length + 4

section

variable {stream buf head rest : Bytes}

theorem length_of_cutSeq (h : cutSeq endOfHead stream = some (head, rest)) :
    stream.length = head.length + 4 + rest.length := by
  rw [eq_of_cutSeq h, List.length_append, List.length_append]
  rfl

theorem cutSeq_of_isPrefix (h : cutSeq endOfHead stream = some (head, rest)) (hbuf : buf <+: stream) :
    cutSeq endOfHead buf =
      if head.length + 4 ≤ buf.length then some (head, rest.take (buf.length - (head.length + 4))) else none := by
  obtain ⟨more, rfl⟩ := hbuf
  cases hcut : cutSeq endOfHead buf with
  | some p =>
    obtain ⟨a, b⟩ := p
    have hlen := length_of_cutSeq hcut
    rw [cutSeq_append hcut, Option.some.injEq, Prod.mk.injEq] at h
    obtain ⟨rfl, rfl⟩ := h
    have hb : buf.length - (a.length + 4) = b.length := by omega
    rw [if_pos (by omega), hb, List.take_left]
  | none =>
    rw [if_neg]
    intro hle
    have hpat : head ++ endOfHead <+: buf := by
      have hstream : head ++ endOfHead <+: buf ++ more := ⟨rest, (eq_of_cutSeq h).symm⟩
      apply List.prefix_of_prefix_length_le hstream (List.prefix_append buf more)
      simpa [endOfHead] using hle
    obtain ⟨tail, rfl⟩ := hpat
    have hfound : ∃ a b, cutSeq endOfHead (head ++ endOfHead ++ tail) = some (a, b) ∧ a.length ≤ head.length :=
      cutSeq_first head tail
    obtain ⟨a, b, hfirst, -⟩ := hfound
    rw [hcut] at hfirst
    cases hfirst

theorem cutSeq_none_of_isPrefix (h : cutSeq endOfHead stream = none) (hbuf : buf <+: stream) :
    cutSeq endOfHead buf = none := by
  obtain ⟨more, rfl⟩ := hbuf
  cases hcut : cutSeq endOfHead buf with
  | none => rfl
  | some p =>
    rw [cutSeq_append hcut] at h
    cases h

end

section

variable {stream buf head rest : Bytes} {cl : ℕ}

theorem complete_of_none (h : expectedLen buf = .ok none) :
    complete buf = if maxBody < buf.length then .error .responseTooLarge else .ok false := by
  rw [complete, h]
  rfl

theorem complete_of_some {want : ℕ} (h : expectedLen buf = .ok (some want)) :
    complete buf = .ok (decide (want ≤ buf.length)) := by
  rw [complete, h]
  rfl

theorem readLoop_ends (chunks : List Bytes) (buf : Bytes) :
    ∃ p, buf <+: p ∧ p <+: buf ++ chunks.flatten ∧ readLoop buf chunks = (complete p).map (fun _ => p) ∧
      (complete p = .ok false → p = buf ++ chunks.flatten) := by
  induction chunks generalizing buf with
  | nil => exact ⟨buf, List.prefix_rfl, by simp, rfl, by simp⟩
  | cons chunk chunks ih =>
    obtain ⟨p, hbuf, hp, hloop, hend⟩ := ih (buf ++ chunk)
    rw [List.append_assoc, ← List.flatten_cons] at hp hend
    rw [readLoop]
    cases hc : complete buf with
    | error e => exact ⟨buf, List.prefix_rfl, List.prefix_append _ _, by rw [hc]; rfl, by simp [hc]⟩
    | ok done =>
      cases done with
      | true => exact ⟨buf, List.prefix_rfl, List.prefix_append _ _, by rw [hc]; rfl, by simp [hc]⟩
      | false => exact ⟨p, (List.prefix_append buf chunk).trans hbuf, hp, hloop, hend⟩

end

section

variable {stream head rest : Bytes} {cl : ℕ} {chunks : List Bytes}

theorem expectedLen_of_none (h : cutSeq endOfHead stream = none) : expectedLen stream = .ok none := by
  rw [expectedLen, h]

theorem expectedLen_of_some (h : cutSeq endOfHead stream = some (head, rest)) (hcl : contentLength head = some cl)
    (hmax : cl ≤ maxBody) : expectedLen stream = .ok (some (head.length + 4 + cl)) := by
  simp only [expectedLen, h, hcl]
  rw [if_neg (not_lt.mpr hmax)]

theorem readLoop_of_noLength (h : ∀ p, p <+: stream → expectedLen p = .ok none) (hread : Reads stream chunks) :
    readLoop [] chunks = if maxBody < stream.length then .error .responseTooLarge else .ok stream := by
  obtain ⟨p, -, hp, hloop, hend⟩ := readLoop_ends chunks []
  rw [List.nil_append, hread.flatten] at hp hend
  rw [hloop]
  rw [complete_of_none (h p hp)] at hend ⊢
  split
  case isTrue hlarge =>
    have hle := hp.length_le
    rw [if_pos (by omega)]
    rfl
  case isFalse hsmall =>
    rw [if_neg hsmall] at hend
    obtain rfl := hend rfl
    rw [if_neg hsmall]
    rfl

theorem readLoop_of_tooLarge (h : cutSeq endOfHead stream = some (head, rest)) (hcl : contentLength head = some cl)
    (hmax : maxBody < cl) (hread : Reads stream chunks) : readLoop [] chunks = .error .responseTooLarge := by
  have hexpected {p : Bytes} (hp : p <+: stream) :
      expectedLen p = if head.length + 4 ≤ p.length then .error .responseTooLarge else .ok none := by
    rw [expectedLen, cutSeq_of_isPrefix h hp]
    by_cases hle : head.length + 4 ≤ p.length
    · simp only [if_pos hle, hcl, if_pos hmax]
    · simp only [if_neg hle]
  obtain ⟨p, -, hp, hloop, hend⟩ := readLoop_ends chunks []
  rw [List.nil_append, hread.flatten] at hp hend
  have hlen := length_of_cutSeq h
  by_cases hle : head.length + 4 ≤ p.length
  · have herr := hexpected hp
    rw [if_pos hle] at herr
    rw [hloop, complete, herr]
    rfl
  · have hnone := hexpected hp
    rw [if_neg hle] at hnone
    rw [hloop]
    rw [complete_of_none hnone] at hend ⊢
    split
    case isTrue => rfl
    case isFalse hsmall =>
      rw [if_neg hsmall] at hend
      obtain rfl := hend rfl
      omega

theorem complete_of_isPrefix {p : Bytes} (h : cutSeq endOfHead stream = some (head, rest))
    (hcl : contentLength head = some cl) (hmax : cl ≤ maxBody) (hp : p <+: stream) :
    complete p =
      if head.length + 4 ≤ p.length then .ok (decide (head.length + 4 + cl ≤ p.length))
      else if maxBody < p.length then .error .responseTooLarge else .ok false := by
  have hcut := cutSeq_of_isPrefix h hp
  split
  case isTrue hle =>
    rw [if_pos hle] at hcut
    exact complete_of_some (expectedLen_of_some hcut hcl hmax)
  case isFalse hle =>
    rw [if_neg hle] at hcut
    exact complete_of_none (expectedLen_of_none hcut)

def answer (head body : Bytes) : Except Error Response :=
  match statusOf head with
  | none => .error .badResponse
  | some status => .ok ⟨status, body⟩

theorem parseResponse_of_some {p : Bytes} (h : cutSeq endOfHead p = some (head, rest))
    (hcl : contentLength head = some cl) : parseResponse p = answer head (rest.take cl) := by
  have hbody : (if cl < rest.length then rest.take cl else rest) = rest.take cl := by
    split
    case isTrue => rfl
    case isFalse hle => rw [List.take_of_length_le (not_lt.mp hle)]
  simp only [parseResponse, h, hcl, hbody]
  rfl

theorem readResponse_of_small (h : cutSeq endOfHead stream = some (head, rest)) (hcl : contentLength head = some cl)
    (hmax : cl ≤ maxBody) (hhead : head.length + 4 ≤ maxBody + 1) (hread : Reads stream chunks) :
    readResponse chunks = answer head (rest.take cl) := by
  obtain ⟨p, -, hp, hloop, hend⟩ := readLoop_ends chunks []
  rw [List.nil_append, hread.flatten] at hp hend
  have hlen := length_of_cutSeq h
  have hle := hp.length_le
  have hcomplete := complete_of_isPrefix h hcl hmax hp
  by_cases hfull : head.length + 4 ≤ p.length
  · rw [if_pos hfull] at hcomplete
    have hcut := cutSeq_of_isPrefix h hp
    rw [if_pos hfull] at hcut
    have htake : (rest.take (p.length - (head.length + 4))).take cl = rest.take cl := by
      rw [List.take_take]
      by_cases hwant : head.length + 4 + cl ≤ p.length
      · congr 1
        omega
      · have hall : p = stream := hend (by rw [hcomplete, decide_eq_false hwant])
        rw [hall] at hwant ⊢
        rw [List.take_of_length_le (by omega), List.take_of_length_le (by omega)]
    rw [readResponse, hloop, hcomplete]
    change parseResponse p = _
    rw [parseResponse_of_some hcut hcl, htake]
  · have hsmall : ¬maxBody < p.length := by omega
    rw [if_neg hfull, if_neg hsmall] at hcomplete
    have hall : p = stream := hend hcomplete
    rw [hall] at hfull
    omega

/-- Reads of at most `step` bytes do not get from below the size limit past it and to the end of a
longer header block at once. -/
theorem readLoop_of_large {step : ℕ} (h : cutSeq endOfHead stream = some (head, rest))
    (hcl : contentLength head = some cl) (hmax : cl ≤ maxBody) (hhead : maxBody + step < head.length + 4)
    (chunks : List Bytes) (hstep : ∀ c ∈ chunks, c.length ≤ step) (buf : Bytes) (hbuf : buf ++ chunks.flatten = stream)
    (hsmall : buf.length ≤ maxBody + step) : readLoop buf chunks = .error .responseTooLarge := by
  have hlen := length_of_cutSeq h
  induction chunks generalizing buf with
  | nil =>
    rw [List.flatten_nil, List.append_nil] at hbuf
    rw [hbuf] at hsmall
    omega
  | cons chunk chunks ih =>
    have hchunk := hstep chunk List.mem_cons_self
    have hcomplete := complete_of_isPrefix h hcl hmax ⟨_, hbuf⟩
    rw [if_neg (by omega)] at hcomplete
    rw [readLoop, hcomplete]
    split
    case isTrue => rfl
    case isFalse hle =>
      apply ih (fun c hc => hstep c (List.mem_cons_of_mem _ hc))
      · rwa [List.append_assoc, ← List.flatten_cons]
      · rw [List.length_append]
        omega

end

section

variable {stream head rest : Bytes} {cl : ℕ}

theorem readResponse_of_large {chunks : List Bytes} (h : cutSeq endOfHead stream = some (head, rest))
    (hcl : contentLength head = some cl) (hmax : cl ≤ maxBody) (hhead : maxBody + readLen < head.length + 4)
    (hread : Reads stream chunks) : readResponse chunks = .error .responseTooLarge := by
  have hloop := readLoop_of_large h hcl hmax hhead chunks (fun c hc => (hread.length c hc).2) [] hread.flatten
    (Nat.zero_le _)
  rw [readResponse, hloop]
  rfl

theorem readLoop_append (pre chunks : List Bytes) (buf : Bytes)
    (h : ∀ p, p <+: buf ++ pre.flatten → complete p = .ok false) :
    readLoop buf (pre ++ chunks) = readLoop (buf ++ pre.flatten) chunks := by
  induction pre generalizing buf with
  | nil => simp
  | cons chunk pre ih =>
    rw [List.cons_append, readLoop, h buf (List.prefix_append _ _)]
    change readLoop (buf ++ chunk) (pre ++ chunks) = _
    rw [ih]
    · rw [List.append_assoc, ← List.flatten_cons]
    · rwa [List.append_assoc, ← List.flatten_cons]

def singles (bs : Bytes) : List Bytes := bs.map fun b => [b]

theorem flatten_singles (bs : Bytes) : (singles bs).flatten = bs := by
  induction bs with
  | nil => rfl
  | cons b bs ih => exact congrArg (b :: ·) ih

theorem length_of_mem_singles {bs c : Bytes} (h : c ∈ singles bs) : c.length = 1 := by
  obtain ⟨b, -, rfl⟩ := List.mem_map.mp h
  rfl

theorem reads_singles (stream : Bytes) : Reads stream (singles stream) := by
  refine ⟨flatten_singles stream, ?_⟩
  intro c hc
  rw [length_of_mem_singles hc]
  decide

def leap (stream : Bytes) : List Bytes :=
  singles (stream.take maxBody) ++ (stream.drop maxBody).take readLen ::
    singles ((stream.drop maxBody).drop readLen)

theorem reads_leap (h : maxBody < stream.length) : Reads stream (leap stream) := by
  constructor
  · rw [leap, List.flatten_append, List.flatten_cons, flatten_singles, flatten_singles, List.take_append_drop,
      List.take_append_drop]
  · intro c hc
    have hpos : 1 ≤ readLen := by decide
    rcases List.mem_append.mp hc with hc | hc
    · rw [length_of_mem_singles hc]
      omega
    · rcases List.mem_cons.mp hc with rfl | hc
      · rw [List.length_take, List.length_drop]
        omega
      · rw [length_of_mem_singles hc]
        omega

theorem readLoop_leap (h : cutSeq endOfHead stream = some (head, rest)) (hcl : contentLength head = some cl)
    (hmax : cl ≤ maxBody) (hlow : maxBody + 1 < head.length + 4) (hhigh : head.length + 4 ≤ maxBody + readLen) :
    ∃ p, cutSeq endOfHead p = some (head, rest.take (p.length - (head.length + 4))) ∧
      readLoop [] (leap stream) = .ok p := by
  have hlen := length_of_cutSeq h
  have hstart : (singles (stream.take maxBody)).flatten = stream.take maxBody := flatten_singles _
  rw [leap, readLoop_append]
  · rw [hstart, List.nil_append, readLoop, complete_of_isPrefix h hcl hmax (List.take_prefix _ _), List.length_take,
      if_neg (by omega), if_neg (by omega)]
    change ∃ p, _ ∧ readLoop (stream.take maxBody ++ (stream.drop maxBody).take readLen) _ = .ok p
    rw [← List.take_add]
    obtain ⟨p, hbuf, hp, hloop, -⟩ :=
      readLoop_ends (singles ((stream.drop maxBody).drop readLen)) (stream.take (maxBody + readLen))
    rw [flatten_singles, List.drop_drop, List.take_append_drop] at hp
    have hlong := hbuf.length_le
    rw [List.length_take] at hlong
    refine ⟨p, ?_, ?_⟩
    · rw [cutSeq_of_isPrefix h hp, if_pos (by omega)]
    · rw [hloop, complete_of_isPrefix h hcl hmax hp, if_pos (by omega)]
      rfl
  · intro p hp
    rw [hstart, List.nil_append] at hp
    have hshort := hp.length_le
    rw [List.length_take] at hshort
    rw [complete_of_isPrefix h hcl hmax (hp.trans (List.take_prefix _ _)), if_neg (by omega), if_neg (by omega)]

theorem readResponse_differs (h : cutSeq endOfHead stream = some (head, rest)) (hcl : contentLength head = some cl)
    (hmax : cl ≤ maxBody) (hlow : maxBody + 1 < head.length + 4) (hhigh : head.length + 4 ≤ maxBody + readLen) :
    readResponse (singles stream) ≠ readResponse (leap stream) := by
  obtain ⟨p, hcut, hleap⟩ := readLoop_leap h hcl hmax hlow hhigh
  have hsingles : readLoop [] (singles stream) = .error .responseTooLarge :=
    readLoop_of_large h hcl hmax hlow _ (fun c hc => (length_of_mem_singles hc).le) []
      (flatten_singles stream) (Nat.zero_le _)
  rw [readResponse, readResponse, hsingles, hleap]
  change .error .responseTooLarge ≠ parseResponse p
  rw [parseResponse_of_some hcut hcl, answer]
  split <;> simp

end

theorem readResponse_of_noLength {stream : Bytes} {c₁ c₂ : List Bytes}
    (h : ∀ p, p <+: stream → expectedLen p = .ok none) (h₁ : Reads stream c₁) (h₂ : Reads stream c₂) :
    readResponse c₁ = readResponse c₂ := by
  rw [readResponse, readResponse, readLoop_of_noLength h h₁, readLoop_of_noLength h h₂]

theorem readResponse_same {stream : Bytes} (hcovered : Covered stream) {c₁ c₂ : List Bytes} (h₁ : Reads stream c₁)
    (h₂ : Reads stream c₂) : readResponse c₁ = readResponse c₂ := by
  cases h : cutSeq endOfHead stream with
  | none => exact readResponse_of_noLength (fun p hp => expectedLen_of_none (cutSeq_none_of_isPrefix h hp)) h₁ h₂
  | some p =>
    obtain ⟨head, rest⟩ := p
    cases hcl : contentLength head with
    | none =>
      apply readResponse_of_noLength _ h₁ h₂
      intro p hp
      rw [expectedLen, cutSeq_of_isPrefix h hp]
      by_cases hle : head.length + 4 ≤ p.length
      · simp only [if_pos hle, hcl]
      · simp only [if_neg hle]
    | some cl =>
      by_cases hmax : cl ≤ maxBody
      · rcases hcovered head rest cl h hcl hmax with ⟨hsmall, -⟩ | hhead
        · rw [readResponse_of_small h hcl hmax hsmall h₁, readResponse_of_small h hcl hmax hsmall h₂]
        · rw [readResponse_of_large h hcl hmax hhead h₁, readResponse_of_large h hcl hmax hhead h₂]
      · have hmax := not_le.mp hmax
        rw [readResponse, readResponse, readLoop_of_tooLarge h hcl hmax h₁, readLoop_of_tooLarge h hcl hmax h₂]

theorem completeOrError_iff (stream : Bytes) : CompleteOrError stream ↔ Covered stream := by
  constructor
  · intro hok head rest cl h hcl hmax
    by_cases hsmall : head.length + 4 ≤ maxBody + 1
    · refine .inl ⟨hsmall, ?_⟩
      cases hs : statusOf head with
      | none => exact .inr rfl
      | some status =>
        have hread := readResponse_of_small h hcl hmax hsmall (reads_singles stream)
        rw [answer, hs] at hread
        exact .inl (hok.whole head rest cl h hcl hmax _ _ (reads_singles stream) hread).1
    · by_cases hlarge : maxBody + readLen < head.length + 4
      · exact .inr hlarge
      · have hlen := length_of_cutSeq h
        have hsame := hok.same _ _ (reads_singles stream) (reads_leap (by omega))
        exact absurd hsame (readResponse_differs h hcl hmax (by omega) (by omega))
  · intro hcovered
    refine ⟨fun _ _ h₁ h₂ => readResponse_same hcovered h₁ h₂, ?_⟩
    intro head rest cl h hcl hmax chunks resp hread hresp
    rcases hcovered head rest cl h hcl hmax with ⟨hsmall, hwhole⟩ | hhead
    · rw [readResponse_of_small h hcl hmax hsmall hread, answer] at hresp
      rcases hwhole with hwhole | hnone
      · split at hresp
        · cases hresp
        · cases hresp
          exact ⟨hwhole, rfl⟩
      · rw [hnone] at hresp
        cases hresp
    · rw [readResponse_of_large h hcl hmax hhead hread] at hresp
      cases hresp

theorem short_body_accepted : ¬∀ stream, CompleteOrError stream := by
  intro h
  have hshort := (h (ascii "HTTP/1.1 200 OK\r\nContent-Length: 3\r\n\r\nab")).whole
    (ascii "HTTP/1.1 200 OK\r\nContent-Length: 3") (ascii "ab") 3 (by decide) (by decide) (by decide)
    [ascii "HTTP/1.1 200 OK\r\nContent-Length: 3\r\n\r\nab"] ⟨200, ascii "ab"⟩ ⟨rfl, by decide⟩ (by decide)
  exact absurd hshort.1 (by decide)

end HciBridge.Httpc
