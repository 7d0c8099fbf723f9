import HciBridge.Ota

namespace HciBridge.Ota

open Auth

def recvTrace (remaining timeouts : ℕ) (s : ℕ → Recv) : List Recv :=
  if remaining = 0 then []
  else match s 0 with
  | .timeout =>
    if timeouts + 1 < otaMaxRecvTimeouts then .timeout :: recvTrace remaining (timeouts + 1) fun i => s (i + 1)
    else [.timeout]
  | .error => [.error]
  | .data bytes writeErr =>
    let chunk := bytes.take (min remaining otaBufLen)
    if chunk = [] ∨ writeErr.isSome then [.data bytes writeErr]
    else .data bytes writeErr :: recvTrace (remaining - chunk.length) 0 fun i => s (i + 1)
termination_by (remaining, otaMaxRecvTimeouts - timeouts)
decreasing_by
  · apply Prod.Lex.right
    omega
  · apply Prod.Lex.left
    have hchunk : 0 < chunk.length := List.length_pos_of_ne_nil (not_or.mp ‹_›).1
    change remaining - chunk.length < remaining
    omega

def Recv.isData : Recv → Bool
  | data _ _ => true
  | _ => false

/-- The results `rs` carry a body of `remaining` bytes, cut into `chunks` by the requests. -/
inductive Receives : ℕ → List Recv → List Bytes → Prop
  | done (rs : List Recv) : Receives 0 rs []
  | chunk {remaining k : ℕ} {bytes c : Bytes} {rs : List Recv} {cs : List Bytes} (hk : k < otaMaxRecvTimeouts)
      (hc : c = bytes.take (min remaining otaBufLen)) (hne : c ≠ []) (h : Receives (remaining - c.length) rs cs) :
      Receives remaining (List.replicate k .timeout ++ .data bytes none :: rs) (c :: cs)

theorem Receives.length_eq {remaining : ℕ} {rs : List Recv} {cs : List Bytes} (h : Receives remaining rs cs) :
    cs.flatten.length = remaining := by
  induction h with
  | done => rfl
  | @chunk remaining k bytes c rs cs hk hc hne h ih =>
    have hle : c.length ≤ remaining := by
      rw [hc, List.length_take]
      omega
    simp only [List.flatten_cons, List.length_append, ih]
    omega

theorem receives_of_timeout {remaining k : ℕ} {rs : List Recv} {cs : List Bytes}
    (h : Receives remaining (List.replicate (k + 1) .timeout ++ rs) cs) :
    Receives remaining (List.replicate k .timeout ++ .timeout :: rs) cs := by
  rwa [List.replicate_succ', List.append_assoc] at h

def Upload.push (up : Upload) (chunk : Bytes) : Upload :=
  { up with got := up.got ++ chunk, writes := up.writes ++ [.write chunk] }

@[simp] theorem Upload.push_got (up : Upload) (chunk : Bytes) : (up.push chunk).got = up.got ++ chunk := rfl

@[simp] theorem Upload.push_writes (up : Upload) (chunk : Bytes) :
    (up.push chunk).writes = up.writes ++ [.write chunk] := rfl

section

variable {remaining timeouts : ℕ} {up : Upload} {rs : List Recv}

theorem recvLoop_zero : recvLoop 0 timeouts up rs = up := by
  cases rs with
  | nil => rfl
  | cons r rs => rfl

theorem recvLoop_nil (h : remaining ≠ 0) :
    recvLoop remaining timeouts up [] = { up with stop := some .interrupted } := by
  simp [recvLoop, h]

theorem recvLoop_timeout (h : remaining ≠ 0) :
    recvLoop remaining timeouts up (.timeout :: rs) =
      if timeouts + 1 < otaMaxRecvTimeouts then recvLoop remaining (timeouts + 1) up rs
      else { up with stop := some .stalled } := by
  simp [recvLoop, h]

theorem recvLoop_error (h : remaining ≠ 0) :
    recvLoop remaining timeouts up (.error :: rs) = { up with stop := some .interrupted } := by
  simp [recvLoop, h]

theorem recvLoop_closed {bytes : Bytes} {writeErr : Option String} (h : remaining ≠ 0)
    (hc : bytes.take (min remaining otaBufLen) = []) :
    recvLoop remaining timeouts up (.data bytes writeErr :: rs) = { up with stop := some .interrupted } := by
  simp only [recvLoop, h, hc, if_true, if_false]

theorem recvLoop_data {bytes : Bytes} {writeErr : Option String} (h : remaining ≠ 0)
    (hc : bytes.take (min remaining otaBufLen) ≠ []) :
    recvLoop remaining timeouts up (.data bytes writeErr :: rs) =
      match writeErr with
      | some err => { up.push (bytes.take (min remaining otaBufLen)) with stop := some (.writeFailed err) }
      | none => recvLoop (remaining - (bytes.take (min remaining otaBufLen)).length) 0
          (up.push (bytes.take (min remaining otaBufLen))) rs := by
  simp only [recvLoop, h, hc, if_false]
  rfl

end

theorem receives_recvLoop (rs : List Recv) (remaining timeouts : ℕ) (up : Upload)
    (ht : timeouts < otaMaxRecvTimeouts) (hup : up.stop = none)
    (h : (recvLoop remaining timeouts up rs).stop = none) :
    ∃ cs, Receives remaining (List.replicate timeouts .timeout ++ rs) cs ∧
      recvLoop remaining timeouts up rs = ⟨up.got ++ cs.flatten, up.writes ++ cs.map .write, none⟩ := by
  induction rs generalizing remaining timeouts up with
  | nil =>
    by_cases hz : remaining = 0
    · subst hz
      refine ⟨[], .done _, ?_⟩
      simp [recvLoop_zero, ← hup]
    · rw [recvLoop_nil hz] at h
      cases h
  | cons r rs ih =>
    by_cases hz : remaining = 0
    · subst hz
      refine ⟨[], .done _, ?_⟩
      simp [recvLoop_zero, ← hup]
    cases r with
    | error =>
      rw [recvLoop_error hz] at h
      cases h
    | timeout =>
      rw [recvLoop_timeout hz] at h ⊢
      split at h
      case isFalse => cases h
      case isTrue hlt =>
        obtain ⟨cs, hcs, hloop⟩ := ih remaining (timeouts + 1) up hlt hup h
        rw [if_pos hlt]
        exact ⟨cs, receives_of_timeout hcs, hloop⟩
    | data bytes writeErr =>
      by_cases hc : bytes.take (min remaining otaBufLen) = []
      · rw [recvLoop_closed hz hc] at h
        cases h
      · rw [recvLoop_data hz hc] at h ⊢
        cases writeErr with
        | some err => cases h
        | none =>
          obtain ⟨cs, hcs, hloop⟩ := ih _ 0 (up.push (bytes.take (min remaining otaBufLen))) (by decide) hup h
          refine ⟨bytes.take (min remaining otaBufLen) :: cs, .chunk ht rfl hc hcs, ?_⟩
          simp only [hloop]
          simp

theorem recvLoop_writes (rs : List Recv) (remaining timeouts : ℕ) (up : Upload) :
    ∃ cs : List Bytes, (recvLoop remaining timeouts up rs).writes = up.writes ++ cs.map .write := by
  induction rs generalizing remaining timeouts up with
  | nil =>
    refine ⟨[], ?_⟩
    rw [recvLoop]
    split <;> simp
  | cons r rs ih =>
    by_cases hz : remaining = 0
    · exact ⟨[], by simp [hz, recvLoop_zero]⟩
    cases r with
    | error => exact ⟨[], by simp [recvLoop_error hz]⟩
    | timeout =>
      rw [recvLoop_timeout hz]
      split
      case isTrue => apply ih
      case isFalse => exact ⟨[], by simp⟩
    | data bytes writeErr =>
      by_cases hc : bytes.take (min remaining otaBufLen) = []
      · exact ⟨[], by simp [recvLoop_closed hz hc]⟩
      · rw [recvLoop_data hz hc]
        cases writeErr with
        | some err => exact ⟨[bytes.take (min remaining otaBufLen)], rfl⟩
        | none =>
          obtain ⟨cs, hcs⟩ := ih (remaining - (bytes.take (min remaining otaBufLen)).length) 0
            (up.push (bytes.take (min remaining otaBufLen)))
          refine ⟨bytes.take (min remaining otaBufLen) :: cs, ?_⟩
          simp only [hcs]
          simp

section

variable {remaining timeouts : ℕ} {s : ℕ → Recv}

theorem recvTrace_zero : recvTrace 0 timeouts s = [] := by
  rw [recvTrace, if_pos rfl]

theorem recvTrace_timeout (h : remaining ≠ 0) (hs : s 0 = .timeout) :
    recvTrace remaining timeouts s =
      if timeouts + 1 < otaMaxRecvTimeouts then .timeout :: recvTrace remaining (timeouts + 1) fun i => s (i + 1)
      else [.timeout] := by
  rw [recvTrace, if_neg h, hs]

theorem recvTrace_error (h : remaining ≠ 0) (hs : s 0 = .error) : recvTrace remaining timeouts s = [.error] := by
  rw [recvTrace, if_neg h, hs]

theorem recvTrace_data {bytes : Bytes} {writeErr : Option String} (h : remaining ≠ 0)
    (hs : s 0 = .data bytes writeErr) :
    recvTrace remaining timeouts s =
      if bytes.take (min remaining otaBufLen) = [] ∨ writeErr.isSome then [.data bytes writeErr]
      else .data bytes writeErr ::
        recvTrace (remaining - (bytes.take (min remaining otaBufLen)).length) 0 fun i => s (i + 1) := by
  rw [recvTrace, if_neg h, hs]

end

theorem length_take_pos {bytes : Bytes} {remaining : ℕ} (h : bytes.take (min remaining otaBufLen) ≠ []) :
    0 < (bytes.take (min remaining otaBufLen)).length ∧
      (bytes.take (min remaining otaBufLen)).length ≤ remaining := by
  refine ⟨List.length_pos_of_ne_nil h, ?_⟩
  rw [List.length_take]
  omega

theorem recvTrace_cases {motive : ℕ → ℕ → (ℕ → Recv) → List Recv → Prop}
    (done : ∀ timeouts s, motive 0 timeouts s [])
    (timeout : ∀ remaining timeouts s rs, remaining ≠ 0 → timeouts + 1 < otaMaxRecvTimeouts → s 0 = .timeout →
      motive remaining (timeouts + 1) (fun i => s (i + 1)) rs → motive remaining timeouts s (.timeout :: rs))
    (stalled : ∀ remaining timeouts s, remaining ≠ 0 → ¬timeouts + 1 < otaMaxRecvTimeouts → s 0 = .timeout →
      motive remaining timeouts s [.timeout])
    (error : ∀ remaining timeouts s, remaining ≠ 0 → s 0 = .error → motive remaining timeouts s [.error])
    (closed : ∀ remaining timeouts s bytes writeErr, remaining ≠ 0 → s 0 = .data bytes writeErr →
      bytes.take (min remaining otaBufLen) = [] ∨ writeErr.isSome →
      motive remaining timeouts s [.data bytes writeErr])
    (data : ∀ remaining timeouts s bytes rs, remaining ≠ 0 → s 0 = .data bytes none →
      bytes.take (min remaining otaBufLen) ≠ [] →
      motive (remaining - (bytes.take (min remaining otaBufLen)).length) 0 (fun i => s (i + 1)) rs →
      motive remaining timeouts s (.data bytes none :: rs))
    (remaining timeouts : ℕ) (s : ℕ → Recv) : motive remaining timeouts s (recvTrace remaining timeouts s) := by
  induction remaining, timeouts, s using recvTrace.induct with
  | case1 timeouts s =>
    rw [recvTrace_zero]
    exact done timeouts s
  | case2 remaining timeouts s h hs hlt ih =>
    rw [recvTrace_timeout h hs, if_pos hlt]
    exact timeout _ _ _ _ h hlt hs ih
  | case3 remaining timeouts s h hs hlt =>
    rw [recvTrace_timeout h hs, if_neg hlt]
    exact stalled _ _ _ h hlt hs
  | case4 remaining timeouts s h hs =>
    rw [recvTrace_error h hs]
    exact error _ _ _ h hs
  | case5 remaining timeouts s h bytes writeErr hs chunk hstop =>
    rw [recvTrace_data h hs, if_pos hstop]
    exact closed _ _ _ _ _ h hs hstop
  | case6 remaining timeouts s h bytes writeErr hs chunk hstop ih =>
    rw [recvTrace_data h hs, if_neg hstop]
    obtain ⟨hne, hwrite⟩ := not_or.mp hstop
    obtain rfl : writeErr = none := by simpa using hwrite
    exact data _ _ _ _ _ h hs hne ih

theorem recvTrace_eq_range (remaining timeouts : ℕ) (s : ℕ → Recv) :
    recvTrace remaining timeouts s = (List.range (recvTrace remaining timeouts s).length).map s := by
  induction remaining, timeouts, s using recvTrace_cases with
  | done => rfl
  | timeout remaining timeouts s rs h hlt hs ih | data remaining timeouts s bytes rs h hs hne ih =>
    rw [List.length_cons, List.range_succ_eq_map, List.map_cons, List.map_map, hs]
    exact congrArg _ ih
  | stalled remaining timeouts s h hlt hs | error remaining timeouts s h hs
  | closed remaining timeouts s bytes writeErr h hs => simp [hs]

theorem recvLoop_recvTrace (remaining timeouts : ℕ) (s : ℕ → Recv) (up : Upload) (more : List Recv) :
    recvLoop remaining timeouts up (recvTrace remaining timeouts s ++ more) =
      recvLoop remaining timeouts up (recvTrace remaining timeouts s) := by
  induction remaining, timeouts, s using recvTrace_cases generalizing up with
  | done => simp only [recvLoop_zero]
  | timeout remaining timeouts s rs h hlt hs ih =>
    simp only [List.cons_append, recvLoop_timeout h, if_pos hlt, ih]
  | stalled remaining timeouts s h hlt hs => simp only [List.cons_append, recvLoop_timeout h, if_neg hlt]
  | error remaining timeouts s h hs => simp only [List.cons_append, recvLoop_error h]
  | closed remaining timeouts s bytes writeErr h hs hstop =>
    by_cases hc : bytes.take (min remaining otaBufLen) = []
    · simp only [List.cons_append, recvLoop_closed h hc]
    · obtain ⟨err, rfl⟩ := Option.isSome_iff_exists.mp (hstop.resolve_left hc)
      simp only [List.cons_append, recvLoop_data h hc]
  | data remaining timeouts s bytes rs h hs hne ih => simp only [List.cons_append, recvLoop_data h hne, ih]

theorem recvTrace_data_le (remaining timeouts : ℕ) (s : ℕ → Recv) :
    (recvTrace remaining timeouts s).countP Recv.isData ≤ remaining := by
  induction remaining, timeouts, s using recvTrace_cases with
  | done => simp
  | timeout remaining timeouts s rs h hlt hs ih => simpa [Recv.isData] using ih
  | stalled | error => simp [Recv.isData]
  | closed remaining timeouts s bytes writeErr h =>
    rw [List.countP_singleton]
    split <;> omega
  | data remaining timeouts s bytes rs h hs hne ih =>
    rw [List.countP_cons_of_pos rfl]
    have hlen := length_take_pos hne
    omega

section

variable {α : Type*} {x y r : α} {l : List α} {k n : ℕ}

theorem replicate_prefix_le (hxy : y ≠ x) (h : List.replicate k x ++ [r] <+: List.replicate n x ++ y :: l) :
    k ≤ n := by
  by_contra hlt
  obtain ⟨b, hb⟩ := h
  have hn := congrArg (·[n]?) hb
  simp only [List.append_assoc] at hn
  rw [List.getElem?_append_left (by simpa using hlt), List.getElem?_append_right (by simp)] at hn
  simp only [List.getElem?_replicate, List.length_replicate, Nat.sub_self, List.getElem?_cons_zero] at hn
  rw [if_pos (by omega)] at hn
  exact hxy (Option.some.inj hn).symm

theorem replicate_infix_split (hxy : y ≠ x) (h : List.replicate k x ++ [r] <:+: List.replicate n x ++ y :: l) :
    k ≤ n ∨ List.replicate k x ++ [r] <:+: l := by
  induction n with
  | zero =>
    rcases List.infix_cons_iff.mp h with h | h
    · exact .inl (replicate_prefix_le (n := 0) hxy h)
    · exact .inr h
  | succ n ih =>
    rcases List.infix_cons_iff.mp h with h | h
    · exact .inl (replicate_prefix_le (n := n + 1) hxy h)
    · exact (ih h).imp_left fun hk => by omega

end

theorem recvTrace_timeouts_lt (remaining timeouts : ℕ) (s : ℕ → Recv) (ht : timeouts < otaMaxRecvTimeouts)
    {k : ℕ} {r : Recv}
    (h : List.replicate k .timeout ++ [r] <:+: List.replicate timeouts .timeout ++ recvTrace remaining timeouts s) :
    k < otaMaxRecvTimeouts := by
  have short {timeouts : ℕ} (ht : timeouts < otaMaxRecvTimeouts) {rs : List Recv} (hrs : rs.length ≤ 1)
      (h : List.replicate k .timeout ++ [r] <:+: List.replicate timeouts .timeout ++ rs) :
      k < otaMaxRecvTimeouts := by
    have hlen := h.length_le
    simp only [List.length_append, List.length_replicate, List.length_singleton] at hlen
    omega
  induction remaining, timeouts, s using recvTrace_cases with
  | done =>
    refine short ht ?_ h
    exact Nat.zero_le 1
  | stalled | error | closed => exact short ht (le_refl 1) h
  | timeout remaining timeouts s rs _ hlt _ ih =>
    apply ih hlt
    rwa [List.replicate_succ', List.append_assoc]
  | data remaining timeouts s bytes rs _ _ _ ih =>
    rcases replicate_infix_split (by simp) h with hk | h
    · omega
    · exact ih (by decide) h

structure LoopEnds (contentLen : ℕ) (s : ℕ → Recv) (rs : List Recv) : Prop where
  taken : rs = (List.range rs.length).map s
  ended : ∀ more, upload contentLen (rs ++ more) = upload contentLen rs
  chunks : rs.countP Recv.isData ≤ contentLen
  timeouts : ∀ k r, List.replicate k .timeout ++ [r] <:+: rs → k < otaMaxRecvTimeouts

theorem loopEnds_recvTrace (contentLen : ℕ) (s : ℕ → Recv) : LoopEnds contentLen s (recvTrace contentLen 0 s) where
  taken := recvTrace_eq_range contentLen 0 s
  ended := recvLoop_recvTrace contentLen 0 s _
  chunks := recvTrace_data_le contentLen 0 s
  timeouts _ _ h := recvTrace_timeouts_lt contentLen 0 s (by decide) h

theorem recvLoop_replicate {remaining timeouts k : ℕ} {up : Upload} {rs : List Recv} (h : remaining ≠ 0)
    (hk : timeouts + k < otaMaxRecvTimeouts) :
    recvLoop remaining timeouts up (List.replicate k .timeout ++ rs) = recvLoop remaining (timeouts + k) up rs := by
  induction k generalizing timeouts with
  | zero => rfl
  | succ k ih =>
    rw [List.replicate_succ, List.cons_append, recvLoop_timeout h, if_pos (by omega), ih (by omega)]
    congr 1
    omega

theorem Receives.recvLoop_eq {remaining : ℕ} {rs : List Recv} {cs : List Bytes} (h : Receives remaining rs cs)
    (up : Upload) :
    recvLoop remaining 0 up rs = { up with got := up.got ++ cs.flatten, writes := up.writes ++ cs.map .write } := by
  induction h generalizing up with
  | done => simp [recvLoop_zero]
  | @chunk remaining k bytes c rs cs hk hc hne h ih =>
    subst hc
    have hz : remaining ≠ 0 := by
      rintro rfl
      simp at hne
    rw [recvLoop_replicate hz (by omega), recvLoop_data hz hne]
    simp only [ih]
    simp [Upload.push]

def closings (flash : List FlashOp) : ℕ := flash.count .abort + flash.count .finish

section

variable (sha256 : Bytes → Digest) (b : Board) (auth pre : Header) (contentLen : ℕ) (env : OtaEnv)

structure Complete (chunks : List Bytes) : Prop where
  claimed : b.gClaimed = true
  fits : ∃ part, env.partition = some part ∧ contentLen ≤ part.size
  pre : pre = .mac (httpPre b.gPsk "POST" "/ota" b.httpNonce contentLen.toUInt32)
  received : Receives contentLen env.recvs chunks
  length : chunks.flatten.length = contentLen
  auth : auth = .mac (httpAuth b.gPsk "POST" "/ota" b.httpNonce (sha256 chunks.flatten))
  flash : env.beginErr = none ∧ env.endErr = none ∧ env.setBootErr = none

def updated (chunks : List Bytes) : Outcome where
  board := b.nonceBump
  flash := .begin :: chunks.map .write ++ [.finish, .setBoot]
  response := ⟨200, "ok, rebooting\n"⟩
  effect := some (.update chunks.flatten)

structure Refused (o : Outcome) : Prop where
  effect : o.effect = none
  error : 400 ≤ o.response.status
  board : o.board = b
  boot : .setBoot ∈ o.flash → env.setBootErr ≠ none
  closed : closings o.flash = if .begin ∈ o.flash ∧ env.beginErr = none then 1 else 0

variable {sha256 b auth pre contentLen env}

theorem checkMac_iff {header : Header} {mac : Psk → Mac} :
    checkMac b header mac = true ↔ b.gClaimed = true ∧ header = .mac (mac b.gPsk) := by
  simp [checkMac]

theorem Complete.otaPost_eq {chunks : List Bytes} (h : Complete sha256 b auth pre contentLen env chunks) :
    otaPost sha256 b auth pre contentLen env = updated b chunks := by
  obtain ⟨hclaimed, ⟨part, hpart, hfits⟩, hpre, hreceived, hlength, hauth, hbegin, hend, hboot⟩ := h
  have hproofs : getProofs b auth pre = true := by simp [getProofs, hclaimed, hauth, hpre]
  have hsize : ¬part.size < contentLen := not_lt.mpr hfits
  have hcheckPre : authCheckHttpPre b "POST" "/ota" contentLen.toUInt32 pre = true :=
    checkMac_iff.mpr ⟨hclaimed, hpre⟩
  have hcheck : authCheckHttp b "POST" "/ota" (sha256 chunks.flatten) auth = true :=
    checkMac_iff.mpr ⟨hclaimed, hauth⟩
  have hup : upload contentLen env.recvs = ⟨chunks.flatten, chunks.map .write, none⟩ := by
    simpa [upload] using hreceived.recvLoop_eq ⟨[], [], none⟩
  simp [otaPost, otaReceive, otaActivate, hproofs, hpart, hsize, hcheckPre, hbegin, hup, hcheck, hend, hboot, updated]

theorem closings_opened {cs : List Bytes} {tail : List FlashOp} :
    closings (.begin :: cs.map .write ++ tail) = closings tail := by
  have hwrites {op : FlashOp} (h : ∀ c, op ≠ .write c) : (cs.map FlashOp.write).count op = 0 := by
    rw [List.count_eq_zero, List.mem_map]
    rintro ⟨c, _, hc⟩
    exact h c hc.symm
  simp [closings, hwrites]

theorem refused_opened {cs : List Bytes} {tail : List FlashOp} {status : ℕ} {text : String}
    (hbegin : env.beginErr = none) (hstatus : 400 ≤ status) (hboot : .setBoot ∈ tail → env.setBootErr ≠ none)
    (htail : closings tail = 1) : Refused b env (refuse b (.begin :: cs.map .write ++ tail) status text) where
  effect := rfl
  error := hstatus
  board := rfl
  boot h := hboot (by simpa [refuse] using h)
  closed := by
    rw [if_pos ⟨List.mem_cons_self, hbegin⟩]
    exact closings_opened.trans htail

theorem refused_unopened {status : ℕ} {text : String} (hstatus : 400 ≤ status) :
    Refused b env (refuse b [] status text) :=
  ⟨rfl, hstatus, rfl, nofun, rfl⟩

theorem complete_or_refused_activate {cs : List Bytes} {part : Partition} (hbegin : env.beginErr = none)
    (hpart : env.partition = some part) (hfits : contentLen ≤ part.size)
    (hpre : authCheckHttpPre b "POST" "/ota" contentLen.toUInt32 pre = true)
    (hcs : Receives contentLen env.recvs cs) :
    Complete sha256 b auth pre contentLen env cs ∨
      Refused b env (otaActivate sha256 b auth env cs.flatten (.begin :: cs.map .write)) := by
  obtain ⟨hclaimed, hpre⟩ := checkMac_iff.mp hpre
  unfold otaActivate
  split
  case isTrue => exact .inr (refused_opened hbegin (by decide) (by simp) rfl)
  case isFalse hauth =>
    simp only [Bool.not_eq_true', Bool.not_eq_false] at hauth
    split
    case h_1 => exact .inr (refused_opened hbegin (by decide) (by simp) rfl)
    case h_2 hend =>
      split
      case h_1 err hboot => exact .inr (refused_opened hbegin (by decide) (by simp [hboot]) rfl)
      case h_2 hboot =>
        exact .inl ⟨hclaimed, ⟨part, hpart, hfits⟩, hpre, hcs, hcs.length_eq, (checkMac_iff.mp hauth).2,
          hbegin, hend, hboot⟩

theorem complete_or_refused_receive {part : Partition} (hpart : env.partition = some part)
    (hfits : contentLen ≤ part.size) (hpre : authCheckHttpPre b "POST" "/ota" contentLen.toUInt32 pre = true) :
    (∃ cs, Complete sha256 b auth pre contentLen env cs) ∨
      Refused b env (otaReceive sha256 b auth contentLen env) := by
  unfold otaReceive
  split
  case h_1 err herr =>
    right
    constructor <;> simp [refuse, herr, closings]
  case h_2 hbegin =>
    obtain ⟨cs, hcs⟩ := recvLoop_writes env.recvs contentLen 0 ⟨[], [], none⟩
    change (upload contentLen env.recvs).writes = [] ++ cs.map .write at hcs
    rw [List.nil_append] at hcs
    dsimp only
    split
    case h_1 | h_2 | h_3 =>
      rw [hcs]
      exact .inr (refused_opened hbegin (by decide) (by simp) rfl)
    case h_4 hstop =>
      obtain ⟨cs, hrs, hup⟩ := receives_recvLoop env.recvs contentLen 0 ⟨[], [], none⟩ (by decide) rfl hstop
      change upload contentLen env.recvs = _ at hup
      rw [hup]
      exact (complete_or_refused_activate hbegin hpart hfits hpre hrs).imp_left fun h => ⟨cs, h⟩

theorem complete_or_refused (sha256 : Bytes → Digest) (b : Board) (auth pre : Header) (contentLen : ℕ)
    (env : OtaEnv) :
    (∃ cs, Complete sha256 b auth pre contentLen env cs) ∨
      Refused b env (otaPost sha256 b auth pre contentLen env) := by
  unfold otaPost
  split
  case isTrue => exact .inr (refused_unopened (by decide))
  case isFalse =>
    split
    case h_1 => exact .inr (refused_unopened (by decide))
    case h_2 part hpart =>
      split
      case isTrue => exact .inr (refused_unopened (by decide))
      case isFalse hfits =>
        split
        case isTrue => exact .inr (refused_unopened (by decide))
        case isFalse hpre =>
          simp only [Bool.not_eq_true', Bool.not_eq_false] at hpre
          exact complete_or_refused_receive hpart (not_lt.mp hfits) hpre

end

theorem ota_all_or_nothing (sha256 : Bytes → Digest) (b : Board) (auth pre : Header) (contentLen : ℕ)
    (env : OtaEnv) (s : ℕ → Recv) :
    ((∃ chunks, Complete sha256 b auth pre contentLen env chunks ∧
        otaPost sha256 b auth pre contentLen env = updated b chunks) ∨
      (∀ chunks, ¬Complete sha256 b auth pre contentLen env chunks) ∧
        Refused b env (otaPost sha256 b auth pre contentLen env)) ∧
      ∃ rs, LoopEnds contentLen s rs := by
  refine ⟨?_, recvTrace contentLen 0 s, loopEnds_recvTrace contentLen s⟩
  rcases complete_or_refused sha256 b auth pre contentLen env with ⟨chunks, h⟩ | h
  · exact .inl ⟨chunks, h, h.otaPost_eq⟩
  · refine .inr ⟨?_, h⟩
    intro chunks hcomplete
    have heffect := h.effect
    rw [hcomplete.otaPost_eq] at heffect
    cases heffect

end HciBridge.Ota
