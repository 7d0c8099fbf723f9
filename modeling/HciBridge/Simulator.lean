import HciBridge.Auth
import HciBridge.H4Stream

/-!
`hcibridge-sim` (`host/sim.zig`) after the handshake: the fake controller and the loop that serves it.
-/

namespace HciBridge.Simulator

open Auth (Bytes Block)
open H4 (PacketType Error Reassembler maxPacketLen framing total parse)
open H4.PacketType (fromByte headerLen byteAt readInt16)
open H4.Reassembler (Wf Fed feed_spec init view_init init_wf)

structure Controller where
  bdaddr : Block 6
  commands : ℕ
deriving DecidableEq, Repr

def features : Bytes := [0xff, 0xff, 0x8f, 0xfe, 0xdb, 0xff, 0x5b, 0x87]

/-- `params[0..plen]`, with the status first. -/
def Controller.params (ctrl : Controller) (opcode : ℕ) (pkt : Bytes) : Bytes :=
  match opcode with
  | 0x1009 => 0 :: ctrl.bdaddr.bytes
  | 0x1001 => [0, 0x0b, 0x00, 0x00, 0x0b, 0xe5, 0x02, 0x01, 0x00]
  | 0x1002 => 0 :: List.replicate 64 0xff
  | 0x1003 => 0 :: features
  | 0x1004 =>
    let page := if 4 < pkt.length then pkt.getD 4 0 else 0
    [0, page, 2] ++
      if page = 0 then features else if page = 1 then 0x03 :: List.replicate 7 0 else List.replicate 8 0
  | 0x1005 => [0, 0xfd, 0x03, 0x40, 0x08, 0x00, 0x00, 0x00]
  | 0x2002 => [0, 0xfb, 0x00, 0x08]
  | 0x2003 => [0, 0xff, 0x01, 0x00, 0x00, 0x00, 0x00, 0x00, 0x00]
  | 0x201c => 0 :: List.replicate 8 0xff
  | _ => [0]

def intFromEnum : PacketType → UInt8
  | .command => 0x01
  | .acl => 0x02
  | .sco => 0x03
  | .event => 0x04
  | .iso => 0x05

/-- Command Complete: indicator, event code, length, `num_hci_cmd`, opcode, parameters. -/
def commandComplete (lo hi : UInt8) (params : Bytes) : Bytes :=
  [intFromEnum .event, 0x0e, (3 + params.length).toUInt8, 1, lo, hi] ++ params

/-- `out[0..n]` for an `out` of `cap` bytes; `none` is a safety check firing. -/
def Controller.handleCommand (ctrl : Controller) (pkt : Bytes) (cap : ℕ) : Option (Controller × Bytes) :=
  if pkt.length < 4 then some (ctrl, [])
  else
    let reply := commandComplete (pkt.getD 1 0) (pkt.getD 2 0) (ctrl.params (readInt16 pkt 1) pkt)
    if reply.length ≤ cap then some ({ ctrl with commands := ctrl.commands + 1 }, reply) else none

def Controller.handle (ctrl : Controller) (pkt : Bytes) (cap : ℕ) : Option (Controller × Bytes) :=
  match pkt with
  | [] => none
  | b :: _ =>
    match fromByte b with
    | none => some (ctrl, [])
    | some .command => ctrl.handleCommand pkt cap
    | some .acl | some .sco | some .iso => if pkt.length ≤ cap then some (ctrl, pkt) else none
    | some .event => some (ctrl, [])

def serveLoop : ℕ → Reassembler → Controller → List Bytes → Bytes →
    Option (Reassembler × Controller × List Bytes × Option Error)
  | 0, _, _, _, _ => none
  | fuel + 1, re, ctrl, written, chunk =>
    if chunk.length > 0 then
      match re.feed chunk with
      | none => none
      | some (re, .error e) => some (re, ctrl, written, some e)
      | some (re, .ok res) =>
        match res.packet with
        | none => serveLoop fuel re ctrl written (chunk.drop res.consumed)
        | some pkt =>
          match ctrl.handle pkt maxPacketLen with
          | none => none
          | some (ctrl, reply) =>
            serveLoop fuel re ctrl (if reply.length > 0 then written ++ [reply] else written)
              (chunk.drop res.consumed)
    else some (re, ctrl, written, none)

def serve (re : Reassembler) (ctrl : Controller) (written : List Bytes) :
    List Bytes → Option (Reassembler × Controller × List Bytes × Option Error)
  | [] => some (re, ctrl, written, none)
  | chunk :: chunks =>
    match serveLoop (chunk.length + 1) re ctrl written chunk with
    | some (re, ctrl, written, none) => serve re ctrl written chunks
    | out => out

section Replies

variable {ctrl ctrl' : Controller} {pkt : Bytes} {cap : ℕ}

def isCommand (pkt : Bytes) : Bool := pkt.head?.bind fromByte = some .command

def replies (bdaddr : Block 6) (pkt : Bytes) : List Bytes :=
  match pkt.head?.bind fromByte with
  | some .command =>
    [commandComplete (pkt.getD 1 0) (pkt.getD 2 0) (Controller.params ⟨bdaddr, 0⟩ (readInt16 pkt 1) pkt)]
  | some .acl | some .sco | some .iso => [pkt]
  | _ => []

def Whole (pkt : Bytes) : Prop := total maxPacketLen pkt = .ok (some pkt.length)

theorem Whole.header (h : Whole pkt) :
    ∃ b tl t, pkt = b :: tl ∧ fromByte b = some t ∧ t.headerLen ≤ tl.length ∧ pkt.length ≤ maxPacketLen := by
  have hle := (H4.total_ge h).2
  cases pkt with
  | nil => cases h
  | cons b tl =>
    cases hb : fromByte b with
    | none => simp [Whole, total, hb] at h
    | some t =>
      refine ⟨b, tl, t, rfl, hb, ?_, hle⟩
      by_contra hlt
      simp [Whole, total, hb, Nat.lt_of_not_le hlt] at h

theorem params_length (ctrl : Controller) (opcode : ℕ) (pkt : Bytes) :
    1 ≤ (ctrl.params opcode pkt).length ∧ (ctrl.params opcode pkt).length ≤ 65 := by
  unfold Controller.params
  split
  case h_1 => simp [ctrl.bdaddr.length_eq]
  case h_5 =>
    dsimp only
    generalize (if 4 < pkt.length then pkt.getD 4 0 else 0) = page
    split
    case isTrue => simp [features]
    case isFalse => split <;> simp
  all_goals simp [features]

theorem params_status (ctrl : Controller) (opcode : ℕ) (pkt : Bytes) :
    ∃ rest, ctrl.params opcode pkt = 0 :: rest := by
  unfold Controller.params
  split <;> exact ⟨_, rfl⟩

theorem whole_commandComplete {lo hi : UInt8} {params : Bytes} (hlen : params.length ≤ 65) :
    Whole (commandComplete lo hi params) := by
  have hbyte : ((3 + params.length).toUInt8).toNat = 3 + params.length := by
    rw [Nat.toUInt8_eq, UInt8.toNat_ofNat']
    omega
  have hfrom : fromByte (intFromEnum .event) = some .event := rfl
  have hpayload : PacketType.payloadLen .event
      (((0x0e : UInt8) :: (3 + params.length).toUInt8 :: 1 :: lo :: hi :: params).take 2) = 3 + params.length := hbyte
  simp only [Whole, commandComplete, List.cons_append, List.nil_append]
  rw [H4.total_of_header hfrom (n := 6 + params.length) (by simp [headerLen]) (by rw [headerLen, hpayload]; omega)
    (by simp only [maxPacketLen]; omega)]
  simp only [List.length_cons]
  congr 2
  omega

theorem handle_whole (ctrl : Controller) (h : Whole pkt) :
    ∃ reply, ctrl.handle pkt maxPacketLen =
        some ({ ctrl with commands := ctrl.commands + if isCommand pkt then 1 else 0 }, reply) ∧
      (if reply.length > 0 then [reply] else []) = replies ctrl.bdaddr pkt := by
  obtain ⟨b, tl, t, rfl, hb, hheader, hle⟩ := h.header
  have hcommand : isCommand (b :: tl) = decide (t = .command) := by simp [isCommand, hb]
  cases t with
  | command =>
    have hshort : ¬(b :: tl).length < 4 := by
      simp only [headerLen] at hheader
      simp only [List.length_cons]
      omega
    have hlen := (params_length ctrl (readInt16 (b :: tl) 1) (b :: tl)).2
    refine ⟨commandComplete ((b :: tl).getD 1 0) ((b :: tl).getD 2 0)
      (ctrl.params (readInt16 (b :: tl) 1) (b :: tl)), ?_, ?_⟩
    · simp only [Controller.handle, hb, Controller.handleCommand, hcommand, if_neg hshort]
      rw [if_pos]
      · rfl
      · simp only [commandComplete, List.length_append, List.length_cons, List.length_nil, maxPacketLen]
        omega
    · simp only [replies, List.head?_cons, Option.bind_some, hb]
      rfl
  | event => exact ⟨[], by simp [Controller.handle, hb, hcommand], by simp [replies, hb]⟩
  | acl =>
    refine ⟨b :: tl, ?_, by simp [replies, hb]⟩
    simp only [Controller.handle, hb, hcommand, if_pos hle]
    rfl
  | sco =>
    refine ⟨b :: tl, ?_, by simp [replies, hb]⟩
    simp only [Controller.handle, hb, hcommand, if_pos hle]
    rfl
  | iso =>
    refine ⟨b :: tl, ?_, by simp [replies, hb]⟩
    simp only [Controller.handle, hb, hcommand, if_pos hle]
    rfl

theorem whole_replies (bdaddr : Block 6) (h : Whole pkt) : ∀ r ∈ replies bdaddr pkt, Whole r := by
  intro r hr
  unfold replies at hr
  split at hr
  case h_1 =>
    rw [List.mem_singleton.mp hr]
    exact whole_commandComplete (params_length _ _ _).2
  case h_5 => cases hr
  all_goals
    rw [List.mem_singleton.mp hr]
    exact h

end Replies

section Serve

variable {re : Reassembler} {ctrl : Controller} {written : List Bytes}

def answer (a : Controller × List Bytes) (pkt : Bytes) : Controller × List Bytes :=
  ({ a.1 with commands := a.1.commands + if isCommand pkt then 1 else 0 }, a.2 ++ replies a.1.bdaddr pkt)

def flat (out : Reassembler × (Controller × List Bytes) × H4.Outcome Empty) :
    Reassembler × Controller × List Bytes × Option Error :=
  (out.1, out.2.1.1, out.2.1.2,
    match out.2.2 with
    | .done => none
    | .framing e => some e)

theorem whole_of_fed {v : Scan UInt8 Error} {input : Bytes} {n : ℕ} {pkt : Bytes} (hcap : re.buf.length = maxPacketLen)
    (hv : v.frames = []) (h : Fed v re input (.ok ⟨n, some pkt⟩)) : Whole pkt := by
  cases h with
  | packet _ _ _ _ hscan =>
    have hcomplete := (framing re.buf.length).scan_complete v (input.take n) pkt (by rw [hscan]; simp)
    rw [hv, hcap] at hcomplete
    exact hcomplete.resolve_left List.not_mem_nil

theorem serveLoop_eq (fuel : ℕ) (chunk : Bytes) (hwf : re.Wf) (hcap : re.buf.length = maxPacketLen) :
    serveLoop fuel re ctrl written chunk =
      (H4.feedAllLoop (H4.infallible answer) fuel re (ctrl, written) chunk).map flat := by
  induction fuel generalizing re ctrl written chunk with
  | zero => rfl
  | succ fuel ih =>
    rw [serveLoop, H4.feedAllLoop]
    split
    case isFalse => rfl
    case isTrue =>
      obtain ⟨re', r, hfeed, hwf', hbuf, hfed⟩ := feed_spec hwf chunk
      have hcap' : re'.buf.length = maxPacketLen := hbuf.trans hcap
      rw [hfeed]
      cases r with
      | error e => rfl
      | ok res =>
        obtain ⟨n, packet⟩ := res
        cases packet with
        | none => exact ih _ hwf' hcap'
        | some pkt =>
          obtain ⟨reply, hhandle, hreplies⟩ := handle_whole ctrl (whole_of_fed hcap' rfl hfed)
          simp only [hhandle, H4.infallible, answer, ← hreplies]
          rw [ih _ hwf' hcap']
          congr 3
          split <;> simp

theorem serve_eq (ctrl : Controller) (written chunks : List Bytes) (hwf : re.Wf) (hcap : re.buf.length = maxPacketLen)
    (he : re.view.error = none) :
    serve re ctrl written chunks = (H4.feedChunks (H4.infallible answer) re (ctrl, written) chunks).map flat := by
  induction chunks generalizing re ctrl written with
  | nil => rfl
  | cons chunk chunks ih =>
    obtain ⟨re', hrun, hwf', hbuf, hview⟩ :=
      H4.feedAllLoop_spec answer (chunk.length + 1) re (ctrl, written) chunk hwf he (Nat.lt_succ_self _)
    rw [serve, serveLoop_eq _ _ hwf hcap, H4.feedChunks, H4.feedAll, hrun, Option.map_some]
    unfold H4.outcomeOf
    cases herr : ((framing re.buf.length).scan re.view chunk).error with
    | some e => rfl
    | none => exact ih _ _ hwf' (hbuf.trans hcap) (by rw [hview]; exact herr)

theorem foldl_answer (ps : List Bytes) :
    ps.foldl answer (ctrl, written) =
      ({ ctrl with commands := ctrl.commands + ps.countP isCommand }, written ++ ps.flatMap (replies ctrl.bdaddr)) := by
  induction ps generalizing ctrl written with
  | nil => simp
  | cons p ps ih =>
    rw [List.foldl_cons, answer, ih]
    simp only [List.flatMap_cons, List.append_assoc, List.countP_cons, Nat.add_comm, Nat.add_left_comm]

inductive Answers : Bytes → List Bytes → Prop
  | command (lo hi : UInt8) (rest params : Bytes) :
      Answers (0x01 :: lo :: hi :: rest) [commandComplete lo hi (0 :: params)]
  | data (pkt : Bytes) (h : pkt.head? = some 0x02 ∨ pkt.head? = some 0x03 ∨ pkt.head? = some 0x05) : Answers pkt [pkt]
  | event (rest : Bytes) : Answers (0x04 :: rest) []

theorem eq_intFromEnum {b : UInt8} {t : PacketType} (h : fromByte b = some t) : b = intFromEnum t := by
  rw [← UInt8.toNat_inj]
  unfold fromByte at h
  split at h <;> cases h <;> assumption

theorem answers_replies {pkt : Bytes} (h : Whole pkt) (bdaddr : Block 6) : Answers pkt (replies bdaddr pkt) := by
  obtain ⟨b, tl, t, rfl, hb, hheader, -⟩ := h.header
  obtain rfl := eq_intFromEnum hb
  cases t with
  | command =>
    change Answers (1 :: tl) (replies bdaddr (1 :: tl))
    match tl with
    | lo :: hi :: rest =>
      obtain ⟨params, hparams⟩ :=
        params_status ⟨bdaddr, 0⟩ (readInt16 (1 :: lo :: hi :: rest) 1) (1 :: lo :: hi :: rest)
      have hreplies : replies bdaddr (1 :: lo :: hi :: rest) = [commandComplete lo hi (0 :: params)] := by
        rw [← hparams]
        rfl
      rw [hreplies]
      exact .command lo hi rest params
    | [] | [_] => simp [headerLen] at hheader
  | acl => exact .data _ (.inl rfl)
  | sco => exact .data _ (.inr (.inl rfl))
  | event => exact .event tl
  | iso => exact .data _ (.inr (.inr rfl))

structure RoundTrip (ctrl : Controller) (ps : List Bytes) (ctrl' : Controller) (written : List Bytes) : Prop where
  counted : ctrl' = { ctrl with commands := ctrl.commands + ps.countP isCommand }
  answered : written = ps.flatMap (replies ctrl.bdaddr) ∧ ∀ p ∈ ps, Answers p (replies ctrl.bdaddr p)
  readBack : ∀ storage chunks, storage.length = maxPacketLen → chunks.flatten = written.flatten →
    ∃ re, H4.feedChunks H4.collect (init storage) [] chunks = some (re, written, .done)

theorem sim_round_trip {storage : Bytes} {ps chunks : List Bytes} (hcap : storage.length = maxPacketLen)
    (hps : ∀ p ∈ ps, Whole p) (hchunks : chunks.flatten = ps.flatten) :
    ∃ re ctrl' written, serve (init storage) ctrl [] chunks = some (re, ctrl', written, none) ∧
      RoundTrip ctrl ps ctrl' written := by
  have hlong {storage : Bytes} (h : storage.length = maxPacketLen) : 5 ≤ storage.length := by
    rw [h]
    decide
  have hscan {storage : Bytes} (h : storage.length = maxPacketLen) {ps : List Bytes} (hps : ∀ p ∈ ps, Whole p) :
      (framing (init storage).buf.length).scan .start ps.flatten = ⟨ps, [], none⟩ := by
    rw [show (init storage).buf.length = maxPacketLen from h]
    exact (framing maxPacketLen).scan_frames hps
  obtain ⟨re, hrun, -⟩ := H4.feedChunks_spec answer (init storage) (ctrl, []) chunks (init_wf storage (hlong hcap))
    (by rw [view_init]; rfl)
  rw [view_init, hchunks, hscan hcap hps, foldl_answer, List.nil_append] at hrun
  have hserve := serve_eq ctrl [] chunks (init_wf storage (hlong hcap)) hcap
    (by rw [view_init]; rfl)
  rw [hrun, Option.map_some] at hserve
  refine ⟨re, _, _, hserve, rfl, ⟨rfl, fun p hp => answers_replies (hps p hp) _⟩, ?_⟩
  intro storage' chunks' hcap' hchunks'
  have hwhole : ∀ r ∈ ps.flatMap (replies ctrl.bdaddr), Whole r := by
    intro r hr
    obtain ⟨p, hp, hr⟩ := List.mem_flatMap.mp hr
    exact whole_replies _ (hps p hp) r hr
  obtain ⟨re', hread, -⟩ := H4.feedChunks_spec (fun qs q => qs ++ [q]) (init storage') [] chunks'
    (init_wf storage' (hlong hcap')) (by rw [view_init]; rfl)
  rw [view_init, hchunks', hscan hcap' hwhole, H4.foldl_concat, List.nil_append] at hread
  exact ⟨re', hread⟩

theorem sim_round_trip_reset :
    ∃ re ctrl' written,
      serve (init (List.replicate maxPacketLen 0)) ⟨.fill 6 0, 0⟩ []
          [[0x01, 0x03], [0x0c, 0x00, 0x02, 0x40], [0x20, 0x03, 0x00, 0x11, 0x22, 0x33]] =
        some (re, ctrl', written, none) ∧
      RoundTrip ⟨.fill 6 0, 0⟩ [[0x01, 0x03, 0x0c, 0x00], [0x02, 0x40, 0x20, 0x03, 0x00, 0x11, 0x22, 0x33]]
        ctrl' written := by
  refine sim_round_trip List.length_replicate ?_ rfl
  intro p hp
  rcases List.mem_pair.mp hp with rfl | rfl <;> rfl

end Serve

end HciBridge.Simulator
