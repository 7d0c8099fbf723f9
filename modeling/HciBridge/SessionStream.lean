import HciBridge.H4Stream
import HciBridge.SessionEnd

namespace HciBridge.Session

open H4 (parse maxPacketLen framing scan_eq_parse)
open H4.Reassembler (Wf Fed feed_spec view_init init_wf)

def ToLocalPc.left : ToLocalPc → Bytes × List Bytes
  | feed chunk => (chunk, [])
  | write pkt rest => (rest, [pkt])
  | _ => ([], [])

/-- What is left to do makes up, with what has been done, for what was received. -/
structure Scanned (s : State) : Prop where
  noError : s.re.view.error = none
  scan : (framing maxPacketLen).scan .start s.received =
    ((framing maxPacketLen).scan s.re.view s.toLocal.left.1).addFront (s.written ++ s.toLocal.left.2)

structure StreamInv (s : State) : Prop where
  wf : s.re.Wf
  cap : s.re.buf.length = maxPacketLen
  short : s.toLocal.left.1.length ≤ readBufLen
  scanned : s.toLocal.ending? = none → Scanned s
  wrote : s.written <+: (parse maxPacketLen s.received).frames

section Stream

variable {s s' t : State} {l : Label} {e e' : End}

theorem EndStep.stream (h : EndStep s e t e') :
    t.re = s.re ∧ t.received = s.received ∧ t.written = s.written ∧ t.toLocal = s.toLocal := by
  cases h with
  | _ => exact ⟨rfl, rfl, rfl, rfl⟩

theorem Scanned.wrote (h : Scanned s) : s.written <+: (parse maxPacketLen s.received).frames := by
  rw [← scan_eq_parse, h.scan, Scan.addFront_frames, List.append_assoc]
  exact List.prefix_append _ _

theorem Scanned.written_eq (h : Scanned s) (hleft : s.toLocal.left = ([], [])) :
    s.written = (parse maxPacketLen s.received).frames ∧ (parse maxPacketLen s.received).error = none := by
  have hscan := h.scan
  rw [hleft, Framing.scan_nil, scan_eq_parse, List.append_nil] at hscan
  rw [hscan]
  exact ⟨(List.append_nil _).symm, h.noError⟩

theorem StreamInv.ofScanned (hwf : s.re.Wf) (hcap : s.re.buf.length = maxPacketLen)
    (hshort : s.toLocal.left.1.length ≤ readBufLen) (h : Scanned s) : StreamInv s :=
  ⟨hwf, hcap, hshort, fun _ => h, h.wrote⟩

theorem StreamInv.ending (h : StreamInv s) (hre : t.re = s.re) (hreceived : t.received = s.received)
    (hwritten : t.written = s.written) (hpc : t.toLocal = .ending e) : StreamInv t := by
  refine ⟨hre ▸ h.wf, hre ▸ h.cap, by simp [hpc, ToLocalPc.left], by simp [hpc, ToLocalPc.ending?], ?_⟩
  rw [hreceived, hwritten]
  exact h.wrote

theorem StreamInv.frame (h : StreamInv s) (hre : t.re = s.re) (hreceived : t.received = s.received)
    (hwritten : t.written = s.written) (hpc : t.toLocal = s.toLocal) : StreamInv t := by
  refine ⟨hre ▸ h.wf, hre ▸ h.cap, hpc ▸ h.short, fun hend => ?_, by rw [hreceived, hwritten]; exact h.wrote⟩
  have hsc := h.scanned (hpc ▸ hend)
  exact ⟨hre ▸ hsc.noError, by rw [hre, hreceived, hwritten, hpc]; exact hsc.scan⟩

theorem Scanned.move (h : Scanned s) (hre : t.re = s.re) (hreceived : t.received = s.received)
    (hdone : t.written ++ t.toLocal.left.2 = s.written ++ s.toLocal.left.2)
    (hrest : t.toLocal.left.1 = s.toLocal.left.1) : Scanned t :=
  ⟨hre ▸ h.noError, by rw [hre, hreceived, hdone, hrest]; exact h.scan⟩

theorem scanned_fill {chunk : Bytes} (h : Scanned s) (hpc : s.toLocal = .fill) :
    Scanned { s with toLocal := .feed chunk, received := s.received ++ chunk } := by
  refine ⟨h.noError, ?_⟩
  have hscan := h.scan
  rw [hpc] at hscan
  rw [Framing.scan_append, hscan, Framing.scan_addFront]
  rfl

variable {chunk : Bytes} {re : H4.Reassembler} {n : ℕ}

theorem scanned_feed (h : StreamInv s) (hpc : s.toLocal = .feed chunk)
    (hfeed : s.re.feed chunk = some (re, .ok ⟨n, none⟩)) :
    re.Wf ∧ re.buf.length = maxPacketLen ∧ Scanned { s with re := re, toLocal := .feed (chunk.drop n) } := by
  obtain ⟨re', r, hfeed', hwf, hbuf, hfed⟩ := feed_spec h.wf chunk
  rw [hfeed] at hfeed'
  cases hfeed'
  have hsc := h.scanned (by rw [hpc]; rfl)
  have hcap : re.buf.length = maxPacketLen := hbuf.trans h.cap
  refine ⟨hwf, hcap, ?_⟩
  cases hfed with
  | exhausted hv hnone =>
    refine ⟨hnone, ?_⟩
    rw [hcap] at hv
    rw [hsc.scan, hpc]
    simp only [ToLocalPc.left, List.drop_length, Framing.scan_nil, hv]

theorem scanned_packet {pkt : Bytes} (h : StreamInv s) (hpc : s.toLocal = .feed chunk)
    (hfeed : s.re.feed chunk = some (re, .ok ⟨n, some pkt⟩)) :
    re.Wf ∧ re.buf.length = maxPacketLen ∧ Scanned { s with re := re, toLocal := .write pkt (chunk.drop n) } := by
  obtain ⟨re', r, hfeed', hwf, hbuf, hfed⟩ := feed_spec h.wf chunk
  rw [hfeed] at hfeed'
  cases hfeed'
  have hsc := h.scanned (by rw [hpc]; rfl)
  have hcap : re.buf.length = maxPacketLen := hbuf.trans h.cap
  refine ⟨hwf, hcap, ?_⟩
  cases hfed with
  | packet _ _ _ _ hv hstart =>
    have hscan : (framing maxPacketLen).scan s.re.view chunk =
        ((framing maxPacketLen).scan .start (chunk.drop n)).addFront [pkt] := by
      rw [hcap] at hv
      conv_lhs => rw [← List.take_append_drop n chunk]
      rw [Framing.scan_append, hv, ← Framing.scan_addFront]
      rfl
    refine ⟨by rw [hstart]; rfl, ?_⟩
    rw [hsc.scan, hpc]
    simp only [ToLocalPc.left, hstart, List.append_nil, hscan, Scan.addFront_addFront]

theorem written_of_failed {err : H4.Error} (h : StreamInv s) (hpc : s.toLocal = .feed chunk)
    (hfeed : s.re.feed chunk = some (re, .error err)) :
    re.Wf ∧ re.buf.length = maxPacketLen ∧ s.written = (parse maxPacketLen s.received).frames ∧
      (parse maxPacketLen s.received).error = some err := by
  obtain ⟨re', r, hfeed', hwf, hbuf, hfed⟩ := feed_spec h.wf chunk
  rw [hfeed] at hfeed'
  cases hfeed'
  have hsc := h.scanned (by rw [hpc]; rfl)
  have hcap : re.buf.length = maxPacketLen := hbuf.trans h.cap
  refine ⟨hwf, hcap, ?_⟩
  cases hfed with
  | failed c _ _ hv hsome =>
    have hscan : (framing maxPacketLen).scan s.re.view chunk = re.view := by
      rw [hcap] at hv
      conv_lhs => rw [← List.take_append_drop c chunk]
      rw [Framing.scan_append, hv]
      exact (framing _).scan_error _ _ (by simp [hsome])
    have hparse := hsc.scan
    rw [hpc, scan_eq_parse] at hparse
    simp only [ToLocalPc.left, List.append_nil, hscan] at hparse
    rw [hparse]
    exact ⟨(List.append_nil _).symm, hsome⟩

theorem stream_step (h : StreamInv s) (hI : SessionInv s) (hstep : Step s l s') : StreamInv s' := by
  have hphase := hI.phase
  cases hstep with
  | filled hpc _ hlen => exact .ofScanned h.wf h.cap hlen (scanned_fill (h.scanned (by rw [hpc]; rfl)) hpc)
  | feedOn hpc _ hfeed =>
    obtain ⟨hwf, hcap, hsc⟩ := scanned_feed h hpc hfeed
    have hshort := h.short
    rw [hpc] at hshort
    exact .ofScanned hwf hcap ((List.drop_sublist _ _).length_le.trans hshort) hsc
  | feedPacket hpc _ hfeed =>
    obtain ⟨hwf, hcap, hsc⟩ := scanned_packet h hpc hfeed
    have hshort := h.short
    rw [hpc] at hshort
    exact .ofScanned hwf hcap ((List.drop_sublist _ _).length_le.trans hshort) hsc
  | feedFailed hpc hfeed =>
    obtain ⟨hwf, hcap, -⟩ := written_of_failed h hpc hfeed
    refine ⟨hwf, hcap, ?_, ?_, h.wrote⟩
    · simp [State.failToLocal, ToLocalPc.left]
    · simp [State.failToLocal, ToLocalPc.ending?]
  | packetWritten hpc =>
    have hsc := h.scanned (by rw [hpc]; rfl)
    have hshort := h.short
    rw [hpc] at hshort
    exact .ofScanned h.wf h.cap hshort (hsc.move rfl rfl (by simp [hpc, ToLocalPc.left]) (by rw [hpc]; rfl))
  | readOn hpc | fed hpc =>
    have hsc := h.scanned (by rw [hpc]; rfl)
    exact .ofScanned h.wf h.cap (Nat.zero_le _) (hsc.move rfl rfl (by rw [hpc]; rfl) (by rw [hpc]; rfl))
  | spawned hpc =>
    rw [hpc] at hphase
    have hsc := h.scanned (by rw [hphase.1]; rfl)
    exact .ofScanned h.wf h.cap (Nat.zero_le _) (hsc.move rfl rfl (by rw [hphase.1]; rfl) (by rw [hphase.1]; rfl))
  | readStop | closed | fillFailed | packetFailed => exact h.ending rfl rfl rfl rfl
  | toLocalEnd _ hend =>
    obtain ⟨hre, hreceived, hwritten, -⟩ := hend.stream
    exact h.ending hre hreceived hwritten rfl
  | toTcpEnd _ hend =>
    obtain ⟨hre, hreceived, hwritten, hpc⟩ := hend.stream
    exact h.frame hre hreceived hwritten hpc
  | _ => exact h.frame rfl rfl rfl rfl

theorem Reachable.stream (h : Reachable s) : StreamInv s := by
  apply Runs.ReachableWhile.invariant StreamInv _ _ h
  · rintro _ ⟨storage, hs, rfl⟩
    have hcap : (H4.Reassembler.init storage).buf.length = maxPacketLen := hs
    apply StreamInv.ofScanned (init_wf storage (by rw [hs]; decide)) hcap (Nat.zero_le _)
    exact ⟨by simp [init, Scan.start], by simp [init, ToLocalPc.left, Scan.start, Scan.addFront]⟩
  · exact fun s l s' hr hI _ hs => stream_step hI (Reachable.inv hr) (step_cases hs)

theorem written_of_received (h : Reachable s) :
    s.written <+: (parse maxPacketLen s.received).frames ∧
    (s.toLocal = .loadStop ∨ s.toLocal = .fill → s.written = (parse maxPacketLen s.received).frames ∧
      (parse maxPacketLen s.received).error = none) ∧
    (∀ chunk s', s.toLocal = .feed chunk → step s .toLocal = some s' → s'.failures ≠ s.failures →
      s.written = (parse maxPacketLen s.received).frames ∧
      (parse maxPacketLen s.received).error = some .UnknownPacketType ∧
      s'.failures = s.failures ++ [.framing .UnknownPacketType]) := by
  have hI := h.stream
  refine ⟨hI.wrote, ?_, ?_⟩
  · rintro (hpc | hpc)
    · exact (hI.scanned (by rw [hpc]; rfl)).written_eq (by rw [hpc]; rfl)
    · exact (hI.scanned (by rw [hpc]; rfl)).written_eq (by rw [hpc]; rfl)
  · intro chunk s' hpc hs hne
    cases step_cases hs with
    | feedFailed hpc' hfeed =>
      obtain ⟨-, -, hwritten, herror⟩ := written_of_failed hI hpc' hfeed
      have hlarge := H4.parse_never_too_large le_rfl s.received
      rw [herror] at hlarge
      rename_i err
      cases err with
      | UnknownPacketType => exact ⟨hwritten, herror, rfl⟩
      | PacketTooLarge => exact absurd rfl hlarge
    | toLocalEnd hpc' => rw [hpc] at hpc'; cases hpc'
    | _ => exact absurd rfl hne

end Stream

def eventInPieces : List Label :=
  [.spawn none, .toLocal, .fill (.ok [0x04, 0x0e]), .toLocal, .toLocal, .toLocal, .fill (.ok [0x01, 0xaa]), .toLocal,
    .writePacket none, .toLocal, .toLocal]

theorem written_of_received_of_pieces :
    (∃ s : State, s.toLocal = .fill ∧ s.received = [0x04, 0x0e, 0x01, 0xaa] ∧
      s.written = [[0x04, 0x0e, 0x01, 0xaa]] ∧ s.written = (parse maxPacketLen s.received).frames) ∧
    ∃ s s' : State, s.toLocal = .feed [0x09] ∧ step s .toLocal = some s' ∧ s.written = [[0x04, 0x0e, 0x01, 0xaa]] ∧
      s.written = (parse maxPacketLen s.received).frames ∧
      s'.failures = s.failures ++ [.framing .UnknownPacketType] := by
  obtain ⟨s, h, hs⟩ := Runs.exists_of_run step IsInit Runs.always (init (List.replicate maxPacketLen 0))
    eventInPieces
    (fun s => decide (s.toLocal = .fill ∧ s.received = [0x04, 0x0e, 0x01, 0xaa] ∧
      s.written = [[0x04, 0x0e, 0x01, 0xaa]]))
    ⟨_, List.length_replicate, rfl⟩ (by decide +kernel)
  obtain ⟨t, ht, hp⟩ := Runs.exists_of_run step IsInit Runs.always (init (List.replicate maxPacketLen 0))
    (eventInPieces ++ [.fill (.ok [0x09])])
    (fun s => decide (s.toLocal = .feed [0x09] ∧ s.written = [[0x04, 0x0e, 0x01, 0xaa]] ∧ s.failures = [] ∧
      (step s .toLocal).map State.failures = some [.framing .UnknownPacketType]))
    ⟨_, List.length_replicate, rfl⟩ (by decide +kernel)
  obtain ⟨hfill, hreceived, hwritten⟩ := of_decide_eq_true hs
  obtain ⟨hfeed, hone, hnone, hfails⟩ := of_decide_eq_true hp
  obtain ⟨t', hstep, hframing⟩ := Option.map_eq_some_iff.mp hfails
  refine ⟨⟨s, hfill, hreceived, hwritten, ((written_of_received h).2.1 (.inr hfill)).1⟩, t, t', hfeed, hstep, hone, ?_⟩
  obtain ⟨hframes, -, hfailures⟩ := (written_of_received ht).2.2 _ t' hfeed hstep (by simp [hnone, hframing])
  exact ⟨hframes, hfailures⟩

end HciBridge.Session
