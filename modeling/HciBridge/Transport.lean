import HciBridge.Bridge
import HciBridge.H4Stream

/-!
Packets from one end of the link to the other: `localToTcp` and `tcpToLocal` of `host/session.zig`, the
receive loop and `txTask` of `firmware/main/bridge.zig`, and the reads of the handshake before them.
-/

namespace HciBridge.Transport

open H4 H4.Reassembler
open Bridge (rxPacketLen txChunkLen)

abbrev Bytes := List UInt8

structure Receiver where
  re : Reassembler
  handed : List Bytes
  connected : Bool
deriving DecidableEq, Repr

/-- `acceptClient` leaves the old bytes in the storage. -/
def accepted (storage : Bytes) (len : ℕ) : Receiver := ⟨reset ⟨storage, len⟩, [], true⟩

inductive Wake
  | late
  | timeout
  | failed
  | data (n : ℕ)
deriving DecidableEq, Repr

inductive Stop
  | full | handshakeTimeout | endOfStream | failed
deriving DecidableEq, Repr

structure Read where
  got : Bytes
  rest : Bytes
  stop : Option Stop
deriving DecidableEq, Repr

/-- The loop of `readAllBy` and of `recv_exact`; without further rounds it still waits. -/
def readLoop (len : ℕ) (got stream : Bytes) : List Wake → Read
  | [] => ⟨got, stream, if got.length < len then none else some .full⟩
  | w :: ws =>
    if got.length < len then
      match w with
      | .late | .timeout => ⟨got, stream, some .handshakeTimeout⟩
      | .failed => ⟨got, stream, some .failed⟩
      | .data n =>
        let chunk := stream.take (min n (len - got.length))
        if chunk = [] then ⟨got, stream, some .endOfStream⟩
        else readLoop len (got ++ chunk) (stream.drop chunk.length) ws
    else ⟨got, stream, some .full⟩

def WellFormed (p : Bytes) : Prop :=
  ∃ b tl f, p = b :: tl ∧ format b = some f ∧ f.headerLen ≤ tl.length ∧
    p.length = 1 + f.headerLen + f.payload (tl.take f.headerLen)

theorem wellFormed_cons {b : UInt8} {tl : Bytes} :
    WellFormed (b :: tl) ↔ ∃ f, format b = some f ∧ f.headerLen ≤ tl.length ∧
      (b :: tl).length = 1 + f.headerLen + f.payload (tl.take f.headerLen) := by
  constructor
  · rintro ⟨b', tl', f, ⟨⟩, h⟩
    exact ⟨f, h⟩
  · rintro ⟨f, h⟩
    exact ⟨b, tl, f, rfl, h⟩

instance : DecidablePred WellFormed
  | [] => .isFalse nofun
  | _ :: _ => decidable_of_iff _ wellFormed_cons.symm

def known (p : Bytes) : Bool := p.head?.any fun b => (format b).isSome

theorem total_of_wellFormed {cap : ℕ} {p : Bytes} (h : WellFormed p) (hcap : p.length ≤ cap) :
    total cap p = .ok (some p.length) := by
  obtain ⟨b, tl, f, rfl, hb, hhdr, hlen⟩ := h
  obtain ⟨t, ht, rfl⟩ := fromByte_of_format hb
  rw [format_headerLen, format_payload] at hlen
  rw [format_headerLen] at hhdr
  exact total_of_header ht (by omega) hlen hcap

end HciBridge.Transport
