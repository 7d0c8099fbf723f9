import Mathlib.Data.Nat.Notation
import Mathlib.Data.List.Basic

/-!
H4 (UART transport) packet framing, after `common/h4.zig`.
-/

namespace HciBridge.H4

inductive PacketType
  | command | acl | sco | event | iso
deriving DecidableEq, Repr

namespace PacketType

def fromByte (b : UInt8) : Option PacketType :=
  match b.toNat with
  | 0x01 => some command
  | 0x02 => some acl
  | 0x03 => some sco
  | 0x04 => some event
  | 0x05 => some iso
  | _ => none

def headerLen : PacketType → ℕ
  | command => 3
  | acl => 4
  | sco => 3
  | event => 2
  | iso => 4

def byteAt (header : List UInt8) (i : ℕ) : ℕ := (header.getD i 0).toNat

/-- `std.mem.readInt(u16, header[i .. i + 2], .little)` -/
def readInt16 (header : List UInt8) (i : ℕ) : ℕ := byteAt header i + 256 * byteAt header (i + 1)

def payloadLen (t : PacketType) (header : List UInt8) : ℕ :=
  match t with
  | command => byteAt header 2
  | event => byteAt header 1
  | sco => byteAt header 2
  | acl => readInt16 header 2
  | iso => readInt16 header 2 &&& 0x3fff

end PacketType

def maxPacketLen : ℕ := 1 + 4 + 0xffff

inductive Error
  | UnknownPacketType | PacketTooLarge
deriving DecidableEq, Repr

structure FeedResult where
  consumed : ℕ
  packet : Option (List UInt8)
deriving DecidableEq, Repr

/-- `buf` is the caller's whole storage, stale bytes included; its first `len` bytes are in use. -/
structure Reassembler where
  buf : List UInt8
  len : ℕ
deriving DecidableEq, Repr

namespace Reassembler

def init (buf : List UInt8) : Reassembler := ⟨buf, 0⟩

def reset (re : Reassembler) : Reassembler := { re with len := 0 }

def totalLen (re : Reassembler) : Except Error (Option ℕ) :=
  if re.len = 0 then .ok none
  else match PacketType.fromByte (re.buf.getD 0 0) with
    | none => .error .UnknownPacketType
    | some t =>
      let hdr := t.headerLen
      if re.len < 1 + hdr then .ok none
      else
        let total := 1 + hdr + t.payloadLen ((re.buf.drop 1).take hdr)
        if re.buf.length < total then .error .PacketTooLarge else .ok (some total)

/-- A subtraction on `usize`; `none` is the safety check firing. -/
def checkedSub (a b : ℕ) : Option ℕ := if b ≤ a then some (a - b) else none

def want (re : Reassembler) : Except Error (Option ℕ) :=
  match re.totalLen with
  | .error e => .error e
  | .ok (some total) => .ok (checkedSub total re.len)
  | .ok none =>
    if re.len = 0 then .ok (some 1)
    else match PacketType.fromByte (re.buf.getD 0 0) with
      | none => .error .UnknownPacketType
      | some t => .ok (checkedSub (1 + t.headerLen) re.len)

/-- `@memcpy(self.buf[self.len .. self.len + src.len], src)` and the advance of `len`; `none` is a
copy that leaves the storage. -/
def copyIn (re : Reassembler) (src : List UInt8) : Option Reassembler :=
  if re.len + src.length ≤ re.buf.length then
    some ⟨re.buf.take re.len ++ src ++ re.buf.drop (re.len + src.length), re.len + src.length⟩
  else none

/-- The loop of `feed`. `none` is a safety check firing or the fuel running out, an error comes with
the state it leaves behind. -/
def feedLoop : ℕ → Reassembler → List UInt8 → ℕ → Option (Reassembler × Except Error FeedResult)
  | 0, _, _, _ => none
  | fuel + 1, re, input, consumed =>
    if consumed < input.length then
      match re.want with
      | .error e => some (re, .error e)
      | .ok none => none
      | .ok (some want) =>
        let n := min want (input.length - consumed)
        match re.copyIn ((input.drop consumed).take n) with
        | none => none
        | some re =>
          match re.totalLen with
          | .error e => some (re, .error e)
          | .ok none => feedLoop fuel re input (consumed + n)
          | .ok (some total) =>
            if re.len = total then some (re, .ok ⟨consumed + n, some (re.buf.take total)⟩)
            else feedLoop fuel re input (consumed + n)
    else some (re, .ok ⟨consumed, none⟩)

/-- Every round of the loop takes at least one byte, so the input's length is fuel enough
(`feed_spec`). -/
def feed (re : Reassembler) (input : List UInt8) : Option (Reassembler × Except Error FeedResult) :=
  match re.totalLen with
  | .error e => some (re, .error e)
  | .ok none => feedLoop (input.length + 1) re input 0
  | .ok (some total) =>
    -- a previously returned packet is still sitting in the buffer
    feedLoop (input.length + 1) (if re.len = total then { re with len := 0 } else re) input 0

end Reassembler

inductive Outcome (ε : Type)
  | done | framing (e : Error) | handler (e : ε)
deriving DecidableEq, Repr

section FeedAll

variable {σ ε : Type} (handler : σ → List UInt8 → Except ε σ)

def feedAllLoop : ℕ → Reassembler → σ → List UInt8 → Option (Reassembler × σ × Outcome ε)
  | 0, _, _, _ => none
  | fuel + 1, re, ctx, rest =>
    if rest.length > 0 then
      match re.feed rest with
      | none => none
      | some (re, .error e) => some (re, ctx, .framing e)
      | some (re, .ok r) =>
        match r.packet with
        | none => feedAllLoop fuel re ctx (rest.drop r.consumed)
        | some p =>
          match handler ctx p with
          | .error e => some (re, ctx, .handler e)
          | .ok ctx => feedAllLoop fuel re ctx (rest.drop r.consumed)
    else some (re, ctx, .done)

def feedAll (re : Reassembler) (ctx : σ) (input : List UInt8) :
    Option (Reassembler × σ × Outcome ε) :=
  feedAllLoop handler (input.length + 1) re ctx input

def feedChunks (re : Reassembler) (ctx : σ) : List (List UInt8) → Option (Reassembler × σ × Outcome ε)
  | [] => some (re, ctx, .done)
  | c :: cs =>
    match feedAll handler re ctx c with
    | some (re, ctx, .done) => feedChunks re ctx cs
    | out => out

end FeedAll

def collect (ps : List (List UInt8)) (p : List UInt8) : Except Empty (List (List UInt8)) :=
  .ok (ps ++ [p])

end HciBridge.H4
