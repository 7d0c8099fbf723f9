import HciBridge.H4
import HciBridge.Runs

/-!
The two tasks and the controller callback of `firmware/main/bridge.zig`, one
step for each atomic access and each glue call. Sockets are descriptor numbers
owned by connections; a number is free again once it is closed. Log lines and
counters, which nothing here reads, are left out.
-/

namespace HciBridge.Bridge

open H4 (Reassembler)

def rxPacketLen : ℕ := 1 + 4 + 1021
def rxChunkLen : ℕ := 1024
def txChunkLen : ℕ := 1024
def streamBufferLen : ℕ := 16 * 1024

abbrev Fd := ℕ

/-- The `n`-th connection `glue_accept` handed out, however often its number is reused. -/
abbrev Conn := ℕ

/-- A byte on its way to the host, and the connection the callback saw when it queued the byte. -/
structure Cell where
  byte : UInt8
  seen : Option Conn
deriving DecidableEq, Repr

def cells (pkt : List UInt8) (seen : Option Conn) : List Cell := pkt.map fun b => ⟨b, seen⟩

structure Peer where
  authenticated : Bool
  published : Bool
  shut : Bool
  sendFailed : Bool
  sent : List Cell
  received : List UInt8
deriving Repr

def Peer.fresh : Peer := ⟨false, false, false, false, [], []⟩

inductive Reason
  | sendFailed | hostClosed | protocolError
deriving DecidableEq, Repr

inductive RxPc
  | loadClient
  | poll
  -- acceptClient
  | accept
  | handshake (newFd : Fd)
  | closeRejected (newFd : Fd)
  | swapOld (newFd : Fd)
  | shutdownOld (newFd old : Fd)
  | clearIdle (newFd : Fd) (old : Option Fd)
  | setPause (newFd : Fd) (old : Option Fd)
  | awaitIdle (newFd : Fd) (old : Option Fd)
  | closeOld (newFd old : Fd)
  | clearFailed (newFd : Fd)
  | drain (newFd : Fd)
  | publish (newFd : Fd)
  | clearPause
  -- the rest of the loop
  | checkFailed
  | checkClient
  | recv (client : Fd)
  | feed (chunk : List UInt8)
  | deliver (pkt rest : List UInt8)
  -- dropClient
  | dropSwap (why : Reason)
  | dropClose (old : Fd) (why : Reason)
deriving DecidableEq, Repr

inductive TxPc
  | loadPause
  | storeIdle
  | clearIdle
  | recv
  | loadClient (n : ℕ)
  | send (client : Fd) (n : ℕ)
  | storeFailed
deriving DecidableEq, Repr

inductive CbPc
  | idle
  | loadClient (pkt : List UInt8)
  | space (pkt : List UInt8) (seen : Option Conn)
  | write (pkt : List UInt8) (seen : Option Conn)
deriving DecidableEq, Repr

structure State where
  clientFd : Option Fd
  txPause : Bool
  txIdle : Bool
  txFailed : Bool
  sb : List Cell
  txChunk : List Cell
  rx : RxPc
  tx : TxPc
  cb : CbPc
  -- rxTask's locals: the client it polled, whether that was readable, the reassembler
  client : Option Fd
  hostReady : Bool
  re : Reassembler
  -- the sockets
  owner : Fd → Option Conn
  accepted : ℕ
  peers : Conn → Peer
  -- histories: controller packets called in, packets queued, packets passed to sendToController
  produced : List (List UInt8)
  queued : List (List Cell)
  passed : List (Option Conn × List UInt8)

def init : State where
  clientFd := none
  txPause := false
  txIdle := false
  txFailed := false
  sb := []
  txChunk := []
  rx := .loadClient
  tx := .loadPause
  cb := .idle
  client := none
  hostReady := false
  re := .init (List.replicate rxPacketLen 0)
  owner := fun _ => none
  accepted := 0
  peers := fun _ => .fresh
  produced := []
  queued := []
  passed := []

def State.current (s : State) : Option Conn := s.clientFd.bind s.owner

def revise (peers : Conn → Peer) (o : Option Conn) (f : Peer → Peer) : Conn → Peer :=
  fun c => if o = some c then f (peers c) else peers c

def Peer.setAuthenticated (p : Peer) : Peer := { p with authenticated := true }
def Peer.setPublished (p : Peer) : Peer := { p with published := true }
def Peer.shutdown (p : Peer) : Peer := { p with shut := true }
def Peer.receive (bytes : List UInt8) (p : Peer) : Peer := { p with received := p.received ++ bytes }
def Peer.write (cs : List Cell) (p : Peer) : Peer := { p with sent := p.sent ++ cs }
def Peer.writePart (cs : List Cell) (p : Peer) : Peer :=
  { p with sent := p.sent ++ cs, sendFailed := true }

/-- The results of the calls a step makes; a step that can only go one way is `rx`, `tx` or `cb`. -/
inductive Label
  | rx
  | rxPoll (mask : Option (Bool × Bool))
  | rxAccept (fd : Option Fd)
  | rxHandshake (ok : Bool)
  | rxDrain (n : ℕ)
  | rxRecv (bytes : List UInt8)
  | tx
  | txRecv (n : ℕ)
  | txSend (failedAfter : Option ℕ)
  | cbCall (pkt : List UInt8)
  | cb
deriving DecidableEq, Repr

/-- `xStreamBufferReceive` into a buffer of 1024 bytes gives nothing only if nothing is queued. -/
def sbRecvGives (sb : List Cell) (n : ℕ) : Bool :=
  if n = 0 then sb = [] else n ≤ txChunkLen && n ≤ sb.length

def State.filled (s : State) (n : ℕ) : List Cell := s.sb.take n ++ s.txChunk.drop n

def Reason.after : Reason → RxPc
  | .sendFailed => .checkClient
  | .hostClosed => .loadClient
  | .protocolError => .loadClient

def drainStreamBuffer (s : State) (newFd : Fd) (n : ℕ) : Option State :=
  if sbRecvGives s.sb n then
    some { s with
      sb := s.sb.drop n
      txChunk := s.filled n
      rx := if n = 0 then .publish newFd else .drain newFd }
  else none

def acceptClient (s : State) (l : Label) : Option State :=
  match s.rx, l with
  | .accept, .rxAccept none => some { s with rx := .checkFailed }
  | .accept, .rxAccept (some fd) =>
    if s.owner fd = none then
      some { s with
        owner := Function.update s.owner fd (some s.accepted)
        peers := revise s.peers (some s.accepted) (fun _ => .fresh)
        accepted := s.accepted + 1
        rx := .handshake fd }
    else none
  | .handshake newFd, .rxHandshake false => some { s with rx := .closeRejected newFd }
  | .handshake newFd, .rxHandshake true =>
    some { s with peers := revise s.peers (s.owner newFd) .setAuthenticated, rx := .swapOld newFd }
  | .closeRejected newFd, .rx =>
    some { s with owner := Function.update s.owner newFd none, rx := .checkFailed }
  | .swapOld newFd, .rx =>
    match s.clientFd with
    | none => some { s with rx := .clearIdle newFd none }
    | some old => some { s with clientFd := none, rx := .shutdownOld newFd old }
  | .shutdownOld newFd old, .rx =>
    some { s with peers := revise s.peers (s.owner old) .shutdown, rx := .clearIdle newFd (some old) }
  | .clearIdle newFd old, .rx =>
    some { s with re := s.re.reset, txIdle := false, rx := .setPause newFd old }
  | .setPause newFd old, .rx => some { s with txPause := true, rx := .awaitIdle newFd old }
  | .awaitIdle newFd old, .rx =>
    if s.txIdle then
      match old with
      | none => some { s with rx := .clearFailed newFd }
      | some fd => some { s with rx := .closeOld newFd fd }
    else some s
  | .closeOld newFd old, .rx =>
    some { s with owner := Function.update s.owner old none, rx := .clearFailed newFd }
  | .clearFailed newFd, .rx => some { s with txFailed := false, rx := .drain newFd }
  | .drain newFd, .rxDrain n => drainStreamBuffer s newFd n
  | .publish newFd, .rx =>
    some { s with
      peers := revise s.peers (s.owner newFd) .setPublished
      clientFd := some newFd
      rx := .clearPause }
  | .clearPause, .rx => some { s with txPause := false, rx := .checkFailed }
  | _, _ => none

def dropClient (s : State) (l : Label) : Option State :=
  match s.rx, l with
  | .dropSwap why, .rx =>
    match s.clientFd with
    | none => some { s with rx := why.after }
    | some old => some { s with clientFd := none, rx := .dropClose old why }
  | .dropClose old why, .rx =>
    some { s with owner := Function.update s.owner old none, rx := why.after }
  | _, _ => none

def feedChunk (s : State) (chunk : List UInt8) : Option State :=
  match s.re.feed chunk with
  | none => none
  | some (re, .error _) => some { s with re := re.reset, rx := .dropSwap .protocolError }
  | some (re, .ok ⟨consumed, none⟩) => some { s with re := re, rx := .feed (chunk.drop consumed) }
  | some (re, .ok ⟨consumed, some pkt⟩) =>
    some { s with re := re, rx := .deliver pkt (chunk.drop consumed) }

def rxTask (s : State) (l : Label) : Option State :=
  match s.rx, l with
  | .loadClient, .rx => some { s with client := s.clientFd, rx := .poll }
  | .poll, .rxPoll none => some { s with rx := .loadClient }
  | .poll, .rxPoll (some (listening, host)) =>
    -- glue_poll2 does not look at a negative descriptor
    if host && s.client.isNone then none
    else some { s with hostReady := host, rx := if listening then .accept else .checkFailed }
  | .checkFailed, .rx =>
    some { s with txFailed := false, rx := if s.txFailed then .dropSwap .sendFailed else .checkClient }
  | .checkClient, .rx =>
    -- with `host` not ready the source makes no load here
    match s.client with
    | none => some { s with rx := .loadClient }
    | some fd =>
      if s.hostReady && s.clientFd = some fd then some { s with rx := .recv fd }
      else some { s with rx := .loadClient }
  | .recv fd, .rxRecv bytes =>
    if bytes.length ≤ rxChunkLen && (bytes = [] || (s.owner fd).isSome) then
      some { s with
        peers := revise s.peers (s.owner fd) (.receive bytes)
        rx := if bytes = [] then .dropSwap .hostClosed else .feed bytes }
    else none
  | .feed chunk, .rx => if chunk = [] then some { s with rx := .loadClient } else feedChunk s chunk
  | .deliver pkt rest, .rx =>
    some { s with passed := s.passed ++ [(s.current, pkt)], rx := .feed rest }
  | .dropSwap _, l | .dropClose _ _, l => dropClient s l
  | _, l => acceptClient s l

def txTask (s : State) (l : Label) : Option State :=
  match s.tx, l with
  | .loadPause, .tx => some { s with tx := if s.txPause then .storeIdle else .clearIdle }
  | .storeIdle, .tx => some { s with txIdle := true, tx := .loadPause }
  | .clearIdle, .tx => some { s with txIdle := false, tx := .recv }
  | .recv, .txRecv n =>
    if sbRecvGives s.sb n then
      some { s with
        sb := s.sb.drop n
        txChunk := s.filled n
        tx := if n = 0 then .loadPause else .loadClient n }
    else none
  | .loadClient n, .tx =>
    match s.clientFd with
    | none => some { s with tx := .loadPause }
    | some fd => some { s with tx := .send fd n }
  | .send fd n, .txSend failedAfter =>
    match s.owner fd, failedAfter with
    -- nobody has the number: the call fails and writes nothing
    | none, some _ => some { s with tx := .storeFailed }
    | none, none => none
    | some c, none =>
      if (s.peers c).shut then none
      else some { s with
        peers := revise s.peers (some c) (.write (s.txChunk.take n))
        tx := .loadPause }
    | some c, some k =>
      if k < n then
        some { s with
          peers := revise s.peers (some c) (.writePart (s.txChunk.take k))
          tx := .storeFailed }
      else none
  | .storeFailed, .tx => some { s with txFailed := true, tx := .loadPause }
  | _, _ => none

def bridgeOnControllerPacket (s : State) (l : Label) : Option State :=
  match s.cb, l with
  | .idle, .cbCall pkt =>
    if pkt.length < 65536 then
      some { s with produced := s.produced ++ [pkt], cb := .loadClient pkt }
    else none
  | .loadClient pkt, .cb =>
    match s.clientFd with
    | none => some { s with cb := .idle }
    | some _ => some { s with cb := .space pkt s.current }
  | .space pkt seen, .cb =>
    if streamBufferLen - s.sb.length < pkt.length then some { s with cb := .idle }
    else some { s with cb := .write pkt seen }
  | .write pkt seen, .cb =>
    -- xStreamBufferSend without a timeout writes what fits
    some { s with
      sb := s.sb ++ (cells pkt seen).take (streamBufferLen - s.sb.length)
      queued := s.queued ++ [(cells pkt seen).take (streamBufferLen - s.sb.length)]
      cb := .idle }
  | _, _ => none

def step (s : State) (l : Label) : Option State :=
  match l with
  | .tx | .txRecv _ | .txSend _ => txTask s l
  | .cbCall _ | .cb => bridgeOnControllerPacket s l
  | _ => rxTask s l

abbrev IsInit (s : State) : Prop := s = init

abbrev Reachable : State → Prop := Runs.Reachable step IsInit

end HciBridge.Bridge
