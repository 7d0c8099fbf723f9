import HciBridge.KeyProtocol
import HciBridge.Reload
import HciBridge.Runs
import HciBridge.Subnet

/-!
`host/manager.zig`: the discovery loop, the registry of boards and the thread of each board, which
runs `run` of `host/board.zig`.
-/

namespace HciBridge.Manager

open Text
open Auth (Bytes Block Psk)
open Config (Settings lookupPsk)
open Reload (Keys)
open Subnet (Cidr parseIp4)
open KeyProtocol (Hashes)

structure Options where
  discoveryPort : ℕ
  bind : Bytes
  subnet : Bytes
  allow : List Bytes
  deny : List Bytes
  pskEntries : List Bytes
  -- whether `reload_keys` is set
  reloads : Bool
  pinned : List Bytes

inductive StartError
  | badBindAddress | badSubnet
deriving DecidableEq, Repr

structure Env where
  opts : Options
  subnet : Option Cidr
  pinned : List (Block 4)

def subnetOf (opts : Options) : Except StartError (Option Cidr) :=
  if opts.subnet = [] then .ok none
  else
    match Cidr.parse opts.subnet with
    | none => .error .badSubnet
    | some cidr => .ok (some cidr)

/-- `resolveHost` is `none` for a name that does not resolve, or to no IPv4 address. -/
def startRun (resolveHost : Bytes → Option (Block 4)) (opts : Options) : Except StartError Env :=
  match parseIp4 opts.bind with
  | none => .error .badBindAddress
  | some _ => (subnetOf opts).map fun subnet => ⟨opts, subnet, opts.pinned.filterMap resolveHost⟩

def permits (opts : Options) (bdaddr : Bytes) : Bool :=
  if opts.deny.any fun d => eqlIgnoreCase d bdaddr then false
  else if opts.allow = [] then true
  else opts.allow.any fun a => eqlIgnoreCase a bdaddr

structure Heard where
  data : Bytes
  src : Block 4
  ann : Discovery.Announcement

inductive Thread
  | absent | connecting | connected | authed | published | pumping | ending | closing | backoff | released | gone
deriving DecidableEq, Repr

structure Stream where
  shut : Bool
  closed : Bool
deriving DecidableEq, Repr

/-- `BoardCtx` and its thread. The thread connects at most once, so `link` only says whether its
stream is set. -/
structure Board where
  ip : Block 4
  port : ℕ
  bdaddr : Bytes
  name : Bytes
  psk : Psk
  link : Bool
  stream : Option Stream
  thread : Thread
  -- the key of the handshake, and what became of the context so far
  authKey : Option Psk
  claimed : Bool
  released : Bool
  destroyed : ℕ
deriving DecidableEq, Repr

def Board.new (m : Heard) (psk : Psk) : Board :=
  ⟨m.src, m.ann.port, m.ann.bdaddr, m.ann.name, psk, false, none, .absent, none, false, false, 0⟩

def Board.kill (b : Board) : Board :=
  if b.link then { b with stream := b.stream.map fun st => { st with shut := true } } else b

def Board.destroy (b : Board) : Board := { b with destroyed := b.destroyed + 1 }

inductive Act
  | connect | connectFailed | tuneFailed | authenticate | authFailed | publish | openVhci | openFailed | pump | linkDown
  | unpublish | close | release | destroy
deriving DecidableEq, Repr

/-- `boardThread`: `run`, its deferred calls, the back-off, `release` and `destroy`. -/
def Board.act (b : Board) (a : Act) : Option Board :=
  match b.thread, a with
  | .connecting, .connect => some { b with thread := .connected, stream := some ⟨false, false⟩ }
  | .connecting, .connectFailed => some { b with thread := .backoff }
  | .connected, .tuneFailed => some { b with thread := .closing }
  | .connected, .authenticate => some { b with thread := .authed, authKey := some b.psk }
  | .connected, .authFailed => some { b with thread := .closing, authKey := some b.psk }
  | .authed, .publish => some { b with thread := .published, link := true }
  | .published, .openVhci => some { b with thread := .pumping }
  | .published, .openFailed => some { b with thread := .ending }
  | .pumping, .pump => some b
  | .pumping, .linkDown => some { b with thread := .ending }
  | .ending, .unpublish => some { b with thread := .closing, link := false }
  | .closing, .close =>
    some { b with thread := .backoff, stream := b.stream.map fun st => { st with closed := true } }
  | .backoff, .release => some { b with thread := .released, released := true }
  | .released, .destroy => some { b.destroy with thread := .gone }
  | _, _ => none

inductive Pc
  | receive
  | announced (m : Heard)
  -- in `revokeMissing`, holding the mutex
  | revoking (rest : List ℕ) (m : Heard)
  | keyed (m : Heard)
  | admitted (m : Heard) (psk : Psk)
  | claiming (id : ℕ) (m : Heard)
  | discarding (id : ℕ)
  | spawning (id : ℕ) (m : Heard)
  | unspawned (id : ℕ)

structure Started where
  id : ℕ
  data : Bytes
  src : Block 4
  entries : List Bytes

structure State where
  pc : Pc
  keys : Keys
  -- `Active.map`, and all contexts in the order of their allocation
  map : List (Bytes × ℕ)
  boards : List Board
  started : List Started
  revoked : List ℕ

inductive Created
  | ok | noContext | noBdaddr | noName
deriving DecidableEq, Repr

inductive Label
  | datagram (data : Bytes) (src : Option (Block 4))
  | refresh (result : Except Config.Error Settings) (now stamp : ℤ)
  | revoke
  | verify (result : Except Config.Error Settings) (now stamp : ℤ)
  | create (r : Created)
  | claim (putFails : Bool)
  | discard
  | spawn (fails : Bool)
  | giveUp
  | board (id : ℕ) (a : Act)

def start (opts : Options) : State := ⟨.receive, ⟨opts.pskEntries, none⟩, [], [], [], []⟩

def State.update (s : State) (id : ℕ) (f : Board → Board) : State :=
  { s with boards := s.boards.modify id f }

def State.locked (s : State) : Bool :=
  match s.pc with
  | .revoking .. => true
  | _ => false

def State.find (s : State) (bdaddr : Bytes) : Option ℕ :=
  (s.map.find? fun p => p.1 = bdaddr).map Prod.snd

def State.remove (s : State) (bdaddr : Bytes) : State :=
  { s with map := s.map.filter fun p => p.1 ≠ bdaddr }

@[simp] theorem update_pc (s : State) (id : ℕ) (f : Board → Board) : (s.update id f).pc = s.pc := rfl

@[simp] theorem remove_pc (s : State) (bdaddr : Bytes) : (s.remove bdaddr).pc = s.pc := rfl

section

variable (env : Env) (H : Hashes)

def onDatagram (s : State) (data : Bytes) (src : Option (Block 4)) : State :=
  match Discovery.parse data with
  | .ok (.announce ann) =>
    if ¬ permits env.opts ann.bdaddr then s
    else
      match src with
      | none => s
      | some ip => if ip ∈ env.pinned then s else { s with pc := .announced ⟨data, ip, ann⟩ }
  | _ => s

def reload (result : Except Config.Error Settings) : Option (Except Config.Error Settings) :=
  if env.opts.reloads then some result else none

def onRefresh (s : State) (m : Heard) (result : Except Config.Error Settings) (now stamp : ℤ) : State :=
  let (refreshed, keys) := s.keys.refresh (reload env result) now stamp
  { s with keys := keys, pc := if refreshed then .revoking (s.map.map Prod.snd) m else .keyed m }

def State.revokeOne (s : State) (id : ℕ) : State :=
  match s.boards[id]? with
  | none => s
  | some b =>
    if (lookupPsk s.keys.entries b.bdaddr).isSome then s
    else { s.update id Board.kill with revoked := id :: s.revoked }

def verifies (psk : Psk) (m : Heard) : Bool :=
  KeyProtocol.Zig.verifyAnnounce H psk m.ann.bdaddr m.ann.port m.ann.name m.src m.ann.sig

def State.admit (s : State) (m : Heard) (psk : Psk) : State :=
  if env.subnet.all fun cidr => cidr.contains m.src then { s with pc := .admitted m psk }
  else { s with pc := .receive }

def freshKey (s : State) (m : Heard) (result : Except Config.Error Settings) (now stamp : ℤ) : Option Psk :=
  let (refreshed, keys) := s.keys.refresh (reload env result) now stamp
  if refreshed then lookupPsk keys.entries m.ann.bdaddr else none

def onVerify (s : State) (m : Heard) (result : Except Config.Error Settings) (now stamp : ℤ) : State :=
  match lookupPsk s.keys.entries m.ann.bdaddr with
  | none => { s with pc := .receive }
  | some psk =>
    if verifies H psk m then s.admit env m psk
    else
      let again := { s with keys := (s.keys.refresh (reload env result) now stamp).2 }
      if (freshKey env s m result now stamp).any fun fresh => verifies H fresh m then again.admit env m psk
      else { again with pc := .receive }

def onCreate (s : State) (m : Heard) (psk : Psk) : Created → State
  | .ok => { s with boards := s.boards ++ [.new m psk], pc := .claiming s.boards.length m }
  | .noContext => { s with pc := .receive }
  | .noBdaddr | .noName => { s with boards := s.boards ++ [(Board.new m psk).destroy], pc := .receive }

def onClaim (s : State) (id : ℕ) (m : Heard) (ctx : Board) (putFails : Bool) : State :=
  match s.find ctx.bdaddr with
  | some old =>
    { s.update old (fun b => if b.ip ≠ ctx.ip then b.kill else b) with pc := .discarding id }
  | none =>
    if putFails then { s with pc := .discarding id }
    else
      { s.update id (fun b => { b with claimed := true }) with
        map := (ctx.bdaddr, id) :: s.map
        pc := .spawning id m }

def onSpawn (s : State) (id : ℕ) (m : Heard) (fails : Bool) : State :=
  if fails then { s with pc := .unspawned id }
  else
    { s.update id (fun b => { b with thread := .connecting }) with
      started := ⟨id, m.data, m.src, s.keys.entries⟩ :: s.started
      pc := .receive }

def onAct (s : State) (id : ℕ) (b b' : Board) (a : Act) : Option State :=
  if a = .release then
    if s.locked then none else some ((s.update id fun _ => b').remove b.bdaddr)
  else some (s.update id fun _ => b')

def step (s : State) : Label → Option State
  | .datagram data src =>
    match s.pc with
    | .receive => some (onDatagram env s data src)
    | _ => none
  | .refresh result now stamp =>
    match s.pc with
    | .announced m => some (onRefresh env s m result now stamp)
    | _ => none
  | .revoke =>
    match s.pc with
    | .revoking [] m => some { s with pc := .keyed m }
    | .revoking (id :: rest) m => some { s.revokeOne id with pc := .revoking rest m }
    | _ => none
  | .verify result now stamp =>
    match s.pc with
    | .keyed m => some (onVerify env H s m result now stamp)
    | _ => none
  | .create r =>
    match s.pc with
    | .admitted m psk => some (onCreate s m psk r)
    | _ => none
  | .claim putFails =>
    match s.pc with
    | .claiming id m => (s.boards[id]?).map fun ctx => onClaim s id m ctx putFails
    | _ => none
  | .discard =>
    match s.pc with
    | .discarding id => some { s.update id Board.destroy with pc := .receive }
    | _ => none
  | .spawn fails =>
    match s.pc with
    | .spawning id m => some (onSpawn s id m fails)
    | _ => none
  | .giveUp =>
    match s.pc with
    | .unspawned id =>
      (s.boards[id]?).map fun ctx =>
        { (s.update id fun b => { b with released := true }).remove ctx.bdaddr with pc := .discarding id }
    | _ => none
  | .board id a =>
    match s.boards[id]? with
    | none => none
    | some b => (b.act a).bind fun b' => onAct s id b b' a

def IsInit (s : State) : Prop := s = start env.opts

abbrev Reachable : State → Prop := Runs.Reachable (step env H) (IsInit env)

end

end HciBridge.Manager
