import HciBridge.FixedWindow
import HciBridge.KeyProtocolAgrees

/-!
`discovery_task` of `firmware/main/glue.c`: announcements at an interval, and answers to probes at a limited
rate. Times are milliseconds since the boot; the task sees them through `glue_millis`.
-/

namespace HciBridge.DiscoveryTask

open Auth (Bytes Block ascii)
open KeyProtocol (Hashes CString)
open KeyProtocol.Firmware (Board announceDatagram)

def announceIntervalMs : UInt32 := 2000
def probeRepliesPerS : ℕ := 5
def replyWindowMs : UInt32 := 1000

/-- What the build and the chip fix. The name is one that the buffer of an announcement has room for. -/
structure Device where
  hashes : Hashes
  mac : Block 6
  port : UInt16
  name : CString
  name_ne : name.text ≠ []
  name_tab : 9 ∉ name.text
  name_le : name.text.length ≤ 148

def millis (t : ℕ) : UInt32 := t.toUInt32

/-- A round of the loop: when it begins, the address and the keys the board has then, what `recvfrom` gives
within its second, and when it has. -/
structure Round where
  before : ℕ
  ip : Block 4
  board : Board
  datagram : Option Bytes
  after : ℕ

structure Answer where
  started : ℕ
  time : ℕ
  bytes : Bytes
deriving DecidableEq, Repr

structure Task where
  lastAnnounce : UInt32
  replyWindow : UInt32
  replies : ℕ
  -- `none` for `alen == 0`
  announce : Option Bytes
  -- histories
  broadcasts : List (ℕ × Bytes)
  answers : List Answer

def boot (t : ℕ) : Task where
  lastAnnounce := millis t - announceIntervalMs
  replyWindow := 0
  replies := 0
  announce := none
  broadcasts := []
  answers := []

/-- `strncmp` over the first 13 bytes of a buffer of 63 -/
def isProbe (data : Bytes) : Bool := (data.take 63).take 13 = ascii "ESPHCI1\tPROBE"

def announceRound (d : Device) (s : Task) (r : Round) : Task :=
  if announceIntervalMs ≤ millis r.before - s.lastAnnounce then
    let announce := announceDatagram d.hashes r.board d.mac d.port.toNat d.name r.ip
    { s with
      lastAnnounce := millis r.before
      announce := announce
      broadcasts := s.broadcasts ++ announce.toList.map fun a => (r.before, a) }
  else s

def answerProbe (s : Task) (r : Round) (announce : Bytes) : Task :=
  let now := millis r.after
  let s := if replyWindowMs ≤ now - s.replyWindow then { s with replyWindow := now, replies := 0 } else s
  if s.replies < probeRepliesPerS then
    { s with replies := s.replies + 1, answers := s.answers ++ [⟨r.before, r.after, announce⟩] }
  else s

def round (d : Device) (s : Task) (r : Round) : Task :=
  let s := announceRound d s r
  match r.datagram, s.announce with
  | some data, some announce => if isProbe data then answerProbe s r announce else s
  | _, _ => s

def run (d : Device) (s : Task) (rs : List Round) : Task := rs.foldl (round d) s

/-- Rounds follow each other, after one that began at `p` and ended at `q`. None is as long as half the clock. -/
def Follows : ℕ → ℕ → List Round → Prop
  | _, _, [] => True
  | p, q, r :: rs => q ≤ r.before ∧ r.before < p + 2 ^ 31 ∧ r.before ≤ r.after ∧ Follows r.before r.after rs

structure History where
  start : ℕ
  rounds : List Round
  follows : Follows start start rounds

def History.task (d : Device) (h : History) : Task := run d (boot h.start) h.rounds

section Clock

theorem millis_sub {v t : ℕ} (h : v ≤ t) : (millis t - millis v).toNat = (t - v) % 2 ^ 32 := by
  have hv : v % 2 ^ 32 < 2 ^ 32 := Nat.mod_lt _ (by decide)
  have ht : t % 2 ^ 32 < 2 ^ 32 := Nat.mod_lt _ (by decide)
  rw [UInt32.toNat_sub, millis, millis, Nat.toUInt32_eq, Nat.toUInt32_eq, UInt32.toNat_ofNat', UInt32.toNat_ofNat']
  omega

def clock : FixedWindow.Clock UInt32 where
  reading := millis
  since a b := (a - b).toNat
  range := 2 ^ 32
  since_eq _ _ h := millis_sub h

end Clock

end HciBridge.DiscoveryTask
