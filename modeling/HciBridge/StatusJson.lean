import HciBridge.HostClaim
import HciBridge.KeyProtocolAgrees
import HciBridge.Quoted

/-!
The status that the board serves at `/` (`status_get` of `firmware/main/ota.c`, with
`bridge_stats_json` of `firmware/main/bridge.zig` inside it), read by `boardInfo` of `host/cli.zig`.
-/

namespace HciBridge.StatusJson

open Auth (Bytes Block HttpNonce ascii decimal hexlify bdaddrText)
open Text
open KeyProtocol (Firmware.Board Firmware.nonceHex httpNonce)
open HostClaim (jsonField jsonBool)

structure Stats where
  toController : UInt32
  toHost : UInt32
  connections : UInt32
  droppedNoHost : UInt32
  droppedOverflow : UInt32
  droppedStale : UInt32
  droppedControllerBusy : UInt32
deriving DecidableEq, Repr

/-- A C string of at most `n` characters without a double quote. -/
structure Label (n : ℕ) where
  text : Bytes
  length_le : text.length ≤ n
  noQuote : 34 ∉ text

structure Status where
  version : Label 31
  boardId : Label 48
  boardId_ne : boardId.text ≠ []
  idf : Label 31
  running : Option (Label 16)
  mac : Block 6
  auth : Firmware.Board
  -- microseconds since the boot
  time : Int64
  prevStage : UInt32
  reset : Int32
  freeHeap : UInt32
  stats : Stats
  connected : Bool

def boolText (b : Bool) : Bytes := if b then ascii "true" else ascii "false"

/-- `"%d"` and `"%lld"` -/
def signed (z : ℤ) : Bytes := if z < 0 then ascii "-" ++ decimal z.natAbs else decimal z.natAbs

def statsText (s : Stats) (connected : Bool) : Bytes :=
  ascii "\x7b\"to_controller\":" ++ decimal s.toController.toNat ++ ascii ",\"to_host\":" ++ decimal s.toHost.toNat ++
    ascii ",\"connections\":" ++ decimal s.connections.toNat ++ ascii ",\"connected\":" ++ boolText connected ++
    ascii ",\"drop_no_host\":" ++ decimal s.droppedNoHost.toNat ++
    ascii ",\"drop_overflow\":" ++ decimal s.droppedOverflow.toNat ++
    ascii ",\"drop_stale\":" ++ decimal s.droppedStale.toNat ++
    ascii ",\"drop_busy\":" ++ decimal s.droppedControllerBusy.toNat ++ ascii "\x7d"

/-- The C string left in `buf`: text that does not fit with its NUL is dropped as a whole. -/
def bridgeStatsJson (s : Stats) (connected : Bool) (len : ℕ) : Bytes :=
  if (statsText s connected).length < len then statsText s connected else []

/-- The format string of `status_get`, with the text of each argument. -/
def statusFormat (version board idf partition bdaddr claimed nonce uptime prevStage reset freeHeap stats : Bytes) :
    Bytes :=
  ascii "\x7b\"version\":\"" ++ version ++ ascii "\",\"board\":\"" ++ board ++ ascii "\",\"idf\":\"" ++ idf ++
    ascii "\",\"partition\":\"" ++ partition ++ ascii "\",\"bdaddr\":\"" ++ bdaddr ++
    ascii "\",\"claimed\":" ++ claimed ++ ascii ",\"nonce\":\"" ++ nonce ++ ascii "\",\"uptime_s\":" ++ uptime ++
    ascii ",\"prev_stage\":" ++ prevStage ++ ascii ",\"reset\":" ++ reset ++ ascii ",\"free_heap\":" ++ freeHeap ++
    ascii ",\"stats\":" ++ stats ++ ascii "\x7d\n"

def Status.partition (b : Status) : Bytes := b.running.elim (ascii "?") Label.text

def statusText (b : Status) : Bytes :=
  statusFormat b.version.text b.boardId.text b.idf.text b.partition (bdaddrText b.mac) (boolText b.auth.claimed)
    (Firmware.nonceHex b.auth 41) (signed (b.time.toInt.tdiv 1000000)) (decimal b.prevStage.toNat)
    (signed b.reset.toInt) (decimal b.freeHeap.toNat) (bridgeStatsJson b.stats b.connected 256)

def snprintf (cap : ℕ) (text : Bytes) : Bytes × ℕ := (text.take (cap - 1), text.length)

/-- The body that `httpd_resp_send` sends; `none` is a length that goes past what was written. -/
def statusGet (b : Status) : Option Bytes :=
  let (body, n) := snprintf 704 (statusText b)
  if n ≤ body.length then some (body.take n) else none

structure BoardInfo extends HostClaim.BoardInfo where
  version : Bytes
  boardText : Bytes
deriving DecidableEq, Repr

def BoardInfo.board (info : BoardInfo) : Option Bytes := if info.boardText = [] then none else some info.boardText

def boardInfo (body : Bytes) : Option BoardInfo := do
  let info ← HostClaim.boardInfo body
  return { info with
    version := (jsonField body (ascii "version") 32).getD []
    boardText := (jsonField body (ascii "board") 48).getD [] }

section Lengths

theorem counter_length_le (n : UInt32) : (decimal n.toNat).length ≤ 10 := by
  apply Discovery.decimal_length_le (by decide)
  have := n.toNat_lt
  omega

theorem signed_length_le {z : ℤ} {k : ℕ} (hk : 1 ≤ k) (h : z.natAbs < 10 ^ k) : (signed z).length ≤ k + 1 := by
  have hlen := Discovery.decimal_length_le hk h
  unfold signed
  split
  case isTrue =>
    have hsign : (ascii "-").length = 1 := rfl
    rw [List.length_append]
    omega
  case isFalse => omega

theorem boolText_length_le (b : Bool) : (boolText b).length ≤ 5 := by
  cases b <;> decide

theorem statsText_length_le (s : Stats) (connected : Bool) : (statsText s connected).length ≤ 192 := by
  have h₁ := counter_length_le s.toController
  have h₂ := counter_length_le s.toHost
  have h₃ := counter_length_le s.connections
  have h₄ := boolText_length_le connected
  have h₅ := counter_length_le s.droppedNoHost
  have h₆ := counter_length_le s.droppedOverflow
  have h₇ := counter_length_le s.droppedStale
  have h₈ := counter_length_le s.droppedControllerBusy
  simp only [statsText, ascii, String.reduceToList, List.length_append, List.length_map, List.length_cons,
    List.length_nil]
  omega

theorem bridgeStatsJson_eq (s : Stats) (connected : Bool) :
    bridgeStatsJson s connected 256 = statsText s connected := by
  have hlen := statsText_length_le s connected
  rw [bridgeStatsJson, if_pos (by omega)]

theorem statusFormat_length (version board idf partition bdaddr claimed nonce uptime prevStage reset freeHeap stats :
    Bytes) :
    (statusFormat version board idf partition bdaddr claimed nonce uptime prevStage reset freeHeap stats).length =
      141 + version.length + board.length + idf.length + partition.length + bdaddr.length + claimed.length +
        nonce.length + uptime.length + prevStage.length + reset.length + freeHeap.length + stats.length := by
  unfold statusFormat
  simp only [ascii, String.reduceToList, List.length_append, List.length_map, List.length_cons, List.length_nil]
  omega

theorem partition_length_le (b : Status) : b.partition.length ≤ 16 := by
  unfold Status.partition
  cases b.running with
  | none => decide
  | some label => exact label.length_le

theorem nonceHex_length (b : Firmware.Board) : (Firmware.nonceHex b 41).length = 40 := by
  rw [Firmware.nonceHex, if_neg (by decide), Auth.hexlify_length, KeyProtocol.httpNonceBytes_length]

theorem statusText_length_le (b : Status) : (statusText b).length ≤ 566 := by
  have hversion := b.version.length_le
  have hboard := b.boardId.length_le
  have hidf := b.idf.length_le
  have hpartition := partition_length_le b
  have hmac := KeyProtocol.Firmware.bdaddrText_length b.mac
  have hclaimed := boolText_length_le b.auth.claimed
  have hnonce := nonceHex_length b.auth
  have huptime : (signed (b.time.toInt.tdiv 1000000)).length ≤ 14 := by
    apply signed_length_le (by decide)
    have hlow := b.time.le_toInt
    have hhigh := b.time.toInt_lt
    have hdiv : (b.time.toInt.tdiv 1000000).natAbs = b.time.toInt.natAbs / 1000000 := Int.natAbs_tdiv _ _
    omega
  have hstage := counter_length_le b.prevStage
  have hreset : (signed b.reset.toInt).length ≤ 11 := by
    apply signed_length_le (by decide)
    have hlow := b.reset.le_toInt
    have hhigh := b.reset.toInt_lt
    omega
  have hheap := counter_length_le b.freeHeap
  have hstats := statsText_length_le b.stats b.connected
  rw [← bridgeStatsJson_eq] at hstats
  rw [statusText, statusFormat_length]
  omega

end Lengths

section Pieces

def number (value next : Bytes) : Bytes := 58 :: (value ++ next)

def statsPieces (s : Stats) (connected : Bool) (close : Bytes) : List (Bytes × Bytes) :=
  [(ascii "to_controller", number (decimal s.toController.toNat) [44]),
    (ascii "to_host", number (decimal s.toHost.toNat) [44]),
    (ascii "connections", number (decimal s.connections.toNat) [44]),
    (ascii "connected", number (boolText connected) [44]),
    (ascii "drop_no_host", number (decimal s.droppedNoHost.toNat) [44]),
    (ascii "drop_overflow", number (decimal s.droppedOverflow.toNat) [44]),
    (ascii "drop_stale", number (decimal s.droppedStale.toNat) [44]),
    (ascii "drop_busy", number (decimal s.droppedControllerBusy.toNat) close)]

def statusPieces (b : Status) : List (Bytes × Bytes) :=
  [(ascii "version", [58]), (b.version.text, [44]), (ascii "board", [58]), (b.boardId.text, [44]),
    (ascii "idf", [58]), (b.idf.text, [44]), (ascii "partition", [58]), (b.partition, [44]),
    (ascii "bdaddr", [58]), (bdaddrText b.mac, [44]), (ascii "claimed", number (boolText b.auth.claimed) [44]),
    (ascii "nonce", [58]), (Firmware.nonceHex b.auth 41, [44]),
    (ascii "uptime_s", number (signed (b.time.toInt.tdiv 1000000)) [44]),
    (ascii "prev_stage", number (decimal b.prevStage.toNat) [44]),
    (ascii "reset", number (signed b.reset.toInt) [44]),
    (ascii "free_heap", number (decimal b.freeHeap.toNat) [44]), (ascii "stats", number [123] [])] ++
    statsPieces b.stats b.connected (ascii "\x7d\x7d\n")

theorem statsText_eq (s : Stats) (connected : Bool) :
    statsText s connected ++ ascii "\x7d\n" = 123 :: quoted 34 (statsPieces s connected (ascii "\x7d\x7d\n")) := by
  unfold statsText
  simp [statsPieces, quoted, number, ascii]

theorem statusFormat_eq (version board idf partition bdaddr claimed nonce uptime prevStage reset freeHeap stats : Bytes)
    (ps : List (Bytes × Bytes)) (h : stats ++ ascii "\x7d\n" = 123 :: quoted 34 ps) :
    statusFormat version board idf partition bdaddr claimed nonce uptime prevStage reset freeHeap stats =
      123 :: quoted 34 ([(ascii "version", [58]), (version, [44]), (ascii "board", [58]), (board, [44]),
        (ascii "idf", [58]), (idf, [44]), (ascii "partition", [58]), (partition, [44]),
        (ascii "bdaddr", [58]), (bdaddr, [44]), (ascii "claimed", number claimed [44]),
        (ascii "nonce", [58]), (nonce, [44]), (ascii "uptime_s", number uptime [44]),
        (ascii "prev_stage", number prevStage [44]), (ascii "reset", number reset [44]),
        (ascii "free_heap", number freeHeap [44]), (ascii "stats", number [123] [])] ++ ps) := by
  unfold statusFormat
  simp only [List.append_assoc, h]
  simp [quoted, number, ascii]

theorem statusText_eq (b : Status) : statusText b = 123 :: quoted 34 (statusPieces b) := by
  rw [statusText, bridgeStatsJson_eq]
  exact statusFormat_eq _ _ _ _ _ _ _ _ _ _ _ _ _ (statsText_eq b.stats b.connected)

def Clean (p : Bytes × Bytes) : Prop := 34 ∉ p.1 ∧ 34 ∉ p.2 ∧ (p.2.head? = some 58 ∨ p.2.head? = some 44)

theorem Clean.ne {p : Bytes × Bytes} (h : Clean p) {key : Bytes} (hkey : 58 ∉ key ∧ 44 ∉ key) : p.2 ≠ key := by
  rintro rfl
  rcases h.2.2 with hp | hp
  · exact hkey.1 (List.mem_of_head? hp)
  · exact hkey.2 (List.mem_of_head? hp)

theorem clean_number {name value next : Bytes} (hname : 34 ∉ name) (hvalue : 34 ∉ value) (hnext : 34 ∉ next) :
    Clean (name, number value next) :=
  ⟨hname, by simp [number, hvalue, hnext], .inl rfl⟩

theorem clean_name {name : Bytes} (hname : 34 ∉ name) : Clean (name, [58]) := ⟨hname, by simp, .inl rfl⟩

theorem clean_value {value : Bytes} (hvalue : 34 ∉ value) : Clean (value, [44]) := ⟨hvalue, by simp, .inr rfl⟩

theorem notMem_signed (z : ℤ) : 34 ∉ signed z := by
  have hdecimal : 34 ∉ decimal z.natAbs := Discovery.notMem_decimal (.inl (by decide))
  unfold signed
  split
  case isTrue =>
    rw [List.mem_append, not_or]
    exact ⟨by decide, hdecimal⟩
  case isFalse => exact hdecimal

theorem notMem_boolText (b : Bool) : 34 ∉ boolText b := by
  cases b <;> decide

theorem clean_statsPieces (s : Stats) (connected : Bool) :
    ∀ p ∈ statsPieces s connected (ascii "\x7d\x7d\n"), Clean p := by
  have hcount {name next : Bytes} (n : UInt32) (hname : 34 ∉ name) (hnext : 34 ∉ next) :
      Clean (name, number (decimal n.toNat) next) :=
    clean_number hname (Discovery.notMem_decimal (.inl (by decide))) hnext
  simp only [statsPieces, List.forall_mem_cons]
  refine ⟨hcount _ ?_ ?_, hcount _ ?_ ?_, hcount _ ?_ ?_, clean_number ?_ (notMem_boolText _) ?_, hcount _ ?_ ?_,
    hcount _ ?_ ?_, hcount _ ?_ ?_, hcount _ ?_ ?_, nofun⟩
  all_goals decide

theorem notMem_partition (b : Status) : 34 ∉ b.partition := by
  unfold Status.partition
  cases b.running with
  | none => decide
  | some label => exact label.noQuote

theorem notMem_nonceHex (b : Firmware.Board) : 34 ∉ Firmware.nonceHex b 41 := by
  rw [Firmware.nonceHex, if_neg (by decide)]
  exact Auth.notMem_hexlify (by decide)

theorem notMem_mac (mac : Block 6) : 34 ∉ bdaddrText mac :=
  KeyProtocol.Firmware.notMem_bdaddrText (by decide) (by decide)

theorem clean_statusPieces (b : Status) : ∀ p ∈ statusPieces b, Clean p := by
  have hcount {name : Bytes} (n : UInt32) (hname : 34 ∉ name) : Clean (name, number (decimal n.toNat) [44]) :=
    clean_number hname (Discovery.notMem_decimal (.inl (by decide))) (by simp)
  simp only [statusPieces, List.forall_mem_append, List.forall_mem_cons]
  refine ⟨⟨clean_name ?_, clean_value b.version.noQuote, clean_name ?_, clean_value b.boardId.noQuote,
    clean_name ?_, clean_value b.idf.noQuote, clean_name ?_, clean_value (notMem_partition b), clean_name ?_,
    clean_value (notMem_mac b.mac), clean_number ?_ (notMem_boolText _) (by simp), clean_name ?_,
    clean_value (notMem_nonceHex b.auth), clean_number ?_ (notMem_signed _) (by simp), hcount _ ?_,
    clean_number ?_ (notMem_signed _) (by simp), hcount _ ?_, clean_number ?_ (by simp) (by simp), nofun⟩,
    clean_statsPieces b.stats b.connected⟩
  all_goals decide

end Pieces

section Reader

structure Key (key : Bytes) : Prop where
  chars : 34 ∉ key ∧ 58 ∉ key ∧ 44 ∉ key
  length_le : key.length ≤ 60

def Passes (key : Bytes) (pre : List (Bytes × Bytes)) : Prop :=
  ∀ p ∈ pre, Clean p ∧ (p.1 = key → p.2.head? = some 44)

variable {key v t w : Bytes} {pre rest : List (Bytes × Bytes)}

theorem after_passes (hkey : Key key) (hpre : Passes key pre) (ps : List (Bytes × Bytes)) :
    after (34 :: (key ++ 34 :: 58 :: t)) (quoted 34 (pre ++ ps)) =
      after (34 :: (key ++ 34 :: 58 :: t)) (quoted 34 ps) := by
  apply after_quoted_append hkey.chars.1
  · intro p hp
    have hclean := (hpre p hp).1
    exact ⟨hclean.1, hclean.2.1, hclean.ne hkey.chars.2⟩
  · intro p hp heq
    exact ⟨44, by simp [(hpre p hp).2 heq], by simp, by simp⟩

theorem after_body (hkey : Key key) (hpre : Passes key pre) (ps : List (Bytes × Bytes)) :
    after (34 :: (key ++ 34 :: 58 :: t)) (123 :: quoted 34 (pre ++ ps)) =
      after (34 :: (key ++ 34 :: 58 :: t)) (quoted 34 ps) := by
  rw [← after_passes hkey hpre]
  exact after_skip (a := [123]) (by simp)

theorem jsonField_pieces {cap : ℕ} (hkey : Key key) (hpre : Passes key pre) (hv : 34 ∉ v) (hcap : v.length ≤ cap) :
    jsonField (123 :: quoted 34 (pre ++ (key, [58]) :: (v, w) :: rest)) key cap = some v := by
  have hpat : ascii "\"" ++ key ++ ascii "\":\"" = 34 :: (key ++ 34 :: 58 :: [34]) := by simp [ascii]
  have hlen := hkey.length_le
  have hafter : after (34 :: (key ++ 34 :: 58 :: [34])) (123 :: quoted 34 (pre ++ (key, [58]) :: (v, w) :: rest)) =
      some (v ++ 34 :: (w ++ quoted 34 rest)) := by
    rw [after_body hkey hpre, after_quoted hkey.chars.1, if_pos]
    · simp [quoted]
    · exact ⟨rfl, by simp [quoted]⟩
    · exact ⟨hkey.chars.1, by simp, (clean_name hkey.chars.1).ne hkey.chars.2⟩
  have hfits : ¬64 < (34 :: (key ++ 34 :: 58 :: [34])).length := by
    simp only [List.length_cons, List.length_append, List.length_nil]
    omega
  simp only [jsonField, hpat]
  rw [if_neg hfits, hafter]
  simp [cut_append hv, hcap]

theorem after_boolText (b word : Bool) (hkey : Key key) (hpre : Passes key pre) (hrest : Passes key rest)
    (hw : 34 ∉ w) :
    (after (34 :: (key ++ 34 :: 58 :: boolText word))
      (123 :: quoted 34 (pre ++ (key, number (boolText b) w) :: rest))).isSome = decide (b = word) := by
  have hclean := clean_number hkey.chars.1 (notMem_boolText b) hw
  have hnone : after (34 :: (key ++ 34 :: 58 :: boolText word)) (quoted 34 rest) = none := by
    have h := after_passes (t := boolText word) hkey hrest []
    rw [List.append_nil] at h
    rw [h]
    simp [quoted, after]
  rw [after_body hkey hpre, after_quoted hkey.chars.1 ⟨hclean.1, hclean.2.1, hclean.ne hkey.chars.2⟩, hnone]
  cases b <;> cases word <;> simp [number, boolText, ascii]

theorem jsonBool_pieces {b : Bool} (hkey : Key key) (hlen : key.length ≤ 56) (hpre : Passes key pre)
    (hrest : Passes key rest) (hw : 34 ∉ w) :
    jsonBool (123 :: quoted 34 (pre ++ (key, number (boolText b) w) :: rest)) key = some b := by
  have hpat (word : Bool) : 34 :: (key ++ 34 :: 58 :: boolText word) =
      ascii "\"" ++ key ++ if word then ascii "\":true" else ascii "\":false" := by
    cases word <;> simp [ascii, boolText]
  have htrue := after_boolText b true hkey hpre hrest hw
  have hfalse := after_boolText b false hkey hpre hrest hw
  rw [hpat] at htrue hfalse
  have hyes : ¬64 < (ascii "\"" ++ key ++ ascii "\":true").length := by
    simp only [ascii, List.length_append, String.reduceToList, List.length_map, List.length_cons, List.length_nil]
    omega
  have hno : ¬64 < (ascii "\"" ++ key ++ ascii "\":false").length := by
    simp only [ascii, List.length_append, String.reduceToList, List.length_map, List.length_cons, List.length_nil]
    omega
  simp only [if_true, Bool.false_eq_true, if_false] at htrue hfalse
  simp only [jsonBool, if_neg hyes, if_neg hno, htrue, hfalse]
  cases b <;> rfl

end Reader

section Status

variable (b : Status)

theorem passes_take {key : Bytes} (n : ℕ) (h : ∀ p ∈ (statusPieces b).take n, p.1 = key → p.2.head? = some 44) :
    Passes key ((statusPieces b).take n) :=
  fun p hp => ⟨clean_statusPieces b p (List.mem_of_mem_take hp), h p hp⟩

theorem key_ascii {key : String} (h : 34 ∉ ascii key ∧ 58 ∉ ascii key ∧ 44 ∉ ascii key)
    (hlen : (ascii key).length ≤ 60) : Key (ascii key) := ⟨h, hlen⟩

theorem jsonField_version : jsonField (statusText b) (ascii "version") 32 = some b.version.text := by
  have hpre : Passes (ascii "version") ((statusPieces b).take 0) := by
    apply passes_take
    simp
  rw [statusText_eq]
  exact jsonField_pieces (key_ascii (by decide) (by decide)) hpre b.version.noQuote
    (b.version.length_le.trans (by decide))

theorem jsonField_board : jsonField (statusText b) (ascii "board") 48 = some b.boardId.text := by
  have hpre : Passes (ascii "board") ((statusPieces b).take 2) := by
    apply passes_take
    simp [statusPieces, ascii]
  rw [statusText_eq]
  exact jsonField_pieces (key_ascii (by decide) (by decide)) hpre b.boardId.noQuote b.boardId.length_le

theorem jsonField_bdaddr : jsonField (statusText b) (ascii "bdaddr") 48 = some (bdaddrText b.mac) := by
  have hpre : Passes (ascii "bdaddr") ((statusPieces b).take 8) := by
    apply passes_take
    simp [statusPieces, ascii]
  rw [statusText_eq]
  apply jsonField_pieces (key_ascii (by decide) (by decide)) hpre (notMem_mac b.mac)
  rw [KeyProtocol.Firmware.bdaddrText_length]
  decide

theorem jsonField_nonce : jsonField (statusText b) (ascii "nonce") 48 = some (Firmware.nonceHex b.auth 41) := by
  have hpre : Passes (ascii "nonce") ((statusPieces b).take 11) := by
    apply passes_take
    simp [statusPieces, ascii]
  rw [statusText_eq]
  apply jsonField_pieces (key_ascii (by decide) (by decide)) hpre (notMem_nonceHex b.auth)
  rw [nonceHex_length]
  decide

theorem jsonBool_claimed : jsonBool (statusText b) (ascii "claimed") = some b.auth.claimed := by
  have hpre : Passes (ascii "claimed") ((statusPieces b).take 10) := by
    apply passes_take
    simp [statusPieces, ascii]
  have hrest : Passes (ascii "claimed") ((statusPieces b).drop 11) := by
    intro p hp
    refine ⟨clean_statusPieces b p (List.mem_of_mem_drop hp), ?_⟩
    revert p
    simp [statusPieces, statsPieces, ascii]
  rw [statusText_eq]
  exact jsonBool_pieces (key_ascii (by decide) (by decide)) (by decide) hpre hrest (by simp)

theorem statusGet_eq : statusGet b = some (statusText b) := by
  have hlen := statusText_length_le b
  have htake : (statusText b).take (704 - 1) = statusText b := List.take_of_length_le (by omega)
  simp [statusGet, snprintf, htake]

theorem boardInfo_statusText : boardInfo (statusText b) =
    some ⟨⟨bdaddrText b.mac, some b.auth.claimed, some (httpNonce b.auth)⟩, b.version.text, b.boardId.text⟩ := by
  have hmac := KeyProtocol.Firmware.bdaddrText_length b.mac
  simp [boardInfo, HostClaim.boardInfo, jsonField_bdaddr, hmac, jsonBool_claimed, jsonField_nonce,
    KeyProtocol.hexToNonce_nonceHex, jsonField_version, jsonField_board]

theorem status_round_trip :
    ((statsText b.stats b.connected).length < 256 ∧
      bridgeStatsJson b.stats b.connected 256 = statsText b.stats b.connected) ∧
    ∃ body, statusGet b = some body ∧ body = statusText b ∧ body.length < 704 ∧
      ∃ info, boardInfo body = some info ∧ info.bdaddr = bdaddrText b.mac ∧ info.claimed = some b.auth.claimed ∧
        info.nonce = some (httpNonce b.auth) ∧ info.version = b.version.text ∧ info.board = some b.boardId.text := by
  have hstats := statsText_length_le b.stats b.connected
  have hlen := statusText_length_le b
  refine ⟨⟨by omega, bridgeStatsJson_eq _ _⟩, statusText b, statusGet_eq b, rfl, by omega, _, boardInfo_statusText b,
    rfl, rfl, rfl, rfl, ?_⟩
  simp [BoardInfo.board, b.boardId_ne]

end Status

end HciBridge.StatusJson
