import SessionAffinity.Foundations.Stoi

/-!
# Shared data of the engine

The tunables of `config.h`, the clock a call reads, and the types of `common.h`: the
five-tuple with its session key and its wire format, request statuses and path-history entries.

Times are integers counting nanoseconds of the steady clock. A call of a lock-protected
method reads its clocks once: `Clock` carries the steady reading together with the
wall-clock text that `currentTimestamp` renders, which the engine stores and never computes
with; `WallTime` is what it renders.
-/

namespace SessionAffinity

/-! ### Time and machine integers -/

/-- A reading of the steady clock, in nanoseconds. -/
abbrev TimePoint := ℤ

/-- `std::chrono::seconds`. -/
def seconds (n : ℤ) : ℤ := n * 1000000000

/-- The clocks a call reads: the steady clock and the text of `currentTimestamp`. -/
structure Clock where
  steady : TimePoint
  wall : ByteString
  deriving DecidableEq

/-- `static_cast<int>` of a 64-bit size: the low 32 bits, read as a signed number. -/
def toInt (n : ℕ) : ℤ :=
  if n % 2 ^ 32 < 2 ^ 31 then (n % 2 ^ 32 : ℕ) else (n % 2 ^ 32 : ℕ) - 2 ^ 32

theorem toInt_of_lt {n : ℕ} (h : n < 2 ^ 31) : toInt n = n := by
  rw [toInt]
  split_ifs <;> omega

theorem toInt_le (n : ℕ) : toInt n ≤ n := by
  rw [toInt]
  split_ifs <;> omega

/-- When `g` too many do not show. -/
theorem toInt_add_eq_iff {n g : ℕ} : toInt (n + g) = n ↔ n < 2 ^ 31 ∧ 2 ^ 32 ∣ g := by
  rw [toInt]
  split_ifs <;> omega

/-! ### Configuration -/

/-- The tunables of `config.h` that the modelled code reads. The number of backends is an
`int` macro. -/
structure Config where
  numBackendServers : ℕ
  sessionTimeoutSec : ℤ
  rateLimitWindowSec : ℤ
  rateLimitMaxRequests : ℤ
  maxPayloadSize : ℤ
  spoofDetectionThreshold : ℤ
  spoofDetectionWindowSec : ℤ
  consistentHashVnodes : ℤ
  numBackendServers_lt : numBackendServers < 2 ^ 31

/-- The values `config.h` ships with. -/
def Config.default : Config where
  numBackendServers := 8
  sessionTimeoutSec := 300
  rateLimitWindowSec := 60
  rateLimitMaxRequests := 100
  maxPayloadSize := 1024
  spoofDetectionThreshold := 50
  spoofDetectionWindowSec := 60
  consistentHashVnodes := 150
  numBackendServers_lt := by omega

/-- A deployment of two backends with one virtual node each, for concrete runs. -/
def Config.pair : Config :=
  { Config.default with
    numBackendServers := 2
    consistentHashVnodes := 1
    numBackendServers_lt := by omega }

open ByteString (decimal signedDecimal getlines stoi)

/-! ### Time stamps -/

/-- A wall-clock time: the fields that `localtime` gives, and the milliseconds. -/
structure WallTime where
  year : ℕ
  month : ℕ
  day : ℕ
  hour : ℕ
  minute : ℕ
  second : ℕ
  millis : ℤ

/-- A field of two digits, as `strftime` writes it. -/
def twoDigits (n : ℕ) : ByteString := if n < 10 then bytes "0" ++ decimal n else decimal n

/-- `currentTimestamp`, at a given time. The milliseconds are not padded. -/
def WallTime.currentTimestamp (w : WallTime) : ByteString :=
  decimal w.year ++ bytes "-" ++ twoDigits w.month ++ bytes "-" ++ twoDigits w.day ++ bytes " " ++
    twoDigits w.hour ++ bytes ":" ++ twoDigits w.minute ++ bytes ":" ++ twoDigits w.second ++
      bytes "." ++ signedDecimal w.millis

/-! ### Five-tuples -/

/-- A network five-tuple. -/
structure FiveTuple where
  srcIp : ByteString
  srcPort : UInt16
  dstIp : ByteString
  dstPort : UInt16
  protocol : ByteString
  deriving DecidableEq

/-- The session key: `src_ip:src_port->dst_ip:dst_port/protocol`. -/
def FiveTuple.toKey (ft : FiveTuple) : ByteString :=
  ft.srcIp ++ bytes ":" ++ decimal ft.srcPort.toNat ++ bytes "->" ++
    ft.dstIp ++ bytes ":" ++ decimal ft.dstPort.toNat ++ bytes "/" ++ ft.protocol

/-- The wire format: `src_ip|src_port|dst_ip|dst_port|protocol`. -/
def FiveTuple.serialize (ft : FiveTuple) : ByteString :=
  ft.srcIp ++ bytes "|" ++ decimal ft.srcPort.toNat ++ bytes "|" ++
    ft.dstIp ++ bytes "|" ++ decimal ft.dstPort.toNat ++ bytes "|" ++ ft.protocol

/-- `deserialize` of `data` into `out`, and whether it succeeds. The texts are written before the
ports are read, and stay written when these are rejected. -/
def FiveTuple.deserialize (data : ByteString) (out : FiveTuple) : FiveTuple × Bool :=
  match getlines 124 data with
  | srcIp :: srcPort :: dstIp :: dstPort :: protocol :: _ =>
    let out := { out with srcIp := srcIp, dstIp := dstIp, protocol := protocol }
    match stoi srcPort, stoi dstPort with
    | some sp, some dp =>
      if sp < 0 ∨ sp > 65535 ∨ dp < 0 ∨ dp > 65535 then (out, false)
      else ({ out with srcPort := UInt16.ofInt sp, dstPort := UInt16.ofInt dp }, true)
    -- `std::stoi` has thrown
    | _, _ => (out, false)
  | _ => (out, false)

/-- The tuple of a client, for concrete runs. -/
def clientTuple : FiveTuple where
  srcIp := bytes "10.0.0.1"
  srcPort := 4000
  dstIp := bytes "10.0.0.2"
  dstPort := 80
  protocol := bytes "TCP"

/-! ### Requests -/

/-- Status codes for request processing outcomes. -/
inductive RequestStatus
  | success
  | rateLimited
  | invalidInput
  | serverDown
  | sessionBlocked
  | reassigned
  | lbFailover
  | unknownError
  deriving DecidableEq

/-- `statusToString`. -/
def RequestStatus.statusToString : RequestStatus → ByteString
  | success => bytes "SUCCESS"
  | rateLimited => bytes "RATE_LIMITED"
  | invalidInput => bytes "INVALID_INPUT"
  | serverDown => bytes "SERVER_DOWN"
  | sessionBlocked => bytes "SESSION_BLOCKED"
  | reassigned => bytes "REASSIGNED"
  | lbFailover => bytes "LB_FAILOVER"
  | unknownError => bytes "UNKNOWN_ERROR"

/-- A single path assignment in a session's audit trail. -/
structure PathHistoryEntry where
  backendId : ℤ
  timestamp : ByteString
  reason : ByteString
  deriving DecidableEq

end SessionAffinity
