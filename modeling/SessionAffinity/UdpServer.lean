import SessionAffinity.Engine.Runs

/-!
# The UDP server

The packet loop of `runUDPServer` in `main1.cpp`: one datagram after another is made into a
payload and a five-tuple, obeyed if it is one of the two commands, and otherwise handed to the
primary balancer, to the standby, or to none.

The loop itself reads the clock at most once for a packet: for the heartbeat when the primary
is active, and to see whether the standby should take over when neither is. `Packet.now` is
that reading, and `Packet.readings` are those of the request. Reception errors are skipped by
the loop and are not packets. `Turn` lists what the loop can do with a packet.
-/

namespace SessionAffinity

open ByteString (decimal)

/-- The tunables of `config.h` that the server loop reads beside the engine's. -/
structure ServerConfig extends Config where
  lbPrimaryPort : UInt16
  lbFailoverThresholdMs : ℤ

/-- The values `config.h` ships with. -/
def ServerConfig.default : ServerConfig where
  toConfig := .default
  lbPrimaryPort := 9000
  lbFailoverThresholdMs := 3000

/-- The small deployment of two backends behind the server, for concrete runs. -/
def ServerConfig.pair : ServerConfig := { ServerConfig.default with toConfig := .pair }

/-- A datagram as the loop receives it, with the clock readings made for it. -/
structure Packet where
  data : ByteString
  /-- The octets of the source address. -/
  srcAddr : UInt8 × UInt8 × UInt8 × UInt8
  srcPort : UInt16
  now : TimePoint
  readings : Readings

/-- A packet of a client, for concrete runs. -/
def Packet.at (now : TimePoint) (data : ByteString) : Packet :=
  ⟨data, (10, 0, 0, 1), 4000, now, .at ⟨now, []⟩⟩

/-- The commands a packet can carry. -/
inductive Command
  | killPrimary
  | revivePrimary
  deriving DecidableEq

namespace Packet

/-- `std::string(buffer)`: the buffer takes 4095 bytes, and the string ends at the first zero
byte. -/
def payload (p : Packet) : ByteString := (p.data.take 4095).takeWhile (· ≠ 0)

/-- `inet_ntoa` of the source address. -/
def srcIp (p : Packet) : ByteString :=
  decimal p.srcAddr.1.toNat ++ bytes "." ++ decimal p.srcAddr.2.1.toNat ++ bytes "." ++
    decimal p.srcAddr.2.2.1.toNat ++ bytes "." ++ decimal p.srcAddr.2.2.2.toNat

/-- The five-tuple of a packet. -/
def tuple (cfg : ServerConfig) (p : Packet) : FiveTuple where
  srcIp := p.srcIp
  srcPort := p.srcPort
  dstIp := bytes "0.0.0.0"
  dstPort := cfg.lbPrimaryPort
  protocol := bytes "UDP"

/-- The command in a packet; a packet without one is a normal one. -/
def command? (p : Packet) : Option Command :=
  if p.payload = bytes "CMD:KILL_PRIMARY" then some .killPrimary
  else if p.payload = bytes "CMD:REVIVE_PRIMARY" then some .revivePrimary
  else none

end Packet

/-- The loop's state: the balancers with all they share, and the last primary heartbeat. -/
structure UdpServer (hashKey : ByteString → UInt64) where
  engine : Engine hashKey
  lastPrimaryHeartbeat : TimePoint

namespace UdpServer

variable {hashKey : ByteString → UInt64}

/-- What is sent back. -/
inductive Answer
  | acknowledged (command : Command)
  | handled (role : LBRole) (response : Response)
  | noActive
  deriving DecidableEq

/-- The text that is sent back. -/
def Answer.text (cfg : ServerConfig) : Answer → ByteString
  | acknowledged .killPrimary => bytes "CMD_ACK: Primary LB Killed."
  | acknowledged .revivePrimary => bytes "CMD_ACK: Primary LB Revived."
  | handled _ response => response.text cfg.toConfig
  | noActive => bytes "ERROR: No active Load Balancer available."

/-- The balancer that handled the packet, if one did. -/
def Answer.server? : Answer → Option LBRole
  | handled role _ => some role
  | _ => none

/-- The state in which the loop starts, at time `start`. -/
def init (hashKey : ByteString → UInt64) (cfg : ServerConfig) (start : TimePoint) :
    UdpServer hashKey :=
  ⟨.init hashKey cfg.toConfig, start⟩

/-- `shouldTakeover`: whole milliseconds since the heartbeat, against the threshold. -/
def shouldTakeover (cfg : ServerConfig) (now primaryLastHb : TimePoint) : Bool :=
  decide ((now - primaryLastHb).tdiv 1000000 > cfg.lbFailoverThresholdMs)

/-- Hand a packet to a balancer. -/
def handle (cfg : ServerConfig) (s : UdpServer hashKey) (role : LBRole) (p : Packet) :
    UdpServer hashKey × Answer :=
  let r := s.engine.handleRequest cfg.toConfig role p.readings (p.tuple cfg) p.payload
  ({ s with engine := r.1 }, .handled role r.2)

/-- One round of the loop. -/
def receive (cfg : ServerConfig) (s : UdpServer hashKey) (p : Packet) :
    UdpServer hashKey × Answer :=
  match p.command? with
  | some .killPrimary =>
    ({ s with engine := s.engine.setActive .primary false }, .acknowledged .killPrimary)
  | some .revivePrimary =>
    ({ s with engine := s.engine.setActive .primary true }, .acknowledged .revivePrimary)
  | none =>
    if s.engine.isActive .primary then
      let s := { s with lastPrimaryHeartbeat := p.now }
      -- failback: the primary has recovered, and the standby yields
      let s := if s.engine.isActive .standby then
          { s with engine := s.engine.setActive .standby false }
        else s
      s.handle cfg .primary p
    else
      let s := if !s.engine.isActive .standby && shouldTakeover cfg p.now s.lastPrimaryHeartbeat
        then { s with engine := s.engine.setActive .standby true }
        else s
      if s.engine.isActive .standby then s.handle cfg .standby p
      else (s, .noActive)

/-- The server loop as a machine. -/
def machine (hashKey : ByteString → UInt64) (cfg : ServerConfig) :
    Machine (UdpServer hashKey) Packet Answer := ⟨receive cfg⟩

/-! ### What a packet does -/

/-- The primary is active. -/
def primaryActive (s : UdpServer hashKey) : Bool := s.engine.isActive .primary

/-- The standby is active. -/
def standbyActive (s : UdpServer hashKey) : Bool := s.engine.isActive .standby

/-- **A turn of the loop**: what a packet makes of the flags and the heartbeat, and which
balancer handles it. -/
inductive Turn (cfg : ServerConfig) (s : UdpServer hashKey) (p : Packet) :
    UdpServer hashKey × Answer → Prop
  | kill {s' : UdpServer hashKey} (hc : p.command? = some .killPrimary)
      (hp : s'.primaryActive = false) (hs : s'.standbyActive = s.standbyActive)
      (hb : s'.lastPrimaryHeartbeat = s.lastPrimaryHeartbeat) :
      Turn cfg s p (s', .acknowledged .killPrimary)
  | revive {s' : UdpServer hashKey} (hc : p.command? = some .revivePrimary)
      (hp : s'.primaryActive = true) (hs : s'.standbyActive = s.standbyActive)
      (hb : s'.lastPrimaryHeartbeat = s.lastPrimaryHeartbeat) :
      Turn cfg s p (s', .acknowledged .revivePrimary)
  /-- An active primary handles the packet, and the standby yields. -/
  | primary {s' : UdpServer hashKey} {response : Response} (hc : p.command? = none)
      (hup : s.primaryActive = true) (hp : s'.primaryActive = true)
      (hs : s'.standbyActive = false) (hb : s'.lastPrimaryHeartbeat = p.now)
      (hr : ∀ role, response ≠ .notActive role) :
      Turn cfg s p (s', .handled .primary response)
  /-- The standby handles the packet, which may be when it takes over. -/
  | standby {s' : UdpServer hashKey} {response : Response} (hc : p.command? = none)
      (hup : s.primaryActive = false)
      (htake : s.standbyActive = true ∨ shouldTakeover cfg p.now s.lastPrimaryHeartbeat = true)
      (hp : s'.primaryActive = false) (hs : s'.standbyActive = true)
      (hb : s'.lastPrimaryHeartbeat = s.lastPrimaryHeartbeat)
      (hr : ∀ role, response ≠ .notActive role) :
      Turn cfg s p (s', .handled .standby response)
  /-- Neither is active, and it is too early for the standby. -/
  | refused (hc : p.command? = none) (hup : s.primaryActive = false)
      (hs : s.standbyActive = false)
      (htake : shouldTakeover cfg p.now s.lastPrimaryHeartbeat = false) :
      Turn cfg s p (s, .noActive)

variable (cfg : ServerConfig) (s : UdpServer hashKey) (p : Packet)

/-- Handing a packet to an active balancer leaves flags and heartbeat alone. -/
theorem handle_of_isActive (role : LBRole) (h : s.engine.isActive role = true) :
    ∃ s' response, s.handle cfg role p = (s', .handled role response) ∧
      s'.primaryActive = s.primaryActive ∧ s'.standbyActive = s.standbyActive ∧
      s'.lastPrimaryHeartbeat = s.lastPrimaryHeartbeat ∧ ∀ role', response ≠ .notActive role' :=
  ⟨_, _, rfl, Engine.isActive_handleRequest .., Engine.isActive_handleRequest .., rfl,
    Engine.response_ne_notActive h⟩

variable {cfg s p} in
/-- An active primary handles the packet, and the standby yields. -/
theorem receive_of_primary (hc : p.command? = none) (hup : s.primaryActive = true) :
    receive cfg s p = handle cfg ⟨s.engine.setActive .standby false, p.now⟩ .primary p := by
  have hup' : s.engine.isActive .primary = true := hup
  rw [receive, hc]
  dsimp only
  rw [if_pos hup']
  cases hs : s.engine.isActive .standby with
  | true => rfl
  | false =>
    rw [Engine.setActive_eq_self hs]
    rfl

variable {cfg s p} in
/-- Without the primary, the standby handles the packet if it is active or takes over. -/
theorem receive_of_standby (hc : p.command? = none) (hup : s.primaryActive = false)
    (htake : s.standbyActive = true ∨ shouldTakeover cfg p.now s.lastPrimaryHeartbeat = true) :
    receive cfg s p =
      handle cfg { s with engine := s.engine.setActive .standby true } .standby p := by
  have hup' : s.engine.isActive .primary = false := hup
  rw [receive, hc]
  dsimp only
  rw [if_neg (by simp [hup'])]
  cases hs : s.engine.isActive .standby with
  | true => simp [hs, Engine.setActive_eq_self hs]
  | false =>
    have htake' : shouldTakeover cfg p.now s.lastPrimaryHeartbeat = true :=
      htake.resolve_left (by simp [standbyActive, hs])
    have hactive : (s.engine.setActive .standby true).isActive .standby = true := rfl
    simp [htake', hactive]

variable {cfg s p} in
/-- Nobody handles the packet as long as the standby does not take over. -/
theorem receive_of_none (hc : p.command? = none) (hup : s.primaryActive = false)
    (hs : s.standbyActive = false)
    (htake : shouldTakeover cfg p.now s.lastPrimaryHeartbeat = false) :
    receive cfg s p = (s, .noActive) := by
  have hup' : s.engine.isActive .primary = false := hup
  have hs' : s.engine.isActive .standby = false := hs
  rw [receive, hc]
  simp [hup', hs', htake]

/-- Every packet makes the loop take one of its turns. -/
theorem turn_receive : Turn cfg s p (receive cfg s p) := by
  cases hc : p.command? with
  | some command =>
    rw [receive, hc]
    cases command with
    | killPrimary => exact .kill hc rfl rfl rfl
    | revivePrimary => exact .revive hc rfl rfl rfl
  | none =>
    cases hup : s.primaryActive with
    | true =>
      obtain ⟨s', response, hr, hp, hsb, hb, hna⟩ :=
        handle_of_isActive cfg ⟨s.engine.setActive .standby false, p.now⟩ p .primary hup
      rw [receive_of_primary hc hup, hr]
      exact .primary hc hup (hp.trans hup) hsb hb hna
    | false =>
      by_cases htake : s.standbyActive = true ∨
          shouldTakeover cfg p.now s.lastPrimaryHeartbeat = true
      · obtain ⟨s', response, hr, hp, hsb, hb, hna⟩ :=
          handle_of_isActive cfg { s with engine := s.engine.setActive .standby true } p .standby
            rfl
        rw [receive_of_standby hc hup htake, hr]
        exact .standby hc hup htake (hp.trans hup) hsb hb hna
      · rw [not_or, Bool.not_eq_true, Bool.not_eq_true] at htake
        rw [receive_of_none hc hup htake.1 htake.2]
        exact .refused hc hup htake.1 htake.2

end UdpServer

end SessionAffinity
