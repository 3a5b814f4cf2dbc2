import SessionAffinity.UdpServer.Service

/-!
# What the server keeps

The loop of `runUDPServer` never calls `cleanupExpired` or `reset`, and neither limiter nor
security module drops a client by itself. So what they keep grows with the clients that the
server has seen, and `retained` says by how much: after any run, whatever has expired in between,

* the **session table** has an entry for each client that a backend has replied to,
* the **limiter** has a queue for each client whose requests were valid, served or not,
* the **security module** has a tracker for each subnet that a well-formed request came from,
  its payload and its tuple, even if it was refused as spoofed,

and for nobody else.
-/

namespace SessionAffinity

open Std (ExtTreeMap)

/-- A call leaves a queue for its client, whatever it decides. -/
theorem RateLimiter.mem_clientQueues_allowRequest (rl : RateLimiter) (clk : Clock)
    (clientKey key : ByteString) : key ∈ (rl.allowRequest clk clientKey).1.clientQueues ↔
      key ∈ rl.clientQueues ∨ key = clientKey := by
  rw [allowRequest]
  split_ifs <;>
    rw [ExtTreeMap.mem_insert, Std.compare_eq_iff_eq, or_comm, eq_comm (a := clientKey)]

/-- A spoof check leaves a tracker for the subnet, whatever it decides. -/
theorem Security.mem_subnetTrackers_checkSpoofing (cfg : Config) (sec : Security) (clk : Clock)
    (srcIp subnet : ByteString) : subnet ∈ (checkSpoofing cfg sec clk srcIp).1.subnetTrackers ↔
      subnet ∈ sec.subnetTrackers ∨ subnet = getSubnet srcIp := by
  rw [checkSpoofing, ExtTreeMap.mem_insert, Std.compare_eq_iff_eq, or_comm,
    eq_comm (a := getSubnet srcIp)]

/-- The limiter was asked before the response was given. -/
def Response.isRated : Response → Bool
  | notActive _ | securityFailed _ => false
  | _ => true

namespace Engine

variable {hashKey : ByteString → UInt64}

/-- Nobody has an entry who has no owner. -/
theorem Owned.not_mem {ring : ConsistentHashRing hashKey} {sm : SessionManager}
    (h : Owned ring sm) {key : ByteString} (hneg : ring.getServer key < 0) :
    key ∉ sm.sessions := by
  intro hmem
  obtain ⟨entry, he⟩ := Option.isSome_iff_exists.mp
    (ExtTreeMap.mem_iff_isSome_getElem?.mp hmem)
  exact absurd (h key entry he).2.2 (not_le.mpr hneg)

/-- In a settled engine, a request that is dispatched leaves an entry for its client if it is
served, and those of the others are as before. -/
theorem Settled.mem_sessions_dispatch {e : Engine hashKey} (h : e.Settled) (rd : Readings)
    (ft : FiveTuple) (key : ByteString) : key ∈ (e.dispatch rd ft).1.sessions.sessions ↔
      key ∈ e.sessions.sessions ∨ key = ft.toKey ∧ (e.dispatch rd ft).2.isSuccess = true := by
  have hrouted := e.sessions.routed_routeRequest e.ring rd.route ft (-1)
  have hother (hk : ft.toKey ≠ key) :
      key ∈ (e.sessions.routeRequest e.ring rd.route ft (-1)).1.sessions ↔
        key ∈ e.sessions.sessions := by
    rw [ExtTreeMap.mem_iff_isSome_getElem?, ExtTreeMap.mem_iff_isSome_getElem?,
      SessionManager.sessions_routeRequest_of_ne _ _ _ _ _ hk]
  obtain ⟨-, howned, -⟩ := h.dispatch rd ft
  by_cases hb : (e.sessions.routeRequest e.ring rd.route ft (-1)).2.1 = .sessionBlocked
  · obtain ⟨entry, he, hblocked⟩ := hrouted.exists_blocked hb
    exact absurd ((h.sessions _ _ he).1.symm.trans hblocked) (by simp)
  by_cases hdown : (e.sessions.routeRequest e.ring rd.route ft (-1)).2.1 = .serverDown
  · rw [dispatch_of_serverDown rfl hdown] at howned ⊢
    by_cases hk : ft.toKey = key
    · -- without an owner there is no entry, before or after
      have hneg := hrouted.getServer_neg hdown
      subst hk
      simp [Response.isSuccess, Owned.not_mem howned hneg, Owned.not_mem h.sessions hneg]
    · simp [Response.isSuccess, hother hk]
  · have hmem := hrouted.mem_activeServers h.sound hb hdown
    obtain ⟨b, -, hon, hdispatch⟩ :=
      dispatch_of_isOnline rfl hb hdown (h.inRange _ hmem) ((h.live _).mp hmem)
    have hsuccess : (e.dispatch rd ft).2.isSuccess = true := by
      rw [hdispatch, process_snd _ _ hon]
      rfl
    rw [hsuccess, hdispatch]
    by_cases hk : ft.toKey = key
    · obtain ⟨entry, he, -, -⟩ := hrouted.exists_entry hb hdown
      subst hk
      exact iff_of_true (ExtTreeMap.mem_iff_isSome_getElem?.mpr (Option.isSome_iff_exists.mpr
        ⟨entry, he⟩)) (.inr ⟨rfl, rfl⟩)
    · have hk' : key ≠ ft.toKey := fun h => hk h.symm
      rw [eq_self, and_true, or_iff_left hk']
      exact hother hk

/-- Payload and tuple of a request are well formed. -/
def WellFormed (cfg : Config) (ft : FiveTuple) (payload : ByteString) : Prop :=
  Security.validatePayloadSize payload cfg.maxPayloadSize = .ok () ∧
    Security.validateTuple ft = .ok ()

/-- **What a request leaves behind**, in `r`: an entry for its client if it was served, a queue if
it was rated, and a tracker for its subnet if it was well formed. Nobody else's is touched. -/
structure Keeps (cfg : Config) (e : Engine hashKey) (ft : FiveTuple) (payload : ByteString)
    (r : Engine hashKey × Response) : Prop where
  sessions (key : ByteString) : key ∈ r.1.sessions.sessions ↔
    key ∈ e.sessions.sessions ∨ key = ft.toKey ∧ r.2.isSuccess = true
  queues (key : ByteString) : key ∈ r.1.limiter.clientQueues ↔
    key ∈ e.limiter.clientQueues ∨ key = ft.toKey ∧ r.2.isRated = true
  trackers (subnet : ByteString) : subnet ∈ r.1.security.subnetTrackers ↔
    subnet ∈ e.security.subnetTrackers ∨
      subnet = Security.getSubnet ft.srcIp ∧ WellFormed cfg ft payload

theorem isRated_dispatch (e : Engine hashKey) (rd : Readings) (ft : FiveTuple) :
    (e.dispatch rd ft).2.isRated = true := by
  have h := dispatched_dispatch e rd ft
  generalize e.dispatch rd ft = r at h ⊢
  cases h with
  | blocked | serverDown => rfl
  | forwarded _ _ hf => cases hf <;> rfl

/-- A request through an active balancer of a settled engine. -/
theorem Settled.keeps {e : Engine hashKey} (h : e.Settled) (cfg : Config) {role : LBRole}
    (hactive : e.isActive role = true) (rd : Readings) (ft : FiveTuple) (payload : ByteString) :
    Keeps cfg e ft payload (e.handleRequest cfg role rd ft payload) := by
  rw [handleRequest_eq]
  have hpre := prechecked_precheck cfg e role rd ft payload
  generalize e.precheck cfg role rd ft payload = r at hpre
  cases hpre with
  | notActive hpassive => exact absurd (hpassive.symm.trans hactive) (by simp)
  | malformed _ hbad =>
    have hnot : ¬ WellFormed cfg ft payload := fun h =>
      hbad.elim (fun hp => hp h.1) fun ht => ht h.2
    constructor <;> intro k <;> simp [Response.isSuccess, Response.isRated, hnot]
  | @spoofed errorMessage _ hpayload htuple security hs =>
    have htrackers := Security.mem_subnetTrackers_checkSpoofing cfg e.security rd.validate ft.srcIp
    rw [hs] at htrackers
    constructor
    · intro k; simp [Response.isSuccess]
    · intro k; simp [Response.isRated]
    · intro subnet
      rw [and_iff_left ⟨hpayload, htuple⟩]
      exact htrackers subnet
  | @rateLimited _ hpayload htuple security limiter hs hl =>
    have htrackers := Security.mem_subnetTrackers_checkSpoofing cfg e.security rd.validate ft.srcIp
    have hqueues := e.limiter.mem_clientQueues_allowRequest rd.limit ft.toKey
    rw [hs] at htrackers
    rw [hl] at hqueues
    constructor
    · intro k; simp [Response.isSuccess]
    · intro key
      simpa [Response.isRated] using hqueues key
    · intro subnet
      rw [and_iff_left ⟨hpayload, htuple⟩]
      exact htrackers subnet
  | @admitted _ hpayload htuple security limiter hs hl =>
    have htrackers := Security.mem_subnetTrackers_checkSpoofing cfg e.security rd.validate ft.srcIp
    have hqueues := e.limiter.mem_clientQueues_allowRequest rd.limit ft.toKey
    rw [hs] at htrackers
    rw [hl] at hqueues
    have hsettled : Settled { e with security, limiter } :=
      ⟨h.live, h.sound, h.inRange, h.ids, h.sessions⟩
    obtain ⟨hlimiter, hsecurity, -, -⟩ := dispatch_frame { e with security, limiter } rd ft
    constructor
    · exact hsettled.mem_sessions_dispatch rd ft
    · intro key
      dsimp only
      rw [hlimiter, isRated_dispatch, eq_self, and_true]
      exact hqueues key
    · intro subnet
      dsimp only
      rw [hsecurity, and_iff_left ⟨hpayload, htuple⟩]
      exact htrackers subnet

end Engine

namespace UdpServer

variable {hashKey : ByteString → UInt64}

/-- The response in an answer. -/
def Answer.response? : Answer → Option Response
  | handled _ response => some response
  | _ => none

/-- A client was replied to by a backend. -/
def Answer.isServed (a : Answer) : Bool := a.response?.any Response.isSuccess

/-- The limiter was asked about a client. -/
def Answer.isRated (a : Answer) : Bool := a.response?.any Response.isRated

/-- What the server keeps is what the packets and answers so far have left behind. -/
structure Retains (cfg : ServerConfig) (trace : List (Packet × Answer)) (s : UdpServer hashKey) :
    Prop where
  sessions (key : ByteString) : key ∈ s.engine.sessions.sessions ↔
    ∃ c ∈ trace, key = (c.1.tuple cfg).toKey ∧ c.2.isServed = true
  queues (key : ByteString) : key ∈ s.engine.limiter.clientQueues ↔
    ∃ c ∈ trace, key = (c.1.tuple cfg).toKey ∧ c.2.isRated = true
  trackers (subnet : ByteString) : subnet ∈ s.engine.security.subnetTrackers ↔
    ∃ c ∈ trace, subnet = Security.getSubnet c.1.srcIp ∧ c.2.response?.isSome = true ∧
      Engine.WellFormed cfg.toConfig (c.1.tuple cfg) c.1.payload

section Retains

variable {cfg : ServerConfig} {trace : List (Packet × Answer)} {s : UdpServer hashKey}

/-- A packet that no balancer handles leaves nothing behind. -/
theorem Retains.quiet (h : Retains cfg trace s) {s' : UdpServer hashKey} {p : Packet} {a : Answer}
    (ha : a.response? = none) (hsessions : s'.engine.sessions = s.engine.sessions)
    (hlimiter : s'.engine.limiter = s.engine.limiter)
    (hsecurity : s'.engine.security = s.engine.security) :
    Retains cfg (trace ++ [(p, a)]) s' := by
  constructor
  · intro key
    simp [hsessions, h.sessions key, or_and_right, exists_or, Answer.isServed, ha]
  · intro key
    simp [hlimiter, h.queues key, or_and_right, exists_or, Answer.isRated, ha]
  · intro subnet
    simp [hsecurity, h.trackers subnet, or_and_right, exists_or, ha]

/-- A packet that a balancer handles leaves behind what its request does. -/
theorem Retains.handle (h : Retains cfg trace s) (hs : s.engine.Settled) {role : LBRole}
    (hactive : s.engine.isActive role = true) (p : Packet) :
    Retains cfg (trace ++ [(p, (s.handle cfg role p).2)]) (s.handle cfg role p).1 := by
  have hkeeps := hs.keeps cfg.toConfig hactive p.readings (p.tuple cfg) p.payload
  rw [UdpServer.handle]
  generalize s.engine.handleRequest cfg.toConfig role p.readings (p.tuple cfg) p.payload = r
    at hkeeps
  constructor
  · intro key
    simp [hkeeps.sessions key, h.sessions key, or_and_right, exists_or, Answer.isServed,
      Answer.response?]
  · intro key
    simp [hkeeps.queues key, h.queues key, or_and_right, exists_or, Answer.isRated,
      Answer.response?]
  · intro subnet
    have hsrc : (p.tuple cfg).srcIp = p.srcIp := rfl
    simp [hkeeps.trackers subnet, h.trackers subnet, or_and_right, exists_or, Answer.response?,
      hsrc]

/-- **One packet.** -/
theorem Retains.receive (h : Retains cfg trace s) {v : Service} (hv : Offers cfg s v)
    (p : Packet) : Retains cfg (trace ++ [(p, (UdpServer.receive cfg s p).2)])
      (UdpServer.receive cfg s p).1 := by
  have hset (role : LBRole) (active : Bool) :
      Retains cfg trace { s with engine := s.engine.setActive role active } := by
    cases role <;> exact ⟨h.sessions, h.queues, h.trackers⟩
  cases hc : p.command? with
  | some command =>
    rw [UdpServer.receive, hc]
    cases command <;> exact h.quiet rfl rfl rfl rfl
  | none =>
    cases hup : s.primaryActive with
    | true =>
      rw [receive_of_primary hc hup]
      have hready : Retains cfg trace ⟨s.engine.setActive .standby false, p.now⟩ :=
        ⟨h.sessions, h.queues, h.trackers⟩
      have hactive : (s.engine.setActive .standby false).isActive .primary = true := hup
      exact hready.handle (hv.setActive .standby false).settled hactive p
    | false =>
      by_cases htake : s.standbyActive = true ∨
          shouldTakeover cfg p.now s.lastPrimaryHeartbeat = true
      · rw [receive_of_standby hc hup htake]
        exact (hset .standby true).handle (hv.setActive .standby true).settled rfl p
      · rw [not_or, Bool.not_eq_true, Bool.not_eq_true] at htake
        rw [receive_of_none hc hup htake.1 htake.2]
        exact h.quiet rfl rfl rfl rfl

end Retains

/-- **Nothing is ever forgotten.** After any run of the server, the session table has entries for
the clients that were served and for no others, the limiter has queues for those whose requests
were valid, and the security module has trackers for the subnets of well-formed requests: no
matter how long ago that was. -/
theorem retained (hashKey : ByteString → UInt64) (cfg : ServerConfig) (start : TimePoint)
    (ps : List Packet) :
    Retains cfg ((machine hashKey cfg).trace (init hashKey cfg start) ps)
      ((machine hashKey cfg).run (init hashKey cfg start) ps) := by
  suffices h : ∃ v, Offers cfg ((machine hashKey cfg).run (init hashKey cfg start) ps) v ∧
      Retains cfg ((machine hashKey cfg).trace (init hashKey cfg start) ps)
        ((machine hashKey cfg).run (init hashKey cfg start) ps) from h.choose_spec.2
  induction ps using List.reverseRecOn with
  | nil =>
    refine ⟨_, offers_init hashKey cfg start, ?_⟩
    constructor <;> intro k <;> simp [init, Engine.init, SessionManager.init, RateLimiter.init,
      Security.init]
  | append_singleton ps p ih =>
    obtain ⟨v, hoffers, hretains⟩ := ih
    rw [Machine.run_concat, Machine.trace_concat]
    exact ⟨_, (hoffers.receive p).2, hretains.receive hoffers p⟩

end UdpServer

end SessionAffinity
