import SessionAffinity.Engine.Accounting
import SessionAffinity.Foundations.Refinement
import SessionAffinity.UdpServer

/-!
# The service the server offers

The loop of `runUDPServer` never takes a backend off the ring and never blocks a session. What
it offers to its clients can therefore be said without a session table, without a ring that
changes and without the sweep: a client has one backend, the owner of its key, for as long as
the server runs, and the answers it gets from there are numbered. That is `Service`, a machine
of its own, and `service_refined` says that the loop answers every packet as the service does.

* **The loop runs the engine.** `calls` lists the calls on the engine that a packet makes, so
  that the engine behind the loop is one of `Engine.afterOps` (`drives_engine`).
* **Routing is settled.** In a `Settled` engine every session is with the owner of its key, and
  a request that is dispatched is served there, whether the session is new, sticky or expired
  (`Settled.dispatch`).

So the replies of a client over a whole run are `#1`, `#2`, … from one backend
(`replies_numbered`), whatever happens to the balancers in between.
-/

namespace SessionAffinity

open ByteString (decimal)

namespace Engine

variable {hashKey : ByteString → UInt64}

/-- The sessions are with the owners of their keys on a ring, and not blocked. -/
def Owned (ring : ConsistentHashRing hashKey) (sm : SessionManager) : Prop :=
  sm.Forall fun key entry =>
    entry.blocked = false ∧ entry.backendId = ring.getServer key ∧ 0 ≤ ring.getServer key

/-- All servers of the ring are backends that are online, and every session is with the owner of
its key. -/
structure Settled (e : Engine hashKey) : Prop where
  live : e.Live
  sound : e.ring.Sound
  inRange : ∀ s ∈ e.ring.activeServers, e.InRange s
  ids : ∀ s b, e.backend? s = some b → b.id = s
  sessions : Owned e.ring e.sessions

/-- Routing in a settled engine leads to the owner of the key, if there is one, whether the
session is new, sticky or expired. -/
theorem Settled.routed {e : Engine hashKey} (h : e.Settled) {clk : Clock} {ft : FiveTuple}
    {r : SessionManager × RequestStatus × ℤ}
    (hr : SessionManager.Routed e.sessions e.ring clk ft (-1) r) :
    Owned e.ring r.1 ∧
      (r.2 = (.serverDown, -1) ∧ e.ring.getServer ft.toKey < 0 ∨
        r.2 = (.success, e.ring.getServer ft.toKey) ∧ 0 ≤ e.ring.getServer ft.toKey) := by
  cases hr with
  | blocked he hb => exact absurd ((h.sessions _ _ he).1.symm.trans hb) (by simp)
  | sticky he =>
    obtain ⟨hb, hbackend, hs⟩ := h.sessions _ _ he
    exact ⟨h.sessions.put ⟨hb, hbackend, hs⟩, .inr ⟨by rw [hbackend], hs⟩⟩
  | failover he _ _ ha | stranded he _ _ ha =>
    obtain ⟨-, hbackend, hs⟩ := h.sessions _ _ he
    exact absurd (h.sound.getServer_mem hs) (hbackend ▸ ha)
  | created _ hs => exact ⟨h.sessions.put ⟨rfl, rfl, hs⟩, .inr ⟨rfl, hs⟩⟩
  | unplaced _ hs => exact ⟨h.sessions.drop _, .inl ⟨rfl, hs⟩⟩

/-- **Dispatching in a settled engine.** The owner of the key serves the request, if there is
one. -/
theorem Settled.dispatch {e : Engine hashKey} (h : e.Settled) (rd : Readings) (ft : FiveTuple) :
    (e.dispatch rd ft).1.ring = e.ring ∧ Owned e.ring (e.dispatch rd ft).1.sessions ∧
      if e.ring.getServer ft.toKey < 0 then
        (e.dispatch rd ft).2 = .noBackends ∧ (e.dispatch rd ft).1.backends = e.backends
      else
        (e.dispatch rd ft).2 = .served .success (e.ring.getServer ft.toKey)
          (.processed (e.ring.getServer ft.toKey)
            (e.requestCount (e.ring.getServer ft.toKey) ft.toKey + 1)) ∧
        CountedOnce e (e.dispatch rd ft).1 (e.ring.getServer ft.toKey) ft.toKey := by
  have hrouted := e.sessions.routed_routeRequest e.ring rd.route ft (-1)
  obtain ⟨howned, ⟨hdown, hs⟩ | ⟨hup, hs⟩⟩ := h.routed hrouted
  · rw [dispatch_of_serverDown rfl (by rw [hdown]), if_pos hs]
    exact ⟨rfl, howned, rfl, rfl⟩
  · have hmem := h.sound.getServer_mem hs
    have hroute : e.sessions.routeRequest e.ring rd.route ft (-1) = _ := rfl
    obtain ⟨b, hb, hon, hdispatch⟩ := dispatch_of_isOnline hroute (by rw [hup]; simp)
      (by rw [hup]; simp) (by rw [hup]; exact h.inRange _ hmem)
      (by rw [hup]; exact (h.live _).mp hmem)
    obtain ⟨entry, hentry, -, hid⟩ := hrouted.exists_entry (by rw [hup]; simp) (by rw [hup]; simp)
    rw [hup] at hb hid
    have hprocessed : ProcessedBy e (e.dispatch rd ft).1 rd ft (e.ring.getServer ft.toKey) b := by
      refine ⟨hb, hon, ?_, ?_, entry, ?_, hid⟩ <;> rw [hdispatch]
      · rw [hup]
        rfl
      · exact hmem
      · exact hentry
    rw [if_neg (not_lt.mpr hs)]
    refine ⟨by rw [hdispatch]; rfl, by rw [hdispatch]; exact howned, ?_, hprocessed.countedOnce⟩
    rw [hdispatch, process_snd _ _ hon, hup, h.ids _ _ hb, requestCount, hb]
    rfl

end Engine

namespace UdpServer

variable {hashKey : ByteString → UInt64}

/-! ### The loop runs the engine -/

/-- The calls on the engine that a packet makes. -/
def calls (cfg : ServerConfig) (s : UdpServer hashKey) (p : Packet) : List Engine.Op :=
  match p.command? with
  | some .killPrimary => [.setActive .primary false]
  | some .revivePrimary => [.setActive .primary true]
  | none =>
    if s.primaryActive then
      [.setActive .standby false, .request .primary p.readings (p.tuple cfg) p.payload]
    else if s.standbyActive || shouldTakeover cfg p.now s.lastPrimaryHeartbeat then
      [.setActive .standby true, .request .standby p.readings (p.tuple cfg) p.payload]
    else []

/-- **The engine behind the loop** moves by the listed calls. -/
theorem drives_engine (cfg : ServerConfig) : Machine.Drives (machine hashKey cfg)
    (Engine.machine hashKey cfg.toConfig) UdpServer.engine (calls cfg) := by
  intro s p
  show (receive cfg s p).1.engine = _
  rw [calls]
  cases hc : p.command? with
  | some command => cases command <;> rw [receive, hc] <;> rfl
  | none =>
    dsimp only
    cases hup : s.primaryActive with
    | true =>
      rw [receive_of_primary hc hup, if_pos rfl]
      rfl
    | false =>
      by_cases htake : (s.standbyActive || shouldTakeover cfg p.now s.lastPrimaryHeartbeat) = true
      · rw [receive_of_standby hc hup (Bool.or_eq_true _ _ ▸ htake), if_neg (by simp),
          if_pos htake]
        rfl
      · rw [Bool.or_eq_true, not_or, Bool.not_eq_true, Bool.not_eq_true] at htake
        rw [receive_of_none hc hup htake.1 htake.2, htake.1, htake.2]
        rfl

/-! ### The service -/

/-- What the server keeps for its clients, as far as they can see it. -/
structure Service where
  security : Security
  limiter : RateLimiter
  /-- The requests that have been served, by client. -/
  served : ByteString → ℕ
  primaryActive : Bool
  standbyActive : Bool
  lastPrimaryHeartbeat : TimePoint

namespace Service

variable (cfg : ServerConfig) (owner : ByteString → ℤ)

/-- The service at the start. -/
def init (start : TimePoint) : Service where
  security := .init
  limiter := .init cfg.rateLimitWindowSec cfg.rateLimitMaxRequests
  served _ := 0
  primaryActive := true
  standbyActive := false
  lastPrimaryHeartbeat := start

/-- The balancer on duty. -/
def onDuty? (v : Service) (now : TimePoint) : Option LBRole :=
  if v.primaryActive then some .primary
  else if v.standbyActive || shouldTakeover cfg now v.lastPrimaryHeartbeat then some .standby
  else none

/-- A request is validated, rated, and served by the owner of its key. -/
def serve (v : Service) (p : Packet) : Service × Response :=
  let key := (p.tuple cfg).toKey
  let validation := Security.fullValidation cfg.toConfig v.security p.readings.validate
    (p.tuple cfg) p.payload
  match validation.2 with
  | .error errorMessage =>
    ({ v with security := validation.1 }, .securityFailed errorMessage)
  | .ok () =>
    let limited := v.limiter.allowRequest p.readings.limit key
    let v := { v with security := validation.1, limiter := limited.1 }
    if !limited.2 then (v, .rateLimited key)
    else if owner key < 0 then (v, .noBackends)
    else ({ v with served := Function.update v.served key (v.served key + 1) },
      .served .success (owner key) (.processed (owner key) (v.served key + 1)))

/-- The answer to a packet. -/
def receive (v : Service) (p : Packet) : Service × Answer :=
  match p.command? with
  | some .killPrimary => ({ v with primaryActive := false }, .acknowledged .killPrimary)
  | some .revivePrimary => ({ v with primaryActive := true }, .acknowledged .revivePrimary)
  | none =>
    match v.onDuty? cfg p.now with
    | some .primary =>
      let r := serve cfg owner { v with standbyActive := false, lastPrimaryHeartbeat := p.now } p
      (r.1, .handled .primary r.2)
    | some .standby =>
      let r := serve cfg owner { v with standbyActive := true } p
      (r.1, .handled .standby r.2)
    | none => (v, .noActive)

/-- The service as a machine. -/
def machine : Machine Service Packet Answer := ⟨receive cfg owner⟩

end Service

/-! ### The loop offers the service -/

/-- The owner of a key on the ring that `main` builds. -/
def owner (hashKey : ByteString → UInt64) (cfg : ServerConfig) (key : ByteString) : ℤ :=
  (Engine.init hashKey cfg.toConfig).ring.getServer key

/-- The loop is in a state of the service: ring and backends are those of the start, the sessions
are with the owners of their keys, and the backends have counted what has been served. -/
structure Offers (cfg : ServerConfig) (s : UdpServer hashKey) (v : Service) : Prop where
  reached : ∃ ops : List Engine.Op, (∀ op ∈ ops, op.isManaged = true) ∧
    s.engine = Engine.afterOps hashKey cfg.toConfig ops
  ring : s.engine.ring = (Engine.init hashKey cfg.toConfig).ring
  sessions : Engine.Owned s.engine.ring s.engine.sessions
  served (key : ByteString) : s.engine.requestCount (owner hashKey cfg key) key = v.served key
  security : s.engine.security = v.security
  limiter : s.engine.limiter = v.limiter
  primaryActive : s.primaryActive = v.primaryActive
  standbyActive : s.standbyActive = v.standbyActive
  lastPrimaryHeartbeat : s.lastPrimaryHeartbeat = v.lastPrimaryHeartbeat

section Offers

variable {cfg : ServerConfig} {s : UdpServer hashKey} {v : Service}

theorem Offers.settled (h : Offers cfg s v) : s.engine.Settled := by
  obtain ⟨ops, hops, he⟩ := h.reached
  refine ⟨?_, ?_, ?_, ?_, h.sessions⟩ <;> rw [he]
  · exact Engine.live_afterOps hops
  · exact Engine.sound_afterOps ops
  · exact fun _ => Engine.inRange_of_active
  · exact fun _ _ => Engine.id_of_backend?

/-- One more call on the engine keeps it in reach. -/
theorem Offers.reached_next (h : Offers cfg s v) (op : Engine.Op) (hop : op.isManaged = true) :
    ∃ ops : List Engine.Op, (∀ op ∈ ops, op.isManaged = true) ∧
      (Engine.machine hashKey cfg.toConfig).next s.engine op =
        Engine.afterOps hashKey cfg.toConfig ops := by
  obtain ⟨ops, hops, he⟩ := h.reached
  refine ⟨ops ++ [op], fun o ho => ?_, by rw [Engine.afterOps_concat, he]⟩
  rcases List.mem_append.mp ho with ho | ho
  · exact hops o ho
  · exact List.mem_singleton.mp ho ▸ hop

/-- Changing a flag is seen by nobody else. -/
theorem Offers.setActive (h : Offers cfg s v) (role : LBRole) (active : Bool) :
    Offers cfg { s with engine := s.engine.setActive role active }
      (match role with
      | .primary => { v with primaryActive := active }
      | .standby => { v with standbyActive := active }) := by
  have hreached := h.reached_next (.setActive role active) rfl
  cases role with
  | primary => exact { h with reached := hreached, primaryActive := rfl }
  | standby => exact { h with reached := hreached, standbyActive := rfl }

/-- Handing the packet to a balancer, from what the engine makes of it. -/
theorem Offers.of_handleRequest (h : Offers cfg s v) {role : LBRole} {p : Packet}
    {r : Engine hashKey × Response} (v' : Service)
    (hr : s.engine.handleRequest cfg.toConfig role p.readings (p.tuple cfg) p.payload = r)
    (hserve : v.serve cfg (owner hashKey cfg) p = (v', r.2))
    (hoffers : (∃ ops : List Engine.Op, (∀ op ∈ ops, op.isManaged = true) ∧
      r.1 = Engine.afterOps hashKey cfg.toConfig ops) → Offers cfg { s with engine := r.1 } v') :
    Offers cfg (s.handle cfg role p).1 (v.serve cfg (owner hashKey cfg) p).1 ∧
      (s.handle cfg role p).2 = .handled role (v.serve cfg (owner hashKey cfg) p).2 := by
  have hreached := h.reached_next (.request role p.readings (p.tuple cfg) p.payload) rfl
  subst hr
  rw [hserve]
  exact ⟨hoffers hreached, rfl⟩

/-- **An active balancer gives the answer of the service.** -/
theorem Offers.handle (h : Offers cfg s v) (role : LBRole)
    (hactive : s.engine.isActive role = true) (p : Packet) :
    Offers cfg (s.handle cfg role p).1 (v.serve cfg (owner hashKey cfg) p).1 ∧
      (s.handle cfg role p).2 = .handled role (v.serve cfg (owner hashKey cfg) p).2 := by
  rcases hv : Security.fullValidation cfg.toConfig s.engine.security p.readings.validate
    (p.tuple cfg) p.payload with ⟨security, errorMessage | _⟩
  · refine h.of_handleRequest { v with security }
      (r := ({ s.engine with security }, .securityFailed errorMessage))
      (by simp [Engine.handleRequest, Engine.precheck, hactive, hv])
      (by simp [Service.serve, ← h.security, hv]) fun hreached => ?_
    exact { h with reached := hreached, security := rfl }
  rcases hl : s.engine.limiter.allowRequest p.readings.limit (p.tuple cfg).toKey with
    ⟨limiter, _ | _⟩
  · refine h.of_handleRequest { v with security, limiter }
      (r := ({ s.engine with security, limiter }, .rateLimited (p.tuple cfg).toKey))
      (by simp [Engine.handleRequest, Engine.precheck, hactive, hv, hl])
      (by simp [Service.serve, ← h.security, ← h.limiter, hv, hl]) fun hreached => ?_
    exact { h with reached := hreached, security := rfl, limiter := rfl }
  -- past admission, routing is settled
  have hsettled : Engine.Settled { s.engine with security, limiter } :=
    ⟨h.settled.live, h.settled.sound, h.settled.inRange, h.settled.ids, h.sessions⟩
  obtain ⟨hring, hsessions, hserved⟩ := hsettled.dispatch p.readings (p.tuple cfg)
  obtain ⟨hlimiter, hsecurity, hprimary, hstandby⟩ :=
    Engine.dispatch_frame { s.engine with security, limiter } p.readings (p.tuple cfg)
  have hreq : s.engine.handleRequest cfg.toConfig role p.readings (p.tuple cfg) p.payload =
      Engine.dispatch { s.engine with security, limiter } p.readings (p.tuple cfg) := by
    simp [Engine.handleRequest, Engine.precheck, hactive, hv, hl]
  have howner : s.engine.ring.getServer (p.tuple cfg).toKey =
      owner hashKey cfg (p.tuple cfg).toKey := by rw [h.ring]; rfl
  dsimp only at hring hsessions hserved
  rw [howner] at hserved
  split_ifs at hserved with hneg
  · refine h.of_handleRequest { v with security, limiter } hreq ?_ fun hreached => ?_
    · rw [hserved.1]
      simp [Service.serve, ← h.security, ← h.limiter, hv, hl, hneg]
    · refine ⟨hreached, hring.trans h.ring, hring ▸ hsessions, fun key => ?_, hsecurity, hlimiter,
        hprimary.trans h.primaryActive, hstandby.trans h.standbyActive, h.lastPrimaryHeartbeat⟩
      rw [← h.served key, Engine.requestCount, Engine.requestCount, Engine.backend?,
        Engine.backend?, hserved.2]
  · refine h.of_handleRequest { v with
        security, limiter
        served := Function.update v.served (p.tuple cfg).toKey
          (v.served (p.tuple cfg).toKey + 1) } hreq ?_ fun hreached => ?_
    · rw [hserved.1, ← h.served]
      simp [Service.serve, ← h.security, ← h.limiter, hv, hl, hneg, ← h.served]
      rfl
    · refine ⟨hreached, hring.trans h.ring, hring ▸ hsessions, fun key => ?_, hsecurity, hlimiter,
        hprimary.trans h.primaryActive, hstandby.trans h.standbyActive, h.lastPrimaryHeartbeat⟩
      rw [hserved.2.count]
      by_cases hkey : key = (p.tuple cfg).toKey
      · subst hkey
        simp [← h.served]
        rfl
      · simp [hkey, ← h.served]
        rfl

/-- **One packet.** The loop answers as the service does, and goes on offering it. -/
theorem Offers.receive (h : Offers cfg s v) (p : Packet) :
    (UdpServer.receive cfg s p).2 = (v.receive cfg (owner hashKey cfg) p).2 ∧
      Offers cfg (UdpServer.receive cfg s p).1 (v.receive cfg (owner hashKey cfg) p).1 := by
  rw [Service.receive]
  cases hc : p.command? with
  | some command =>
    rw [UdpServer.receive, hc]
    cases command with
    | killPrimary => exact ⟨rfl, h.setActive .primary false⟩
    | revivePrimary => exact ⟨rfl, h.setActive .primary true⟩
  | none =>
    have hduty : v.onDuty? cfg p.now = if s.primaryActive then some .primary
        else if s.standbyActive || shouldTakeover cfg p.now s.lastPrimaryHeartbeat then
          some .standby
        else none := by
      rw [h.primaryActive, h.standbyActive, h.lastPrimaryHeartbeat]
      rfl
    dsimp only
    cases hup : s.primaryActive with
    | true =>
      have hready : Offers cfg ⟨s.engine.setActive .standby false, p.now⟩
          { v with standbyActive := false, lastPrimaryHeartbeat := p.now } :=
        { h.setActive .standby false with lastPrimaryHeartbeat := rfl }
      obtain ⟨hnext, hanswer⟩ := hready.handle .primary hup p
      rw [receive_of_primary hc hup, hduty, hup]
      exact ⟨hanswer, hnext⟩
    | false =>
      by_cases htake : (s.standbyActive || shouldTakeover cfg p.now s.lastPrimaryHeartbeat) = true
      · obtain ⟨hnext, hanswer⟩ := (h.setActive .standby true).handle .standby rfl p
        rw [receive_of_standby hc hup (Bool.or_eq_true _ _ ▸ htake), hduty, hup, htake]
        exact ⟨hanswer, hnext⟩
      · rw [Bool.or_eq_true, not_or, Bool.not_eq_true, Bool.not_eq_true] at htake
        rw [receive_of_none hc hup htake.1 htake.2, hduty, hup, htake.1, htake.2]
        exact ⟨rfl, h⟩

end Offers

/-- At the start nothing has been served. -/
theorem offers_init (hashKey : ByteString → UInt64) (cfg : ServerConfig) (start : TimePoint) :
    Offers cfg (init hashKey cfg start) (Service.init cfg start) where
  reached := ⟨[], fun _ h => absurd h List.not_mem_nil, rfl⟩
  ring := rfl
  sessions := SessionManager.forall_init _
  served key := by
    rw [Engine.requestCount]
    cases hb : (init hashKey cfg start).engine.backend? (owner hashKey cfg key) with
    | none => rfl
    | some b =>
      rw [Engine.backend?] at hb
      split_ifs at hb
      obtain ⟨i, -, rfl⟩ := List.mem_map.mp (List.mem_of_getElem? hb)
      simp [RequestHandler.init, RequestHandler.requestCount, Service.init]
  security := rfl
  limiter := rfl
  primaryActive := rfl
  standbyActive := rfl
  lastPrimaryHeartbeat := rfl

/-- **The loop refines the service.** Whatever packets arrive, and whenever, the server loop
gives the answers of a service without session table, ring and backends: a request that passes
validation and the limiter is served by the owner of its key, and numbered. -/
theorem service_refined (hashKey : ByteString → UInt64) (cfg : ServerConfig) (start : TimePoint)
    (ps : List Packet) : (machine hashKey cfg).trace (init hashKey cfg start) ps =
      (Service.machine cfg (owner hashKey cfg)).trace (Service.init cfg start) ps :=
  Machine.trace_eq_of_lockstep (M := machine hashKey cfg)
    (N := Service.machine cfg (owner hashKey cfg)) (R := Offers cfg) (fun _ _ p h => h.receive p)
    (offers_init hashKey cfg start) ps

/-! ### What a client gets -/

/-- The reply of a backend in an answer. -/
def Answer.reply? : Answer → Option (RequestStatus × ℤ × Reply)
  | handled _ (.served status assigned reply) => some (status, assigned, reply)
  | _ => none

/-- The replies of backends that the client of a packet gets in a run. -/
def replies (p : Packet) (trace : List (Packet × Answer)) : List (RequestStatus × ℤ × Reply) :=
  trace.filterMap fun c =>
    if c.1.srcAddr = p.srcAddr ∧ c.1.srcPort = p.srcPort then c.2.reply? else none

/-- The address text tells the octets. -/
theorem srcIp_eq_iff {p q : Packet} : p.srcIp = q.srcIp ↔ p.srcAddr = q.srcAddr := by
  refine ⟨fun h => ?_, fun h => by rw [Packet.srcIp, Packet.srcIp, h]⟩
  have hdot : bytes "." = [46] := by decide
  have hnot (n : ℕ) : (46 : UInt8) ∉ decimal n := ByteString.not_mem_decimal (by decide) n
  simp only [Packet.srcIp, hdot, List.append_assoc, List.singleton_append] at h
  obtain ⟨ha, h⟩ := ByteString.append_cons_inj (hnot _) (hnot _) h
  obtain ⟨hb, h⟩ := ByteString.append_cons_inj (hnot _) (hnot _) h
  obtain ⟨hc, hd⟩ := ByteString.append_cons_inj (hnot _) (hnot _) h
  have hoctet {m n : UInt8} (h : decimal m.toNat = decimal n.toNat) : m = n :=
    UInt8.toNat_inj.mp (ByteString.decimal_injective h)
  exact Prod.ext (hoctet ha) (Prod.ext (hoctet hb) (Prod.ext (hoctet hc) (hoctet hd)))

/-- Clients have keys of their own. -/
theorem toKey_tuple_eq_iff {cfg : ServerConfig} {p q : Packet} :
    (p.tuple cfg).toKey = (q.tuple cfg).toKey ↔
      p.srcAddr = q.srcAddr ∧ p.srcPort = q.srcPort := by
  constructor
  · intro h
    have hcolon : bytes ":" = [58] := by decide
    have harrow : bytes "->" = [45, 62] := by decide
    have hip (p : Packet) : (58 : UInt8) ∉ p.srcIp := by
      have hdot : bytes "." = [46] := by decide
      simp [Packet.srcIp, hdot, ByteString.not_mem_decimal (b := 58) (by decide)]
    simp only [FiveTuple.toKey, Packet.tuple, hcolon, harrow, List.append_assoc,
      List.cons_append, List.nil_append] at h
    obtain ⟨hsrc, h⟩ := ByteString.append_cons_inj (hip p) (hip q) h
    obtain ⟨hport, -⟩ := ByteString.append_cons_inj
      (ByteString.not_mem_decimal (by decide) _) (ByteString.not_mem_decimal (by decide) _) h
    exact ⟨srcIp_eq_iff.mp hsrc, UInt16.toNat_inj.mp (ByteString.decimal_injective hport)⟩
  · rintro ⟨haddr, hport⟩
    rw [Packet.tuple, Packet.tuple, srcIp_eq_iff.mpr haddr, hport]

/-- **The service counts what it serves.** -/
theorem Service.served_receive (cfg : ServerConfig) (owner : ByteString → ℤ) (v : Service)
    (p : Packet) :
    ((v.receive cfg owner p).2.reply? = none ∧ (v.receive cfg owner p).1.served = v.served) ∨
    ((v.receive cfg owner p).2.reply? = some (.success, owner (p.tuple cfg).toKey,
        .processed (owner (p.tuple cfg).toKey) (v.served (p.tuple cfg).toKey + 1)) ∧
      (v.receive cfg owner p).1.served = Function.update v.served (p.tuple cfg).toKey
        (v.served (p.tuple cfg).toKey + 1)) := by
  have hserve (role : LBRole) (v : Service) :
      ((Answer.handled role (v.serve cfg owner p).2).reply? = none ∧
        (v.serve cfg owner p).1.served = v.served) ∨
      ((Answer.handled role (v.serve cfg owner p).2).reply? =
          some (.success, owner (p.tuple cfg).toKey, .processed (owner (p.tuple cfg).toKey)
            (v.served (p.tuple cfg).toKey + 1)) ∧
        (v.serve cfg owner p).1.served = Function.update v.served (p.tuple cfg).toKey
          (v.served (p.tuple cfg).toKey + 1)) := by
    rw [serve]
    dsimp only
    split
    · exact .inl ⟨rfl, rfl⟩
    · split_ifs
      · exact .inl ⟨rfl, rfl⟩
      · exact .inl ⟨rfl, rfl⟩
      · exact .inr ⟨rfl, rfl⟩
  rw [receive]
  split
  · exact .inl ⟨rfl, rfl⟩
  · exact .inl ⟨rfl, rfl⟩
  · split
    · exact hserve .primary _
    · exact hserve .standby _
    · exact .inl ⟨rfl, rfl⟩

/-- **Affinity for life.** Over a whole run of the server, the replies that a client gets are
`#1`, `#2`, … from one backend, and none of them is marked as reassigned: whatever happens to the
balancers, whoever else sends packets, and however long the client is silent in between. -/
theorem replies_numbered (hashKey : ByteString → UInt64) (cfg : ServerConfig) (start : TimePoint)
    (ps : List Packet) (p : Packet) : ∃ (b : ℤ) (n : ℕ),
    replies p ((machine hashKey cfg).trace (init hashKey cfg start) ps) =
      (List.range n).map fun i => (.success, b, .processed b (i + 1)) := by
  rw [service_refined]
  refine ⟨owner hashKey cfg (p.tuple cfg).toKey, ((Service.machine cfg (owner hashKey cfg)).run
    (Service.init cfg start) ps).served (p.tuple cfg).toKey, ?_⟩
  induction ps using List.reverseRecOn with
  | nil => rfl
  | append_singleton ps q ih =>
    rw [Machine.trace_concat, replies, List.filterMap_append, ← replies, ih, Machine.run_concat]
    generalize (Service.machine cfg (owner hashKey cfg)).run (Service.init cfg start) ps = v
    have hq := Service.served_receive cfg (owner hashKey cfg) v q
    show _ ++ List.filterMap _ [(q, (v.receive cfg (owner hashKey cfg) q).2)] =
      (List.range ((v.receive cfg (owner hashKey cfg) q).1.served _)).map _
    by_cases hclient : q.srcAddr = p.srcAddr ∧ q.srcPort = p.srcPort
    · rw [toKey_tuple_eq_iff.mpr hclient] at hq
      rcases hq with ⟨hreply, hserved⟩ | ⟨hreply, hserved⟩
      · simp [hclient, hreply, hserved]
      · simp [hclient, hreply, hserved, List.range_succ]
    · have hkey : (p.tuple cfg).toKey ≠ (q.tuple cfg).toKey := fun h =>
        hclient (toKey_tuple_eq_iff.mp h.symm)
      rcases hq with ⟨-, hserved⟩ | ⟨-, hserved⟩ <;> simp [hclient, hserved, hkey]

end UdpServer

end SessionAffinity
