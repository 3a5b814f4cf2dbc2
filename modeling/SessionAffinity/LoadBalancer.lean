import SessionAffinity.RateLimiter
import SessionAffinity.RequestHandler
import SessionAffinity.Security
import SessionAffinity.SessionManager

/-!
# The load balancers

The request pipeline of `load_balancer.cpp`. Primary and standby share one session manager,
ring, limiter, security module and set of backends, so an `Engine` is that shared state with
the two active flags, and a request names the balancer it comes through.

`handleRequest` is split at its stages: `precheck` is everything that can refuse a request
before it is routed, `dispatch` routes it, and `forward` delivers it, with the failover for a
backend that turns out to be offline. A response is kept as data; `Response.text` is the
string the source returns.
-/

namespace SessionAffinity

open ByteString (signedDecimal)

/-- Whether a balancer is the primary or the standby. -/
inductive LBRole
  | primary
  | standby
  deriving DecidableEq

/-- The name of a role in messages. -/
def LBRole.name : LBRole → ByteString
  | primary => bytes "PRIMARY"
  | standby => bytes "STANDBY"

/-- The clocks of one request, in the order its stages read them: spoof check, rate limit,
routing, the sweep and the second routing of a failover, and the time stamp of the backend. -/
structure Readings where
  validate : Clock
  limit : Clock
  route : Clock
  redistribute : Clock
  reroute : Clock
  timestamp : ByteString

/-- The steady readings of a request. -/
def Readings.times (rd : Readings) : List TimePoint :=
  [rd.validate.steady, rd.limit.steady, rd.route.steady, rd.redistribute.steady,
    rd.reroute.steady]

/-- All readings of a request taken at one moment. -/
def Readings.at (clk : Clock) : Readings := ⟨clk, clk, clk, clk, clk, clk.wall⟩

/-- The answers of `handleRequest`. -/
inductive Response
  | notActive (role : LBRole)
  | securityFailed (errorMessage : ByteString)
  | rateLimited (key : ByteString)
  | blocked (key : ByteString)
  | noBackends
  | invalidBackend
  | noBackendsAfterFailover
  | failoverTargetUnavailable
  | served (status : RequestStatus) (assigned : ℤ) (reply : Reply)
  deriving DecidableEq

/-- The response string. -/
def Response.text (cfg : Config) : Response → ByteString
  | notActive role => bytes "ERROR: Load balancer [" ++ role.name ++ bytes "] is not active"
  | securityFailed errorMessage => bytes "ERROR: Security validation failed — " ++ errorMessage
  | rateLimited key =>
    bytes "ERROR: Rate limit exceeded for session " ++ key ++ bytes ". Max " ++
      signedDecimal cfg.rateLimitMaxRequests ++ bytes " requests per " ++
      signedDecimal cfg.rateLimitWindowSec ++ bytes "s window."
  | blocked key => bytes "ERROR: Session " ++ key ++ bytes " is blocked by administrator policy"
  | noBackends => bytes "ERROR: No backend servers available to handle request"
  | invalidBackend => bytes "ERROR: Internal routing error — invalid backend ID"
  | noBackendsAfterFailover => bytes "ERROR: No backend servers available after failover"
  | failoverTargetUnavailable => bytes "ERROR: Failover target also unavailable"
  | served status _ reply =>
    reply.text ++
      if status = .reassigned then bytes " [REASSIGNED — previous backend was down]" else []

/-- The state the balancers share, with their active flags. -/
structure Engine (hashKey : ByteString → UInt64) where
  ring : ConsistentHashRing hashKey
  limiter : RateLimiter
  security : Security
  sessions : SessionManager
  backends : List RequestHandler
  primaryActive : Bool
  standbyActive : Bool

namespace Engine

variable {hashKey : ByteString → UInt64}

/-- The engine that `main` builds: all backends online and on the ring, the primary active. -/
def init (hashKey : ByteString → UInt64) (cfg : Config) : Engine hashKey where
  ring := ((List.range cfg.numBackendServers).map Int.ofNat).foldl ConsistentHashRing.addServer
    (.init hashKey cfg.consistentHashVnodes)
  limiter := .init cfg.rateLimitWindowSec cfg.rateLimitMaxRequests
  security := .init
  sessions := .init cfg.sessionTimeoutSec
  backends := (List.range cfg.numBackendServers).map fun i : ℕ => .init i
  primaryActive := true
  standbyActive := false

/-- `isActive` of a balancer. -/
def isActive (e : Engine hashKey) : LBRole → Bool
  | .primary => e.primaryActive
  | .standby => e.standbyActive

/-- `activate` and `deactivate`. -/
def setActive (e : Engine hashKey) (role : LBRole) (active : Bool) : Engine hashKey :=
  match role with
  | .primary => { e with primaryActive := active }
  | .standby => { e with standbyActive := active }

/-- The range check on backend ids. -/
def InRange (e : Engine hashKey) (serverId : ℤ) : Prop :=
  0 ≤ serverId ∧ serverId < toInt e.backends.length

instance (e : Engine hashKey) (serverId : ℤ) : Decidable (e.InRange serverId) :=
  inferInstanceAs (Decidable (_ ∧ _))

/-- `backends_[serverId]`, where there is one. -/
def backend? (e : Engine hashKey) (serverId : ℤ) : Option RequestHandler :=
  if 0 ≤ serverId then e.backends[serverId.toNat]? else none

/-- `isOnline` of a backend. -/
def isOnline (e : Engine hashKey) (serverId : ℤ) : Bool :=
  match e.backend? serverId with
  | some b => b.online
  | none => false

/-- Change a backend in place. -/
def modifyBackend (e : Engine hashKey) (serverId : ℤ) (f : RequestHandler → RequestHandler) :
    Engine hashKey :=
  { e with backends := e.backends.modify serverId.toNat f }

/-- Removal from the ring, then the sweep over the sessions. -/
def evacuate (e : Engine hashKey) (clk : Clock) (serverId : ℤ) : Engine hashKey :=
  let ring := e.ring.removeServer serverId
  { e with ring := ring, sessions := e.sessions.handleServerDown ring clk serverId }

/-! ### The pipeline -/

/-- Steps 1 to 3: the active check, security validation and the rate limit. -/
def precheck (cfg : Config) (e : Engine hashKey) (role : LBRole) (rd : Readings) (ft : FiveTuple)
    (payload : ByteString) : Engine hashKey × Option Response :=
  if !e.isActive role then (e, some (.notActive role))
  else
    let validation := Security.fullValidation cfg e.security rd.validate ft payload
    match validation.2 with
    | .error errorMessage =>
      ({ e with security := validation.1 }, some (.securityFailed errorMessage))
    | .ok () =>
      let limited := e.limiter.allowRequest rd.limit ft.toKey
      ({ e with security := validation.1, limiter := limited.1 },
        if limited.2 then none else some (.rateLimited ft.toKey))

/-- Process the request on a backend, which is `b`. -/
def process (e : Engine hashKey) (rd : Readings) (ft : FiveTuple) (status : RequestStatus)
    (assigned : ℤ) (b : RequestHandler) : Engine hashKey × Response :=
  (e.modifyBackend assigned fun b => (b.processRequest rd.timestamp ft).1,
    .served status assigned (b.processRequest rd.timestamp ft).2)

/-- The failover of step 5: take the backend off the ring, sweep its sessions and route once
more. -/
def failover (e : Engine hashKey) (rd : Readings) (ft : FiveTuple) (assigned : ℤ) :
    Engine hashKey × RequestStatus × ℤ :=
  let e := e.evacuate rd.redistribute assigned
  let routed := e.sessions.routeRequest e.ring rd.reroute ft assigned
  ({ e with sessions := routed.1 }, routed.2)

/-- Step 5: forward to the assigned backend, after a failover if it is offline. -/
def forward (e : Engine hashKey) (rd : Readings) (ft : FiveTuple) (status : RequestStatus)
    (assigned : ℤ) : Engine hashKey × Response :=
  if ¬ e.InRange assigned then (e, .invalidBackend)
  else
    match e.backend? assigned with
    | none => (e, .invalidBackend)
    | some b =>
      if b.online then e.process rd ft status assigned b
      else
        let (e, status, assigned) := e.failover rd ft assigned
        if status = .serverDown ∨ assigned < 0 then (e, .noBackendsAfterFailover)
        else
          -- the source indexes the vector without the range check of the first attempt
          match e.backend? assigned with
          | none => (e, .failoverTargetUnavailable)
          | some b =>
            if b.online then e.process rd ft status assigned b
            else (e, .failoverTargetUnavailable)

/-- Steps 4 and 5: route the request and forward it. -/
def dispatch (e : Engine hashKey) (rd : Readings) (ft : FiveTuple) : Engine hashKey × Response :=
  let routed := e.sessions.routeRequest e.ring rd.route ft (-1)
  let e := { e with sessions := routed.1 }
  if routed.2.1 = .sessionBlocked then (e, .blocked ft.toKey)
  else if routed.2.1 = .serverDown then (e, .noBackends)
  else e.forward rd ft routed.2.1 routed.2.2

/-- `handleRequest`. -/
def handleRequest (cfg : Config) (e : Engine hashKey) (role : LBRole) (rd : Readings)
    (ft : FiveTuple) (payload : ByteString) : Engine hashKey × Response :=
  match e.precheck cfg role rd ft payload with
  | (e, some response) => (e, response)
  | (e, none) => e.dispatch rd ft

/-! ### Backend management -/

/-- `takeBackendOffline`. -/
def takeBackendOffline (e : Engine hashKey) (clk : Clock) (serverId : ℤ) : Engine hashKey :=
  if e.InRange serverId then
    (e.modifyBackend serverId RequestHandler.stop).evacuate clk serverId
  else e

/-- `bringBackendOnline`. -/
def bringBackendOnline (e : Engine hashKey) (serverId : ℤ) : Engine hashKey :=
  if e.InRange serverId then
    let e := e.modifyBackend serverId RequestHandler.start
    { e with ring := e.ring.addServer serverId }
  else e

/-! ### Backends -/

/-- The ids and online flags of the backends. -/
def flags (e : Engine hashKey) : List (ℤ × Bool) := e.backends.map fun b => (b.id, b.online)

section Backends

variable {e : Engine hashKey} {serverId : ℤ}

theorem isOnline_eq_true_iff :
    e.isOnline serverId = true ↔ ∃ b, e.backend? serverId = some b ∧ b.online = true := by
  rw [isOnline]
  cases e.backend? serverId <;> simp

/-- An id that passes the range check has a backend. -/
theorem InRange.exists_backend (h : e.InRange serverId) : ∃ b, e.backend? serverId = some b := by
  have hlt : serverId < e.backends.length := h.2.trans_le (toInt_le _)
  rw [backend?, if_pos h.1]
  exact ⟨_, List.getElem?_eq_getElem (by have := h.1; omega)⟩

theorem isOnline_of_neg (h : serverId < 0) : e.isOnline serverId = false := by
  rw [isOnline, backend?, if_neg (not_le.mpr h)]

variable (e serverId) in
/-- A backend that is online processes what it is given. -/
theorem process_snd {b : RequestHandler} (hon : b.online = true) (rd : Readings) (ft : FiveTuple)
    (status : RequestStatus) : (e.process rd ft status serverId b).2 =
      .served status serverId (.processed b.id (b.requestCount ft.toKey + 1)) := by
  rw [process, RequestHandler.processRequest_of_online rd.timestamp ft hon]

theorem isOnline_eq_flags : e.isOnline serverId =
    (decide (0 ≤ serverId) && ((e.flags[serverId.toNat]?).map Prod.snd).getD false) := by
  rw [isOnline, backend?, flags, List.getElem?_map]
  by_cases h : 0 ≤ serverId
  · simp only [h, if_true, decide_true, Bool.true_and]
    cases e.backends[serverId.toNat]? <;> rfl
  · simp [h]

/-- What a change in place does not affect is the same of all backends. -/
theorem map_modifyBackend {α : Type*} {g : RequestHandler → α}
    {f : RequestHandler → RequestHandler} (hf : ∀ b, g (f b) = g b) :
    (e.modifyBackend serverId f).backends.map g = e.backends.map g := by
  refine List.ext_getElem? fun i => ?_
  rw [modifyBackend, List.getElem?_map, List.getElem?_map, List.getElem?_modify]
  cases e.backends[i]? with
  | none => rfl
  | some b =>
    by_cases hi : serverId.toNat = i
    · simp [hi, hf b]
    · simp [hi]

theorem backend?_modifyBackend (h : 0 ≤ serverId) (f : RequestHandler → RequestHandler) (t : ℤ) :
    (e.modifyBackend serverId f).backend? t =
      if t = serverId then (e.backend? t).map f else e.backend? t := by
  rw [backend?, backend?, modifyBackend, List.getElem?_modify]
  by_cases ht : 0 ≤ t
  · by_cases hts : t = serverId
    · simp [hts, h]
    · have hne : serverId.toNat ≠ t.toNat := by omega
      simp [hts, ht, hne]
  · have hts : t ≠ serverId := by omega
    simp [ht, hts]

theorem isOnline_stop (hs : 0 ≤ serverId) {t : ℤ} :
    (e.modifyBackend serverId RequestHandler.stop).isOnline t = true ↔
      t ≠ serverId ∧ e.isOnline t = true := by
  rw [isOnline, isOnline, backend?_modifyBackend hs]
  by_cases ht : t = serverId
  · cases e.backend? t <;> simp [ht, RequestHandler.stop]
  · simp [ht]

theorem isOnline_start (hs : e.InRange serverId) {t : ℤ} :
    (e.modifyBackend serverId RequestHandler.start).isOnline t = true ↔
      t = serverId ∨ e.isOnline t = true := by
  rw [isOnline, isOnline, backend?_modifyBackend hs.1]
  by_cases ht : t = serverId
  · obtain ⟨b, hb⟩ := hs.exists_backend
    simp [ht, hb, RequestHandler.start]
  · simp [ht]

end Backends

/-- Setting a flag to what it is changes nothing. -/
theorem setActive_eq_self {e : Engine hashKey} {role : LBRole} {active : Bool}
    (h : e.isActive role = active) : e.setActive role active = e := by
  subst h
  cases role <;> rfl

/-! ### What admission does -/

/-- **The outcomes of steps 1 to 3.** -/
inductive Prechecked (cfg : Config) (e : Engine hashKey) (role : LBRole) (rd : Readings)
    (ft : FiveTuple) (payload : ByteString) : Engine hashKey × Option Response → Prop
  /-- The balancer is passive. -/
  | notActive (hactive : e.isActive role = false) :
      Prechecked cfg e role rd ft payload (e, some (.notActive role))
  /-- The payload or the tuple is invalid. -/
  | malformed {errorMessage : ByteString} (hactive : e.isActive role = true)
      (hbad : Security.validatePayloadSize payload cfg.maxPayloadSize ≠ .ok () ∨
        Security.validateTuple ft ≠ .ok ()) :
      Prechecked cfg e role rd ft payload (e, some (.securityFailed errorMessage))
  /-- Too many addresses of the source's subnet have been seen. -/
  | spoofed {errorMessage : ByteString} (hactive : e.isActive role = true)
      (hpayload : Security.validatePayloadSize payload cfg.maxPayloadSize = .ok ())
      (htuple : Security.validateTuple ft = .ok ()) {security : Security}
      (hs : Security.checkSpoofing cfg e.security rd.validate ft.srcIp =
        (security, .error errorMessage)) :
      Prechecked cfg e role rd ft payload
        ({ e with security }, some (.securityFailed errorMessage))
  /-- The client is over its quota. -/
  | rateLimited (hactive : e.isActive role = true)
      (hpayload : Security.validatePayloadSize payload cfg.maxPayloadSize = .ok ())
      (htuple : Security.validateTuple ft = .ok ()) {security : Security} {limiter : RateLimiter}
      (hs : Security.checkSpoofing cfg e.security rd.validate ft.srcIp = (security, .ok ()))
      (hl : e.limiter.allowRequest rd.limit ft.toKey = (limiter, false)) :
      Prechecked cfg e role rd ft payload
        ({ e with security, limiter }, some (.rateLimited ft.toKey))
  /-- The request is admitted. -/
  | admitted (hactive : e.isActive role = true)
      (hpayload : Security.validatePayloadSize payload cfg.maxPayloadSize = .ok ())
      (htuple : Security.validateTuple ft = .ok ()) {security : Security} {limiter : RateLimiter}
      (hs : Security.checkSpoofing cfg e.security rd.validate ft.srcIp = (security, .ok ()))
      (hl : e.limiter.allowRequest rd.limit ft.toKey = (limiter, true)) :
      Prechecked cfg e role rd ft payload ({ e with security, limiter }, none)

/-- Every admission has one of the outcomes. -/
theorem prechecked_precheck (cfg : Config) (e : Engine hashKey) (role : LBRole) (rd : Readings)
    (ft : FiveTuple) (payload : ByteString) :
    Prechecked cfg e role rd ft payload (e.precheck cfg role rd ft payload) := by
  rw [precheck]
  split_ifs with hpassive
  · exact .notActive (by simpa using hpassive)
  have hactive : e.isActive role = true := by simpa using hpassive
  rw [Security.fullValidation]
  cases hpayload : Security.validatePayloadSize payload cfg.maxPayloadSize with
  | error msg => exact .malformed hactive (.inl (by simp [hpayload]))
  | ok =>
    cases htuple : Security.validateTuple ft with
    | error msg => exact .malformed hactive (.inr (by simp [htuple]))
    | ok =>
      rcases hs : Security.checkSpoofing cfg e.security rd.validate ft.srcIp with ⟨security, _ | _⟩
      · exact .spoofed hactive hpayload htuple hs
      · rcases hl : e.limiter.allowRequest rd.limit ft.toKey with ⟨limiter, _ | _⟩
        · simpa [hl] using Prechecked.rateLimited hactive hpayload htuple hs hl
        · simpa [hl] using Prechecked.admitted hactive hpayload htuple hs hl

/-! ### What forwarding does -/

/-- **The outcomes of step 5.** -/
inductive Forwarded (e : Engine hashKey) (rd : Readings) (ft : FiveTuple) (status : RequestStatus)
    (assigned : ℤ) : Engine hashKey × Response → Prop
  /-- The id fails the range check. -/
  | invalid (hr : ¬ e.InRange assigned) : Forwarded e rd ft status assigned (e, .invalidBackend)
  /-- The backend is online and processes the request. -/
  | direct {b : RequestHandler} (hr : e.InRange assigned) (hb : e.backend? assigned = some b)
      (hon : b.online = true) :
      Forwarded e rd ft status assigned (e.process rd ft status assigned b)
  /-- The backend is offline and the second routing finds no other. -/
  | lost (hr : e.InRange assigned) (hoff : e.isOnline assigned = false)
      {e' : Engine hashKey} {status' : RequestStatus} {assigned' : ℤ}
      (hf : e.failover rd ft assigned = (e', status', assigned'))
      (hs : status' = .serverDown ∨ assigned' < 0) :
      Forwarded e rd ft status assigned (e', .noBackendsAfterFailover)
  /-- The backend is offline and so is the one the second routing finds. -/
  | unavailable (hr : e.InRange assigned) (hoff : e.isOnline assigned = false)
      {e' : Engine hashKey} {status' : RequestStatus} {assigned' : ℤ}
      (hf : e.failover rd ft assigned = (e', status', assigned'))
      (hs : ¬ (status' = .serverDown ∨ assigned' < 0)) (hoff' : e'.isOnline assigned' = false) :
      Forwarded e rd ft status assigned (e', .failoverTargetUnavailable)
  /-- The backend is offline and the one the second routing finds processes the request. -/
  | moved (hr : e.InRange assigned) (hoff : e.isOnline assigned = false)
      {e' : Engine hashKey} {status' : RequestStatus} {assigned' : ℤ} {b : RequestHandler}
      (hf : e.failover rd ft assigned = (e', status', assigned'))
      (hs : ¬ (status' = .serverDown ∨ assigned' < 0)) (hb : e'.backend? assigned' = some b)
      (hon : b.online = true) :
      Forwarded e rd ft status assigned (e'.process rd ft status' assigned' b)

/-- Every forwarding has one of the outcomes. -/
theorem forwarded_forward (e : Engine hashKey) (rd : Readings) (ft : FiveTuple)
    (status : RequestStatus) (assigned : ℤ) :
    Forwarded e rd ft status assigned (e.forward rd ft status assigned) := by
  by_cases hr : e.InRange assigned
  · obtain ⟨b, hb⟩ := hr.exists_backend
    rw [forward, if_neg (not_not.mpr hr)]
    simp only [hb]
    cases hon : b.online with
    | true => exact .direct hr hb hon
    | false =>
      have hoff : e.isOnline assigned = false := by rw [isOnline, hb]; exact hon
      rcases hf : e.failover rd ft assigned with ⟨e', status', assigned'⟩
      by_cases hs : status' = .serverDown ∨ assigned' < 0
      · simpa [hs] using Forwarded.lost hr hoff hf hs
      · cases hb' : e'.backend? assigned' with
        | none =>
          have hoff' : e'.isOnline assigned' = false := by rw [isOnline, hb']
          simpa [hs, hb'] using Forwarded.unavailable hr hoff hf hs hoff'
        | some b' =>
          cases hon' : b'.online with
          | true => simpa [hs, hb', hon'] using Forwarded.moved hr hoff hf hs hb' hon'
          | false =>
            have hoff' : e'.isOnline assigned' = false := by rw [isOnline, hb']; exact hon'
            simpa [hs, hb', hon'] using Forwarded.unavailable hr hoff hf hs hoff'
  · rw [forward, if_pos hr]
    exact .invalid hr

/-- A failover is a removal, a sweep and a routing. -/
theorem routed_failover {e e' : Engine hashKey} {rd : Readings} {ft : FiveTuple} {s s' : ℤ}
    {status' : RequestStatus} (hf : e.failover rd ft s = (e', status', s')) :
    e'.backends = e.backends ∧ e'.ring = e.ring.removeServer s ∧
      SessionManager.Routed (e.evacuate rd.redistribute s).sessions (e.ring.removeServer s)
        rd.reroute ft s (e'.sessions, status', s') := by
  have hr := (e.evacuate rd.redistribute s).sessions.routed_routeRequest (e.ring.removeServer s)
    rd.reroute ft s
  rw [failover] at hf
  obtain ⟨rfl, hrest⟩ := Prod.mk.inj hf
  refine ⟨rfl, rfl, ?_⟩
  rw [← hrest]
  exact hr

theorem isOnline_congr_backends {e e' : Engine hashKey} (h : e'.backends = e.backends) (s : ℤ) :
    e'.isOnline s = e.isOnline s := by
  rw [isOnline, isOnline, backend?, backend?, h]

/-! ### What dispatching does -/

/-- **The outcomes of steps 4 and 5.** -/
inductive Dispatched (e : Engine hashKey) (rd : Readings) (ft : FiveTuple)
    (routed : SessionManager × RequestStatus × ℤ) : Engine hashKey × Response → Prop
  /-- The session is blocked. -/
  | blocked (hb : routed.2.1 = .sessionBlocked) :
      Dispatched e rd ft routed ({ e with sessions := routed.1 }, .blocked ft.toKey)
  /-- The ring has no server. -/
  | serverDown (hd : routed.2.1 = .serverDown) :
      Dispatched e rd ft routed ({ e with sessions := routed.1 }, .noBackends)
  /-- The request is forwarded. -/
  | forwarded (hb : routed.2.1 ≠ .sessionBlocked) (hd : routed.2.1 ≠ .serverDown)
      {r : Engine hashKey × Response}
      (hf : Forwarded { e with sessions := routed.1 } rd ft routed.2.1 routed.2.2 r) :
      Dispatched e rd ft routed r

/-- Every request that is dispatched has one of the outcomes. -/
theorem dispatched_dispatch (e : Engine hashKey) (rd : Readings) (ft : FiveTuple) :
    Dispatched e rd ft (e.sessions.routeRequest e.ring rd.route ft (-1)) (e.dispatch rd ft) := by
  rw [dispatch]
  split_ifs with hb hd
  · exact .blocked hb
  · exact .serverDown hd
  · exact .forwarded hb hd (forwarded_forward _ rd ft _ _)

section Dispatch

variable {e : Engine hashKey} {rd : Readings} {ft : FiveTuple}
  {routed : SessionManager × RequestStatus × ℤ}
  (hrouted : e.sessions.routeRequest e.ring rd.route ft (-1) = routed)
include hrouted

theorem dispatch_of_blocked (hb : routed.2.1 = .sessionBlocked) :
    e.dispatch rd ft = ({ e with sessions := routed.1 }, .blocked ft.toKey) := by
  rw [dispatch, hrouted, if_pos hb]

theorem dispatch_of_serverDown (hd : routed.2.1 = .serverDown) :
    e.dispatch rd ft = ({ e with sessions := routed.1 }, .noBackends) := by
  rw [dispatch, hrouted, if_neg (by simp [hd]), if_pos hd]

/-- A request routed to a backend that is online is processed there. -/
theorem dispatch_of_isOnline (hb : routed.2.1 ≠ .sessionBlocked) (hd : routed.2.1 ≠ .serverDown)
    (hr : e.InRange routed.2.2) (hon : e.isOnline routed.2.2 = true) :
    ∃ b, e.backend? routed.2.2 = some b ∧ b.online = true ∧ e.dispatch rd ft =
      process { e with sessions := routed.1 } rd ft routed.2.1 routed.2.2 b := by
  have h := hrouted ▸ dispatched_dispatch e rd ft
  have hon' : isOnline { e with sessions := routed.1 } routed.2.2 = true := hon
  generalize e.dispatch rd ft = r at h ⊢
  cases h with
  | blocked h => exact absurd h hb
  | serverDown h => exact absurd h hd
  | forwarded _ _ hf =>
    cases hf with
    | invalid hnr => exact absurd hr hnr
    | direct _ hb hbon => exact ⟨_, hb, hbon, rfl⟩
    -- a failover starts at an offline backend
    | lost _ hoff | unavailable _ hoff | moved _ hoff => simp [hoff] at hon'

end Dispatch

end Engine

end SessionAffinity
