import SessionAffinity.LoadBalancer
import SessionAffinity.SessionSystem

/-!
# Runs of the engine

The calls on an engine in any order: requests through either balancer, activation, backend
management, crashes, and the session administration. `afterOps` is the engine they make of
the one `main` builds.

An engine is a session system with a front end, and `system_next` says so: ring and table
move as a run of `SessionSystem.machine`, by the calls that `calls` lists. The front end is
the rest: `flags` are the ids and online flags of the backends, which requests do not change.
-/

namespace SessionAffinity

namespace Engine

variable {hashKey : ByteString → UInt64}

/-- The calls on an engine. -/
inductive Op
  | request (role : LBRole) (rd : Readings) (ft : FiveTuple) (payload : ByteString)
  | setActive (role : LBRole) (active : Bool)
  | takeBackendOffline (clk : Clock) (serverId : ℤ)
  | bringBackendOnline (serverId : ℤ)
  /-- A backend stops by itself: `stop` without its removal from the ring. -/
  | crash (serverId : ℤ)
  | cleanupExpired (clk : Clock)
  | forceReassign (clk : Clock) (key : ByteString)
  | blockSession (key : ByteString) (block : Bool)
  | setSessionExpiry (key : ByteString) (timeoutSec : ℤ)

/-- What the calls return. -/
inductive Answer
  | response (r : Response)
  | found (success : Bool)
  | removed (n : ℕ)
  | done
  deriving DecidableEq

/-- The clock readings of a call. -/
def Op.times : Op → List TimePoint
  | request _ rd _ _ => rd.times
  | takeBackendOffline clk _ => [clk.steady]
  | cleanupExpired clk => [clk.steady]
  | forceReassign clk _ => [clk.steady]
  | _ => []

/-- The clock readings of a run do not decrease. -/
def Nondecreasing (ops : List Op) : Prop := (ops.flatMap Op.times).Pairwise (· ≤ ·)

instance (ops : List Op) : Decidable (Nondecreasing ops) :=
  inferInstanceAs (Decidable (List.Pairwise _ _))

/-- The engine as a machine. -/
def machine (hashKey : ByteString → UInt64) (cfg : Config) :
    Machine (Engine hashKey) Op Answer where
  step e
    | .request role rd ft payload =>
      ((e.handleRequest cfg role rd ft payload).1,
        .response (e.handleRequest cfg role rd ft payload).2)
    | .setActive role active => (e.setActive role active, .done)
    | .takeBackendOffline clk serverId => (e.takeBackendOffline clk serverId, .done)
    | .bringBackendOnline serverId => (e.bringBackendOnline serverId, .done)
    | .crash serverId =>
      (if e.InRange serverId then e.modifyBackend serverId RequestHandler.stop else e, .done)
    | .cleanupExpired clk =>
      ({ e with sessions := (e.sessions.cleanupExpired clk).1 },
        .removed (e.sessions.cleanupExpired clk).2)
    | .forceReassign clk key =>
      ({ e with sessions := (e.sessions.forceReassign e.ring clk key).1 },
        .found (e.sessions.forceReassign e.ring clk key).2)
    | .blockSession key block =>
      ({ e with sessions := (e.sessions.blockSession key block).1 },
        .found (e.sessions.blockSession key block).2)
    | .setSessionExpiry key timeoutSec =>
      ({ e with sessions := (e.sessions.setSessionExpiry key timeoutSec).1 },
        .found (e.sessions.setSessionExpiry key timeoutSec).2)

/-- The engine after a run from the state `main` builds. -/
def afterOps (hashKey : ByteString → UInt64) (cfg : Config) (ops : List Op) : Engine hashKey :=
  (machine hashKey cfg).run (init hashKey cfg) ops

theorem afterOps_concat (cfg : Config) (ops : List Op) (op : Op) :
    afterOps hashKey cfg (ops ++ [op]) = (machine hashKey cfg).next (afterOps hashKey cfg ops) op :=
  (machine hashKey cfg).run_concat _ ops op

/-! ### Ring and table -/

/-- The ring and the session table of an engine. -/
def system (e : Engine hashKey) : SessionSystem hashKey := ⟨e.ring, e.sessions⟩

/-- The calls on ring and table that forwarding makes: those of the failover, if any. -/
def forwardCalls (e : Engine hashKey) (rd : Readings) (ft : FiveTuple) (assigned : ℤ) :
    List SessionSystem.Op :=
  if e.InRange assigned ∧ e.isOnline assigned = false then
    [.removeServer assigned, .handleServerDown rd.redistribute assigned,
      .routeRequest rd.reroute ft assigned]
  else []

/-- The calls on ring and table that a request makes once it is admitted. -/
def dispatchCalls (e : Engine hashKey) (rd : Readings) (ft : FiveTuple) :
    List SessionSystem.Op :=
  let routed := e.sessions.routeRequest e.ring rd.route ft (-1)
  .routeRequest rd.route ft (-1) ::
    if routed.2.1 = .sessionBlocked ∨ routed.2.1 = .serverDown then []
    else e.forwardCalls rd ft routed.2.2

/-- The calls on ring and table that a call on the engine makes. -/
def calls (cfg : Config) (e : Engine hashKey) : Op → List SessionSystem.Op
  | .request role rd ft payload =>
    if (e.precheck cfg role rd ft payload).2 = none then e.dispatchCalls rd ft else []
  | .takeBackendOffline clk serverId =>
    if e.InRange serverId then [.removeServer serverId, .handleServerDown clk serverId] else []
  | .bringBackendOnline serverId => if e.InRange serverId then [.addServer serverId] else []
  | .cleanupExpired clk => [.cleanupExpired clk]
  | .forceReassign clk key => [.forceReassign clk key]
  | .blockSession key block => [.blockSession key block]
  | .setSessionExpiry key timeoutSec => [.setSessionExpiry key timeoutSec]
  | .setActive _ _ => []
  | .crash _ => []

/-- Nothing but the payload stands in the way of a request: the tuple is valid, its subnet is not
suspect, and the client is within its quota. -/
def Admits (cfg : Config) (e : Engine hashKey) (rd : Readings) (ft : FiveTuple) : Prop :=
  Security.validateTuple ft = .ok () ∧
    (Security.checkSpoofing cfg e.security rd.validate ft.srcIp).2 = .ok () ∧
      (e.limiter.allowRequest rd.limit ft.toKey).2 = true

instance (cfg : Config) (e : Engine hashKey) (rd : Readings) (ft : FiveTuple) :
    Decidable (e.Admits cfg rd ft) := inferInstanceAs (Decidable (_ ∧ _ ∧ _))

section Pipeline

variable (cfg : Config) (e : Engine hashKey) (role : LBRole) (rd : Readings) (ft : FiveTuple)
  (payload : ByteString) (status : RequestStatus) (assigned : ℤ)

/-- Admission changes the security module and the limiter only. -/
theorem precheck_frame : ∃ security limiter,
    (e.precheck cfg role rd ft payload).1 = { e with security, limiter } := by
  have h := prechecked_precheck cfg e role rd ft payload
  generalize e.precheck cfg role rd ft payload = r at h ⊢
  cases h with
  | notActive | malformed => exact ⟨e.security, e.limiter, rfl⟩
  | spoofed => exact ⟨_, e.limiter, rfl⟩
  | rateLimited | admitted => exact ⟨_, _, rfl⟩

variable {cfg e role rd ft payload} in
/-- Admission, as the conjunction of its checks. -/
theorem precheck_eq_none_iff : (e.precheck cfg role rd ft payload).2 = none ↔
    e.isActive role = true ∧
      Security.validatePayloadSize payload cfg.maxPayloadSize = .ok () ∧ e.Admits cfg rd ft := by
  have h := prechecked_precheck cfg e role rd ft payload
  generalize e.precheck cfg role rd ft payload = r at h ⊢
  cases h with
  | notActive hactive => simp [hactive]
  | malformed _ hbad =>
    refine iff_of_false (by simp) ?_
    rintro ⟨-, hpayload, htuple, -⟩
    exact hbad.elim (· hpayload) (· htuple)
  | spoofed _ _ _ hs => simp [Admits, hs]
  | rateLimited _ _ _ _ hl => simp [Admits, hl]
  | admitted hactive hpayload htuple hs hl => simp [Admits, hactive, hpayload, htuple, hs, hl]

/-- An admitted request has a valid tuple. -/
theorem validateTuple_of_precheck (h : (e.precheck cfg role rd ft payload).2 = none) :
    Security.validateTuple ft = .ok () :=
  (precheck_eq_none_iff.mp h).2.2.1

variable {cfg e role rd ft payload} in
/-- What admission says when it refuses a request. -/
theorem refusal_of_precheck {response : Response}
    (h : (e.precheck cfg role rd ft payload).2 = some response) :
    (∃ role', response = .notActive role') ∨
      (∃ errorMessage, response = .securityFailed errorMessage) ∨
        ∃ key, response = .rateLimited key := by
  have hpre := prechecked_precheck cfg e role rd ft payload
  generalize e.precheck cfg role rd ft payload = r at hpre h
  cases hpre with
  | notActive => exact .inl ⟨role, (Option.some.inj h).symm⟩
  | malformed | spoofed => exact .inr (.inl ⟨_, (Option.some.inj h).symm⟩)
  | rateLimited => exact .inr (.inr ⟨ft.toKey, (Option.some.inj h).symm⟩)
  | admitted => exact absurd h (by simp)

theorem handleRequest_eq : e.handleRequest cfg role rd ft payload =
    match (e.precheck cfg role rd ft payload).2 with
    | some response => ((e.precheck cfg role rd ft payload).1, response)
    | none => (e.precheck cfg role rd ft payload).1.dispatch rd ft := by
  rw [handleRequest]
  rcases e.precheck cfg role rd ft payload with ⟨e', _ | response⟩ <;> rfl

/-- **The outcomes of a request**: it is refused in steps 1 to 3, or dispatched. -/
theorem handleRequest_cases : ∃ security limiter,
    (∃ response, (e.precheck cfg role rd ft payload).2 = some response ∧
      e.handleRequest cfg role rd ft payload = ({ e with security, limiter }, response)) ∨
    ((e.precheck cfg role rd ft payload).2 = none ∧
      e.handleRequest cfg role rd ft payload = dispatch { e with security, limiter } rd ft) := by
  obtain ⟨security, limiter, he⟩ := e.precheck_frame cfg role rd ft payload
  refine ⟨security, limiter, ?_⟩
  rw [handleRequest_eq, he]
  rcases (e.precheck cfg role rd ft payload).2 with _ | response
  · exact .inr ⟨rfl, rfl⟩
  · exact .inl ⟨response, rfl, rfl⟩

variable {cfg e role rd ft payload} in
/-- A request that is admitted is dispatched. -/
theorem handleRequest_of_admitted (hpass : (e.precheck cfg role rd ft payload).2 = none) :
    ∃ security limiter,
      e.handleRequest cfg role rd ft payload = dispatch { e with security, limiter } rd ft := by
  obtain ⟨security, limiter, ⟨response, hrefused, -⟩ | ⟨-, h⟩⟩ :=
    e.handleRequest_cases cfg role rd ft payload
  · exact absurd (hrefused.symm.trans hpass) (by simp)
  · exact ⟨security, limiter, h⟩

theorem system_failover : (e.failover rd ft assigned).1.system =
    (SessionSystem.machine hashKey).run e.system
      [.removeServer assigned, .handleServerDown rd.redistribute assigned,
        .routeRequest rd.reroute ft assigned] := rfl

theorem system_forward : (e.forward rd ft status assigned).1.system =
    (SessionSystem.machine hashKey).run e.system (e.forwardCalls rd ft assigned) := by
  have h := forwarded_forward e rd ft status assigned
  generalize e.forward rd ft status assigned = r at h
  rw [forwardCalls]
  cases h with
  | invalid hr => rw [if_neg fun h => hr h.1]; rfl
  | direct hr hb hon =>
    have hon' : e.isOnline assigned = true := isOnline_eq_true_iff.mpr ⟨_, hb, hon⟩
    rw [if_neg fun h => by simp [hon'] at h]
    rfl
  | lost hr hoff hf | unavailable hr hoff hf => rw [if_pos ⟨hr, hoff⟩, ← system_failover, hf]
  | moved hr hoff hf =>
    rw [if_pos ⟨hr, hoff⟩, ← system_failover, hf]
    rfl

theorem system_dispatch : (e.dispatch rd ft).1.system =
    (SessionSystem.machine hashKey).run e.system (e.dispatchCalls rd ft) := by
  simp only [dispatch, dispatchCalls]
  by_cases hb : (e.sessions.routeRequest e.ring rd.route ft (-1)).2.1 = .sessionBlocked
  · rw [if_pos hb, if_pos (.inl hb)]
    rfl
  by_cases hd : (e.sessions.routeRequest e.ring rd.route ft (-1)).2.1 = .serverDown
  · rw [if_neg hb, if_pos hd, if_pos (.inr hd)]
    rfl
  · rw [if_neg hb, if_neg hd, if_neg (not_or.mpr ⟨hb, hd⟩)]
    exact system_forward _ rd ft _ _

/-- **Ring and table move by the listed calls.** -/
theorem system_next (op : Op) : ((machine hashKey cfg).next e op).system =
    (SessionSystem.machine hashKey).run e.system (e.calls cfg op) := by
  cases op with
  | request role rd ft payload =>
    show (e.handleRequest cfg role rd ft payload).1.system = _
    obtain ⟨security, limiter, ⟨response, hpass, h⟩ | ⟨hpass, h⟩⟩ :=
      e.handleRequest_cases cfg role rd ft payload
    · rw [h, calls, if_neg (by simp [hpass])]
      rfl
    · rw [h, calls, if_pos hpass]
      exact system_dispatch _ rd ft
  | setActive role active => cases role <;> rfl
  | takeBackendOffline clk serverId =>
    show (e.takeBackendOffline clk serverId).system = _
    rw [takeBackendOffline, calls]
    split_ifs <;> rfl
  | bringBackendOnline serverId =>
    show (e.bringBackendOnline serverId).system = _
    rw [bringBackendOnline, calls]
    split_ifs <;> rfl
  | crash serverId =>
    simp only [Machine.next, machine, calls]
    split_ifs <;> rfl
  | cleanupExpired | forceReassign | blockSession | setSessionExpiry => rfl

/-- Routing and forwarding leave the front end alone. -/
theorem dispatch_frame : (e.dispatch rd ft).1.limiter = e.limiter ∧
    (e.dispatch rd ft).1.security = e.security ∧
    (e.dispatch rd ft).1.primaryActive = e.primaryActive ∧
    (e.dispatch rd ft).1.standbyActive = e.standbyActive := by
  have h := dispatched_dispatch e rd ft
  generalize e.dispatch rd ft = r at h
  cases h with
  | blocked | serverDown => exact ⟨rfl, rfl, rfl, rfl⟩
  | forwarded _ _ hf =>
    cases hf with
    | invalid | direct => exact ⟨rfl, rfl, rfl, rfl⟩
    | lost _ _ hf | unavailable _ _ hf | moved _ _ hf =>
      -- a failover changes ring and table only
      have he := congrArg Prod.fst hf
      subst he
      exact ⟨rfl, rfl, rfl, rfl⟩

/-- Past admission the limiter is not consulted. -/
theorem limiter_handleRequest_eq_precheck : (e.handleRequest cfg role rd ft payload).1.limiter =
    (e.precheck cfg role rd ft payload).1.limiter := by
  rw [handleRequest_eq]
  cases (e.precheck cfg role rd ft payload).2 with
  | some response => rfl
  | none => exact (dispatch_frame _ rd ft).1

/-- The limiter hears of a request at most once. -/
theorem limiter_handleRequest : (e.handleRequest cfg role rd ft payload).1.limiter = e.limiter ∨
    (e.handleRequest cfg role rd ft payload).1.limiter =
      (e.limiter.allowRequest rd.limit ft.toKey).1 := by
  rw [limiter_handleRequest_eq_precheck]
  have h := prechecked_precheck cfg e role rd ft payload
  generalize e.precheck cfg role rd ft payload = r at h ⊢
  cases h with
  | notActive | malformed | spoofed => exact .inl rfl
  | rateLimited _ _ _ _ hl | admitted _ _ _ _ hl => exact .inr (congrArg Prod.fst hl).symm

variable {cfg e role rd ft payload} in
/-- The limiter hears of a request that an active balancer finds valid. -/
theorem limiter_handleRequest_of_valid (hactive : e.isActive role = true)
    (hvalid : (Security.fullValidation cfg e.security rd.validate ft payload).2 = .ok ()) :
    (e.handleRequest cfg role rd ft payload).1.limiter =
      (e.limiter.allowRequest rd.limit ft.toKey).1 := by
  rw [limiter_handleRequest_eq_precheck, precheck, if_neg (by simp [hactive])]
  dsimp only
  rw [hvalid]

/-- A request leaves the active flags alone. -/
theorem isActive_handleRequest (role' : LBRole) :
    (e.handleRequest cfg role rd ft payload).1.isActive role' = e.isActive role' := by
  obtain ⟨security, limiter, ⟨response, -, h⟩ | ⟨-, h⟩⟩ :=
    e.handleRequest_cases cfg role rd ft payload
  · rw [h]
    cases role' <;> rfl
  · obtain ⟨-, -, hprimary, hstandby⟩ := dispatch_frame { e with security, limiter } rd ft
    rw [h]
    cases role' with
    | primary => exact hprimary
    | standby => exact hstandby

variable {cfg e role rd ft payload} in
/-- An active balancer does not say that it is not. -/
theorem response_ne_notActive (hactive : e.isActive role = true) (role' : LBRole) :
    (e.handleRequest cfg role rd ft payload).2 ≠ .notActive role' := by
  rw [handleRequest_eq]
  cases hpass : (e.precheck cfg role rd ft payload).2 with
  | some response =>
    have hpre := prechecked_precheck cfg e role rd ft payload
    generalize e.precheck cfg role rd ft payload = r at hpre hpass
    cases hpre with
    | notActive hpassive => exact absurd (hpassive.symm.trans hactive) (by simp)
    | admitted => exact absurd hpass (by simp)
    | malformed | spoofed | rateLimited =>
      rw [← Option.some.inj hpass]
      simp
  | none =>
    have h := dispatched_dispatch (e.precheck cfg role rd ft payload).1 rd ft
    dsimp only
    generalize dispatch _ rd ft = r at h ⊢
    cases h with
    | blocked | serverDown => simp
    | forwarded _ _ hf => cases hf <;> simp [process]

/-! ### The calls a call makes -/

/-- **What reaches ring and table.** The calls that a call on the engine may make on them, with
what is known when they are made. -/
inductive Made (cfg : Config) (e : Engine hashKey) : Op → SessionSystem.Op → Prop
  /-- An admitted request is routed, once or twice. -/
  | route {role : LBRole} {rd : Readings} {ft : FiveTuple} {payload : ByteString} {clk : Clock}
      {assigned : ℤ} (hpass : (e.precheck cfg role rd ft payload).2 = none)
      (hclk : clk.steady ∈ rd.times) :
      Made cfg e (.request role rd ft payload) (.routeRequest clk ft assigned)
  /-- The failover takes an offline backend off the ring. -/
  | evict {role : LBRole} {rd : Readings} {ft : FiveTuple} {payload : ByteString} {serverId : ℤ}
      (hr : e.InRange serverId) (hoff : e.isOnline serverId = false) :
      Made cfg e (.request role rd ft payload) (.removeServer serverId)
  /-- The failover sweeps the sessions of an offline backend. -/
  | sweep {role : LBRole} {rd : Readings} {ft : FiveTuple} {payload : ByteString} {serverId : ℤ}
      (hr : e.InRange serverId) (hoff : e.isOnline serverId = false) :
      Made cfg e (.request role rd ft payload) (.handleServerDown rd.redistribute serverId)
  | retire {clk : Clock} {serverId : ℤ} (hr : e.InRange serverId) :
      Made cfg e (.takeBackendOffline clk serverId) (.removeServer serverId)
  | retireSweep {clk : Clock} {serverId : ℤ} (hr : e.InRange serverId) :
      Made cfg e (.takeBackendOffline clk serverId) (.handleServerDown clk serverId)
  | restore {serverId : ℤ} (hr : e.InRange serverId) :
      Made cfg e (.bringBackendOnline serverId) (.addServer serverId)
  | cleanup {clk : Clock} : Made cfg e (.cleanupExpired clk) (.cleanupExpired clk)
  | force {clk : Clock} {key : ByteString} :
      Made cfg e (.forceReassign clk key) (.forceReassign clk key)
  | block {key : ByteString} {block : Bool} :
      Made cfg e (.blockSession key block) (.blockSession key block)
  | expiry {key : ByteString} {timeoutSec : ℤ} :
      Made cfg e (.setSessionExpiry key timeoutSec) (.setSessionExpiry key timeoutSec)

theorem made_of_mem_calls {op : Op} {c : SessionSystem.Op} (hc : c ∈ e.calls cfg op) :
    Made cfg e op c := by
  cases op with
  | request role rd ft payload =>
    rw [calls] at hc
    split_ifs at hc with hpass
    · rw [dispatchCalls] at hc
      rcases List.mem_cons.mp hc with rfl | hc
      · exact .route hpass (by simp [Readings.times])
      split_ifs at hc
      · exact absurd hc List.not_mem_nil
      rw [forwardCalls] at hc
      split_ifs at hc with hf
      · simp only [List.mem_cons, List.not_mem_nil, or_false] at hc
        rcases hc with rfl | rfl | rfl
        · exact .evict hf.1 hf.2
        · exact .sweep hf.1 hf.2
        · exact .route hpass (by simp [Readings.times])
      · exact absurd hc List.not_mem_nil
    · exact absurd hc List.not_mem_nil
  | takeBackendOffline clk serverId =>
    rw [calls] at hc
    split_ifs at hc with hr
    · simp only [List.mem_cons, List.not_mem_nil, or_false] at hc
      rcases hc with rfl | rfl
      · exact .retire hr
      · exact .retireSweep hr
    · exact absurd hc List.not_mem_nil
  | bringBackendOnline serverId =>
    rw [calls] at hc
    split_ifs at hc with hr
    · obtain rfl := List.mem_singleton.mp hc
      exact .restore hr
    · exact absurd hc List.not_mem_nil
  | cleanupExpired clk => obtain rfl := List.mem_singleton.mp hc; exact .cleanup
  | forceReassign clk key => obtain rfl := List.mem_singleton.mp hc; exact .force
  | blockSession key block => obtain rfl := List.mem_singleton.mp hc; exact .block
  | setSessionExpiry key timeoutSec => obtain rfl := List.mem_singleton.mp hc; exact .expiry
  | setActive | crash => exact absurd hc List.not_mem_nil

variable {cfg e} in
/-- Only backends are put on the ring or taken off it. -/
theorem Made.inRange {op : Op} {c : SessionSystem.Op} (h : Made cfg e op c) {serverId : ℤ}
    (hs : c.server? = some serverId) : e.InRange serverId := by
  cases h with
  | evict hr | retire hr | restore hr => exact Option.some.inj hs ▸ hr
  | _ => exact absurd hs (by simp [SessionSystem.Op.server?])

variable {cfg e} in
/-- The calls read the clocks of the call that makes them. -/
theorem Made.times {op : Op} {c : SessionSystem.Op} (h : Made cfg e op c) {t : TimePoint}
    (ht : t ∈ c.times) : t ∈ op.times := by
  cases h with
  | route hpass hclk => rwa [List.mem_singleton.mp ht]
  | sweep => simp_all [SessionSystem.Op.times, Op.times, Readings.times]
  | retireSweep | cleanup | force => exact ht
  | _ => exact absurd ht List.not_mem_nil

/-! ### The backends -/

theorem backends_dispatch : (e.dispatch rd ft).1.backends = e.backends ∨
    ∃ serverId, (e.dispatch rd ft).1.backends =
      (e.modifyBackend serverId fun b => (b.processRequest rd.timestamp ft).1).backends := by
  have h := dispatched_dispatch e rd ft
  generalize e.dispatch rd ft = r at h
  cases h with
  | blocked | serverDown => exact .inl rfl
  | forwarded _ _ hf =>
    cases hf with
    | invalid => exact .inl rfl
    | direct => exact .inr ⟨_, rfl⟩
    | lost _ _ hf | unavailable _ _ hf => exact .inl (congrArg (fun r => r.1.backends) hf.symm)
    | moved _ _ hf =>
      have hfailover := congrArg (fun r => r.1.backends) hf.symm
      exact .inr ⟨_, congrArg (List.modify · _ _) hfailover⟩

/-- A request changes at most one backend, by processing it there. -/
theorem backends_handleRequest :
    (e.handleRequest cfg role rd ft payload).1.backends = e.backends ∨
    ∃ serverId, (e.handleRequest cfg role rd ft payload).1.backends =
      (e.modifyBackend serverId fun b => (b.processRequest rd.timestamp ft).1).backends := by
  obtain ⟨security, limiter, ⟨response, -, h⟩ | ⟨-, h⟩⟩ :=
    e.handleRequest_cases cfg role rd ft payload
  · exact .inl (by rw [h])
  · rw [h]
    exact backends_dispatch { e with security, limiter } rd ft

/-- What processing does not change in a backend is as before in all of them. -/
theorem map_backends_handleRequest {α : Type*} {g : RequestHandler → α}
    (hg : ∀ b, g (b.processRequest rd.timestamp ft).1 = g b) :
    (e.handleRequest cfg role rd ft payload).1.backends.map g = e.backends.map g := by
  obtain h | ⟨serverId, h⟩ := e.backends_handleRequest cfg role rd ft payload <;> rw [h]
  exact map_modifyBackend hg

/-- A request stops and starts no backend. -/
theorem flags_handleRequest : (e.handleRequest cfg role rd ft payload).1.flags = e.flags :=
  e.map_backends_handleRequest cfg role rd ft payload fun b => by simp

/-- What a call may do to a backend. -/
inductive Touch : (RequestHandler → RequestHandler) → Prop
  | process (timestamp : ByteString) (ft : FiveTuple) :
      Touch fun b => (b.processRequest timestamp ft).1
  | start : Touch RequestHandler.start
  | stop : Touch RequestHandler.stop

/-- **What a call does to the backends**: nothing, or it touches one. -/
theorem backends_next (op : Op) : ((machine hashKey cfg).next e op).backends = e.backends ∨
    ∃ serverId f, Touch f ∧
      ((machine hashKey cfg).next e op).backends = (e.modifyBackend serverId f).backends := by
  cases op with
  | request role rd ft payload =>
    obtain h | ⟨serverId, h⟩ := e.backends_handleRequest cfg role rd ft payload
    · exact .inl h
    · exact .inr ⟨serverId, _, .process rd.timestamp ft, h⟩
  | setActive role active => cases role <;> exact .inl rfl
  | takeBackendOffline clk serverId =>
    simp only [Machine.next, machine, takeBackendOffline]
    split_ifs
    · exact .inr ⟨serverId, _, .stop, rfl⟩
    · exact .inl rfl
  | bringBackendOnline serverId =>
    simp only [Machine.next, machine, bringBackendOnline]
    split_ifs
    · exact .inr ⟨serverId, _, .start, rfl⟩
    · exact .inl rfl
  | crash serverId =>
    simp only [Machine.next, machine]
    split_ifs
    · exact .inr ⟨serverId, _, .stop, rfl⟩
    · exact .inl rfl
  | cleanupExpired | forceReassign | blockSession | setSessionExpiry => exact .inl rfl

variable {cfg e} in
/-- A property of single backends that no touch breaks is kept by every call. -/
theorem forall_backends_next {P : RequestHandler → Prop} (h : ∀ b ∈ e.backends, P b)
    (hP : ∀ f, Touch f → ∀ b, P b → P (f b)) (op : Op) :
    ∀ b ∈ ((machine hashKey cfg).next e op).backends, P b := by
  obtain hs | ⟨serverId, f, hf, hs⟩ := e.backends_next cfg op <;> rw [hs]
  · exact h
  intro b hb
  obtain ⟨i, hi⟩ := List.mem_iff_getElem?.mp hb
  rw [modifyBackend, List.getElem?_modify, Option.map_eq_map, Option.map_eq_some_iff] at hi
  obtain ⟨b', hb', rfl⟩ := hi
  have hb'P := h b' (List.mem_of_getElem? hb')
  split_ifs
  · exact hP f hf b' hb'P
  · exact hb'P

theorem isOnline_congr {e e' : Engine hashKey} (h : e.flags = e'.flags) (s : ℤ) :
    e.isOnline s = e'.isOnline s := by
  rw [isOnline_eq_flags, isOnline_eq_flags, h]

end Pipeline

end Engine

end SessionAffinity
