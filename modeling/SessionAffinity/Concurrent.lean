import SessionAffinity.Engine.Runs
import SessionAffinity.Foundations.Interleaving

/-!
# The engine under concurrent calls

Any number of threads call `handleRequest`, `takeBackendOffline`, `bringBackendOnline` and
`forceReassign` at once, through either balancer. Ring, session table, limiter and security
module have a lock each and the online flags are atomic, so a call is a sequence of steps, and
between any two of them other threads may take theirs.

A step is one access: one call of the ring, the limiter or the security module, one load or
store of a flag with the local computation that follows it. A call of the session manager is a
critical section under the session lock, and the calls of the ring that it makes are steps of
their own: `Routing`, `Sweep` and `Forcing` are the positions inside `routeRequest`,
`handleServerDown` and `forceReassign`, and `Pc` the positions of a thread.

`processRequest` is one step too, from its own load of the flag to its reply. The source keeps
`local_data_` and `total_requests_` without a lock, and what happens to them when two threads are
in `processRequest` of one backend at once is not modelled.

The clock is part of the shared state and ticks between the steps, and every reading of it is
made at its own step. What else a step finds outside the state is in its `Surroundings`.
-/

namespace SessionAffinity

open ByteString (signedDecimal)

namespace Concurrent

variable {hashKey : ByteString → UInt64}

/-- The arguments of `handleRequest`, with the balancer it comes through. -/
structure Request where
  role : LBRole
  ft : FiveTuple
  payload : ByteString
  deriving DecidableEq

/-- The calls that are made concurrently. -/
inductive Call
  | handleRequest (r : Request)
  | takeBackendOffline (serverId : ℤ)
  | bringBackendOnline (serverId : ℤ)
  | forceReassign (key : ByteString)

/-- What the state does not determine: the text of the wall clock, and the order in which a
loop visits the keys of the session table. -/
structure Surroundings where
  wall : ByteString
  order : List ByteString

/-- What the threads share. -/
structure Shared (hashKey : ByteString → UInt64) where
  engine : Engine hashKey
  now : TimePoint

/-! ### Critical sections -/

/-- The positions of `routeRequest`; `now` is read on entry. -/
inductive Routing
  | enter
  | find (now : TimePoint)
  | checkAlive (now : TimePoint) (entry : SessionEntry)
  | storeSticky (now : TimePoint) (entry : SessionEntry)
  | failover (now : TimePoint) (entry : SessionEntry)
  | storeFailover (now : TimePoint) (entry : SessionEntry) (newBackend : ℤ)
  | create (now : TimePoint)
  | storeNew (now : TimePoint) (backend : ℤ)
  deriving DecidableEq

/-- One step of `routeRequest`: the table, and the next position or the status with the value
of `assigned_backend`. -/
def Routing.step (sm : SessionManager) (ring : ConsistentHashRing hashKey) (clk : Clock)
    (ft : FiveTuple) (assigned : ℤ) : Routing → SessionManager × (Routing ⊕ RequestStatus × ℤ)
  | enter => (sm, .inl (find clk.steady))
  | find now =>
    match sm.sessions[ft.toKey]? with
    | some entry =>
      if entry.blocked then (sm, .inr (.sessionBlocked, assigned))
      else if sm.isExpired clk.steady entry then (sm.drop ft.toKey, .inl (create now))
      else (sm, .inl (checkAlive now entry))
    | none => (sm, .inl (create now))
  | checkAlive now entry =>
    if entry.backendId ∈ ring.getActiveServers then (sm, .inl (storeSticky now entry))
    else (sm, .inl (failover now entry))
  | storeSticky now entry =>
    (sm.put ft.toKey { entry with lastAccess := now }, .inr (.success, entry.backendId))
  | failover now entry =>
    let newBackend := ring.getServer ft.toKey
    if newBackend < 0 then (sm, .inr (.serverDown, assigned))
    else (sm, .inl (storeFailover now entry newBackend))
  | storeFailover now entry newBackend =>
    (sm.put ft.toKey (entry.reassign ⟨now, clk.wall⟩ newBackend (bytes "Failover from backend " ++
        signedDecimal entry.backendId ++ bytes " (server down)")),
      .inr (.reassigned, newBackend))
  | create now =>
    let backend := ring.getServer ft.toKey
    if backend < 0 then (sm, .inr (.serverDown, assigned))
    else (sm, .inl (storeNew now backend))
  | storeNew now backend =>
    (sm.put ft.toKey (SessionManager.newEntry ft ⟨now, clk.wall⟩ backend),
      .inr (.success, backend))

/-- The positions of `handleServerDown`; `todo` are the keys that the loop has yet to visit. -/
inductive Sweep
  | enter
  | scan (todo : List ByteString)
  | choose (key : ByteString) (entry : SessionEntry) (todo : List ByteString)
  | store (key : ByteString) (entry : SessionEntry) (newBackend : ℤ) (todo : List ByteString)
  deriving DecidableEq

/-- One step of `handleServerDown`: the table, and the next position if it does not return.
The loop visits the keys of the table in some order, which the table under the lock keeps. -/
def Sweep.step (sm : SessionManager) (ring : ConsistentHashRing hashKey) (clk : Clock)
    (order : List ByteString) (serverId : ℤ) : Sweep → SessionManager × Option Sweep
  | enter => (sm, if order.Perm sm.sessions.keys then some (scan order) else some enter)
  | scan [] => (sm, none)
  | scan (key :: todo) =>
    match sm.sessions[key]? with
    | some entry =>
      if entry.backendId = serverId ∧ sm.isExpired clk.steady entry = false then
        (sm, some (choose key entry todo))
      else (sm, some (scan todo))
    | none => (sm, some (scan todo))
  | choose key entry todo =>
    let newBackend := ring.getServer key
    if newBackend ≥ 0 ∧ newBackend ≠ serverId then (sm, some (store key entry newBackend todo))
    else (sm, some (scan todo))
  | store key entry newBackend todo =>
    (sm.put key (entry.reassign clk newBackend
      (bytes "Server " ++ signedDecimal entry.backendId ++ bytes " went down — redistributed")),
      some (scan todo))

/-- The positions of `forceReassign`. -/
inductive Forcing
  | enter
  | find
  | choose (entry : SessionEntry)
  | pickOther (entry : SessionEntry) (newBackend : ℤ)
  | store (entry : SessionEntry) (newBackend : ℤ)
  deriving DecidableEq

/-- One step of `forceReassign`: the table, and the next position or the value returned. -/
def Forcing.step (sm : SessionManager) (ring : ConsistentHashRing hashKey) (clk : Clock)
    (key : ByteString) : Forcing → SessionManager × (Forcing ⊕ Bool)
  | enter => (sm, .inl find)
  | find =>
    match sm.sessions[key]? with
    | some entry => (sm, .inl (choose entry))
    | none => (sm, .inr false)
  | choose entry =>
    let newBackend := ring.getServer key
    if newBackend < 0 then (sm, .inr false)
    else if newBackend = entry.backendId then (sm, .inl (pickOther entry newBackend))
    else (sm, .inl (store entry newBackend))
  | pickOther entry newBackend =>
    let servers := ring.getActiveServers
    if servers.length ≤ 1 then (sm, .inr false)
    else
      (sm, .inl (store entry ((servers.find? (· ≠ entry.backendId)).getD newBackend)))
  | store entry newBackend =>
    (sm.put key (entry.reassign clk newBackend
      (bytes "Forced reassignment from backend " ++ signedDecimal entry.backendId)), .inr true)

/-! ### Threads -/

/-- Where a thread stands. -/
inductive Pc
  | idle
  /-- `handleRequest`: steps 1 to 3. -/
  | checkActive (r : Request)
  | validate (r : Request)
  | limit (r : Request)
  /-- Step 4, or `again` after a failover. -/
  | routeRequest (r : Request) (again : Bool) (assigned : ℤ) (s : Routing)
  /-- Step 5: the load of the online flag, and what follows it. -/
  | checkOnline (r : Request) (again : Bool) (status : RequestStatus) (assigned : ℤ)
  | evict (r : Request) (assigned : ℤ)
  | process (r : Request) (status : RequestStatus) (assigned : ℤ)
  /-- `takeBackendOffline`: the store of the flag and the removal from the ring. -/
  | stop (serverId : ℤ)
  | retire (serverId : ℤ)
  /-- `bringBackendOnline`: the store of the flag and the return to the ring. -/
  | start (serverId : ℤ)
  | restore (serverId : ℤ)
  /-- The sweep of `takeBackendOffline`, or of the failover of a request. -/
  | handleServerDown (serverId : ℤ) (r : Option Request) (s : Sweep)
  | forceReassign (key : ByteString) (s : Forcing)
  deriving DecidableEq

namespace Pc

/-- The thread holds the session lock. -/
def inside : Pc → Bool
  | routeRequest _ _ _ s => s ≠ .enter
  | handleServerDown _ _ s => s ≠ .enter
  | forceReassign _ s => s ≠ .enter
  | _ => false

/-- Return a response. -/
def reply (r : Response) : Pc × Option Engine.Answer := (idle, some (.response r))

/-- What `handleRequest` does with the result of a routing. -/
def afterRouting (r : Request) (again : Bool) (status : RequestStatus) (assigned : ℤ) :
    Pc × Option Engine.Answer :=
  if again then
    if status = .serverDown ∨ assigned < 0 then reply .noBackendsAfterFailover
    else (checkOnline r true status assigned, none)
  else if status = .sessionBlocked then reply (.blocked r.ft.toKey)
  else if status = .serverDown then reply .noBackends
  else (checkOnline r false status assigned, none)

/-- One step of a thread: the engine, the next position, and the answer of a call that
returns. -/
def step (cfg : Config) (e : Engine hashKey) (clk : Clock) (order : List ByteString) :
    Pc → Engine hashKey × Pc × Option Engine.Answer
  | idle => (e, idle, none)
  | checkActive r =>
    (e, if e.isActive r.role then (validate r, none) else reply (.notActive r.role))
  | validate r =>
    let validation := Security.fullValidation cfg e.security clk r.ft r.payload
    ({ e with security := validation.1 },
      match validation.2 with
      | .error errorMessage => reply (.securityFailed errorMessage)
      | .ok () => (limit r, none))
  | limit r =>
    let limited := e.limiter.allowRequest clk r.ft.toKey
    ({ e with limiter := limited.1 },
      if limited.2 then (routeRequest r false (-1) .enter, none)
      else reply (.rateLimited r.ft.toKey))
  | routeRequest r again assigned s =>
    let stepped := s.step e.sessions e.ring clk r.ft assigned
    ({ e with sessions := stepped.1 },
      match stepped.2 with
      | .inl s => (routeRequest r again assigned s, none)
      | .inr (status, assigned) => afterRouting r again status assigned)
  | checkOnline r again status assigned =>
    -- only the first attempt checks the range of the id
    (e, if again = false ∧ ¬ e.InRange assigned then reply .invalidBackend
      else if e.isOnline assigned then (process r status assigned, none)
      else if again then reply .failoverTargetUnavailable
      else (evict r assigned, none))
  | evict r assigned =>
    ({ e with ring := e.ring.removeServer assigned },
      handleServerDown assigned (some r) .enter, none)
  | process r status assigned =>
    match e.backend? assigned with
    | some b =>
      let processed := e.process (.at clk) r.ft status assigned b
      (processed.1, reply processed.2)
    | none => (e, reply .invalidBackend)
  | stop serverId => (e.modifyBackend serverId RequestHandler.stop, retire serverId, none)
  | retire serverId =>
    ({ e with ring := e.ring.removeServer serverId }, handleServerDown serverId none .enter, none)
  | start serverId => (e.modifyBackend serverId RequestHandler.start, restore serverId, none)
  | restore serverId => ({ e with ring := e.ring.addServer serverId }, idle, some .done)
  | handleServerDown serverId r s =>
    let stepped := s.step e.sessions e.ring clk order serverId
    ({ e with sessions := stepped.1 },
      match stepped.2, r with
      | some s, r => (handleServerDown serverId r s, none)
      | none, some r => (routeRequest r true serverId .enter, none)
      | none, none => (idle, some .done))
  | forceReassign key s =>
    let stepped := s.step e.sessions e.ring clk key
    ({ e with sessions := stepped.1 },
      match stepped.2 with
      | .inl s => (forceReassign key s, none)
      | .inr found => (idle, some (.found found)))

end Pc

/-- Where a call starts. Backend management checks the range of the id first. -/
def Call.start (e : Engine hashKey) : Call → Pc × Option Engine.Answer
  | handleRequest r => (.checkActive r, none)
  | takeBackendOffline serverId =>
    if e.InRange serverId then (.stop serverId, none) else (.idle, some .done)
  | bringBackendOnline serverId =>
    if e.InRange serverId then (.start serverId, none) else (.idle, some .done)
  | forceReassign key => (.forceReassign key .enter, none)

/-- What every thread does. -/
def script (hashKey : ByteString → UInt64) (cfg : Config) :
    Script (Shared hashKey) Pc ℕ Call Surroundings Engine.Answer where
  isIdle p := p = .idle
  inside := Pc.inside
  tick sh d := { sh with now := sh.now + d }
  start sh call := call.start sh.engine
  step sh x p :=
    let stepped := p.step cfg sh.engine ⟨sh.now, x.wall⟩ x.order
    ({ sh with engine := stepped.1 }, stepped.2)
  inside_idle h := by
    rw [decide_eq_true_eq] at h
    rw [h]
    rfl
  inside_start sh call := by
    cases call with
    | handleRequest | forceReassign => rfl
    | takeBackendOffline | bringBackendOnline =>
      rw [Call.start]
      split_ifs <;> rfl

/-- The threads with what they share. -/
abbrev World (hashKey : ByteString → UInt64) (ι : Type*) := Threads ι (Shared hashKey) Pc

/-- What can happen next. -/
abbrev Event (ι : Type*) := Threads.Event ι ℕ Call Surroundings

/-- The next step of a thread, for concrete runs: no key to visit, no time to write. -/
def go {ι : Type*} (i : ι) : Event ι := .resume i ⟨[], []⟩

/-- The engine under concurrent calls. -/
abbrev machine (hashKey : ByteString → UInt64) (cfg : Config) (ι : Type*) [DecidableEq ι] :
    Machine (World hashKey ι) (Event ι) (Option Engine.Answer) :=
  (script hashKey cfg).machine ι

/-- All threads idle around an engine. -/
def World.quiet (ι : Type*) (e : Engine hashKey) (now : TimePoint) : World hashKey ι where
  shared := ⟨e, now⟩
  holder := none
  pc _ := .idle

/-! ### What a step does -/

namespace Pc

/-- The thread is about to make a call of the session manager, or in one. -/
def inSession : Pc → Bool
  | routeRequest _ _ _ _ | handleServerDown _ _ _ | forceReassign _ _ => true
  | _ => false

/-- The mutation of the ring that a thread is about to make. -/
def ringCall? : Pc → Option ConsistentHashRing.Op
  | evict _ serverId | retire serverId => some (.removeServer serverId)
  | restore serverId => some (.addServer serverId)
  | _ => none

/-- The backend whose flag or place on the ring a thread is about to change. -/
def target? : Pc → Option ℤ
  | evict _ serverId | stop serverId | retire serverId | start serverId | restore serverId =>
    some serverId
  | _ => none

/-- Every step leads to the next position of the call, or out of it. -/
inductive Moved (e : Engine hashKey) : Pc → Pc → Prop
  /-- To a position without a part in any of this. -/
  | outer {p p' : Pc} (hs : p'.inside = false) (ht : p'.target? = none)
      (hd : ∀ s r, p' ≠ handleServerDown s r .enter) : Moved e p p'
  /-- From the load of a flag to the failover. -/
  | evict {r : Request} {status : RequestStatus} {s : ℤ} (hr : e.InRange s)
      (hoff : e.isOnline s = false) : Moved e (checkOnline r false status s) (evict r s)
  | stop (s : ℤ) : Moved e (stop s) (retire s)
  | start (s : ℤ) : Moved e (start s) (restore s)
  | removed {p : Pc} {s : ℤ} {r : Option Request} (hp : p.ringCall? = some (.removeServer s)) :
      Moved e p (handleServerDown s r .enter)
  /-- Within a critical section, or waiting for one. -/
  | within {p p' : Pc} (hp : p.inSession = true) (hp' : p'.inSession = true) : Moved e p p'

theorem moved_reply (e : Engine hashKey) (p : Pc) (r : Response) : Moved e p (reply r).1 :=
  .outer rfl rfl (by simp [reply])

theorem moved_afterRouting (e : Engine hashKey) (p : Pc) (r : Request) (again : Bool)
    (status : RequestStatus) (assigned : ℤ) :
    Moved e p (afterRouting r again status assigned).1 := by
  rw [afterRouting]
  split_ifs
  · exact moved_reply e p _
  · exact .outer rfl rfl (by simp)
  · exact moved_reply e p _
  · exact moved_reply e p _
  · exact .outer rfl rfl (by simp)

/-- **Where a step leads.** -/
theorem moved_step (cfg : Config) (e : Engine hashKey) (clk : Clock) (order : List ByteString)
    (p : Pc) : Moved e p (p.step cfg e clk order).2.1 := by
  cases p with
  | idle => exact .outer rfl rfl (by simp [step])
  | checkActive r =>
    simp only [step]
    split_ifs
    · exact .outer rfl rfl (by simp)
    · exact moved_reply e _ _
  | validate r =>
    simp only [step]
    split
    · exact moved_reply e _ _
    · exact .outer rfl rfl (by simp)
  | limit r =>
    simp only [step]
    split_ifs
    · exact .outer rfl rfl (by simp)
    · exact moved_reply e _ _
  | routeRequest r again assigned s =>
    simp only [step]
    split
    · exact .within rfl rfl
    · exact moved_afterRouting e _ r again _ _
  | checkOnline r again status assigned =>
    simp only [step]
    split_ifs with hr hon ha
    · exact moved_reply e _ _
    · exact .outer rfl rfl (by simp)
    · exact moved_reply e _ _
    · obtain rfl : again = false := Bool.not_eq_true _ ▸ ha
      exact .evict (by_contra fun hout => hr ⟨rfl, hout⟩) (Bool.not_eq_true _ ▸ hon)
  | evict r assigned => exact .removed rfl
  | process r status assigned =>
    rw [step]
    cases e.backend? assigned <;> exact moved_reply e _ _
  | stop s => exact .stop s
  | retire s => exact .removed rfl
  | start s => exact .start s
  | restore s => exact .outer rfl rfl (by simp [step])
  | handleServerDown s r position =>
    simp only [step]
    split
    · exact .within rfl rfl
    · exact .within rfl rfl
    · exact .outer rfl rfl (by simp)
  | forceReassign key s =>
    simp only [step]
    split
    · exact .within rfl rfl
    · exact .outer rfl rfl (by simp)

theorem target?_of_ringCall? {p : Pc} {op : ConsistentHashRing.Op} (h : p.ringCall? = some op) :
    p.target? = some op.server := by
  cases p with
  | evict | retire | restore =>
    obtain rfl := Option.some.inj h
    rfl
  | _ => exact absurd h (by simp [ringCall?])

theorem target?_of_inSession {p : Pc} (h : p.inSession = true) : p.target? = none := by
  cases p with
  | routeRequest | handleServerDown | forceReassign => rfl
  | _ => exact absurd h (by simp [inSession])

variable {e : Engine hashKey} {p p' : Pc}

/-- A thread turns to a backend that it checked to be one. -/
theorem Moved.target? (h : Moved e p p') {s : ℤ} (hs : p'.target? = some s) :
    p.target? = some s ∨ e.InRange s := by
  cases h with
  | outer _ ht => exact absurd hs (by simp [ht])
  | evict hr => exact .inr (Option.some.inj hs ▸ hr)
  | stop | start => exact .inl hs
  | removed => exact absurd hs (by simp [Pc.target?])
  | within _ hp' => exact absurd hs (by simp [target?_of_inSession hp'])

variable (cfg : Config) (e : Engine hashKey) (clk : Clock) (order : List ByteString) (p : Pc)

/-- A thread changes the ring by its call of the ring. -/
theorem ring_step : (p.step cfg e clk order).1.ring =
    (ConsistentHashRing.machine hashKey).run e.ring p.ringCall?.toList := by
  cases p with
  | process r status assigned =>
    rw [step]
    cases e.backend? assigned <;> rfl
  | _ => rfl

/-- After its call of the ring a thread makes no other, and is not inside. -/
theorem step_of_ringCall? {p : Pc} {op : ConsistentHashRing.Op} (hop : p.ringCall? = some op) :
    (p.step cfg e clk order).2.1.ringCall? = none ∧
      (p.step cfg e clk order).2.1.inside = false ∧
      (p.step cfg e clk order).1.backends = e.backends := by
  cases p with
  | evict | retire | restore => exact ⟨rfl, rfl, rfl⟩
  | _ => exact absurd hop (by simp [Pc.ringCall?])

/-- A thread changes the session table in its calls of the session manager. -/
theorem sessions_step {p : Pc} (hp : p.inSession = false) :
    (p.step cfg e clk order).1.sessions = e.sessions := by
  cases p with
  | process r status assigned =>
    rw [step]
    cases e.backend? assigned <;> rfl
  | routeRequest | handleServerDown | forceReassign => exact absurd hp (by simp [inSession])
  | _ => rfl

/-- No step changes which ids pass the range check. -/
theorem inRange_step {s : ℤ} : (p.step cfg e clk order).1.InRange s ↔ e.InRange s := by
  have hlen : (p.step cfg e clk order).1.backends.length = e.backends.length := by
    cases p with
    | process r status assigned =>
      rw [step]
      cases e.backend? assigned with
      | none => rfl
      | some b => exact List.length_modify _ _ _
    | stop | start => exact List.length_modify _ _ _
    | _ => rfl
  rw [Engine.InRange, Engine.InRange, hlen]

/-- Flags change by the stores of backend management only. -/
theorem isOnline_step {p : Pc} (hstop : ∀ s, p ≠ stop s) (hstart : ∀ s, p ≠ start s) (s : ℤ) :
    (p.step cfg e clk order).1.isOnline s = e.isOnline s := by
  refine Engine.isOnline_congr ?_ s
  cases p with
  | process r status assigned =>
    rw [step]
    cases e.backend? assigned with
    | none => rfl
    | some b => exact Engine.map_modifyBackend fun b => by simp
  | stop s => exact absurd rfl (hstop s)
  | start s => exact absurd rfl (hstart s)
  | _ => rfl

variable {e} {y : ℤ} (hy : e.InRange y)
include hy

theorem isOnline_step_stop (s : ℤ) : ((stop y).step cfg e clk order).1.isOnline s =
    if s = y then false else e.isOnline s := by
  refine Bool.eq_iff_iff.mpr ((Engine.isOnline_stop hy.1).trans ?_)
  split_ifs with hs <;> simp [hs]

theorem isOnline_step_start (s : ℤ) : ((start y).step cfg e clk order).1.isOnline s =
    if s = y then true else e.isOnline s := by
  refine Bool.eq_iff_iff.mpr ((Engine.isOnline_start hy).trans ?_)
  split_ifs with hs <;> simp [hs]

end Pc

/-! ### Threads and backends -/

/-- The ids that pass the range check are those in `R`, and threads change no others. -/
structure Aimed {ι : Type*} (R : ℤ → Prop) (t : World hashKey ι) : Prop where
  inRange (s : ℤ) : t.shared.engine.InRange s ↔ R s
  target {i : ι} {s : ℤ} : (t.pc i).target? = some s → R s

section Runs

variable {ι : Type*} [DecidableEq ι] {cfg : Config}

omit [DecidableEq ι] in
theorem locked_quiet (e : Engine hashKey) (now : TimePoint) :
    (World.quiet ι e now).Locked Pc.inside := by
  intro i
  simp [World.quiet, Pc.inside]

omit [DecidableEq ι] in
theorem aimed_quiet (e : Engine hashKey) (now : TimePoint) :
    Aimed e.InRange (World.quiet ι e now) :=
  ⟨fun _ => Iff.rfl, fun h => absurd h (by simp [World.quiet, Pc.target?])⟩

theorem Call.inRange_of_target?_start {e : Engine hashKey} {call : Call} {s : ℤ}
    (h : (call.start e).1.target? = some s) : e.InRange s := by
  cases call with
  | handleRequest | forceReassign => exact absurd h (by simp [Call.start, Pc.target?])
  | takeBackendOffline serverId | bringBackendOnline serverId =>
    rw [Call.start] at h
    split_ifs at h with hr
    · exact Option.some.inj h ▸ hr
    · exact absurd h (by simp [Pc.target?])

variable (cfg) in
/-- In every run threads change backends only. -/
theorem aimed_run {R : ℤ → Prop} {t : World hashKey ι} (ht : Aimed R t)
    (hlock : t.Locked Pc.inside) (evs : List (Event ι)) :
    Aimed R ((machine hashKey cfg ι).run t evs) := by
  refine Script.run_invariant (S := script hashKey cfg) (P := fun _ _ => True) ?_ ?_ ?_ ht hlock
    ((machine hashKey cfg ι).along_of_forall fun _ _ => trivial)
  · exact fun t d ht _ => ⟨ht.inRange, ht.target⟩
  · intro t i call ht _ _
    refine ⟨ht.inRange, fun {j s} => ?_⟩
    refine Threads.forall_advance (Q := fun p : Pc => p.target? = some s → R s)
      (fun j => ht.target) (fun h => ?_) j
    exact (ht.inRange s).mp (Call.inRange_of_target?_start h)
  · intro t i x ht _ _ _
    have hmoved := (t.pc i).moved_step cfg t.shared.engine ⟨t.shared.now, x.wall⟩ x.order
    refine ⟨fun s => ((t.pc i).inRange_step ..).trans (ht.inRange s), fun {j s} => ?_⟩
    refine Threads.forall_advance (Q := fun p : Pc => p.target? = some s → R s)
      (fun j => ht.target) (fun h => ?_) j
    exact (hmoved.target? h).elim ht.target (ht.inRange s).mp

variable (cfg) in
/-- **Ring invariants.** What adding and removing backends keeps holds of the ring in every
run. -/
theorem ring_run {I : ConsistentHashRing hashKey → Prop} {A : Set ℤ}
    (hadd : ∀ r, ∀ s ∈ A, I r → I (r.addServer s))
    (hremove : ∀ r, ∀ s ∈ A, I r → I (r.removeServer s)) {t : World hashKey ι}
    (hI : I t.shared.engine.ring) (ht : Aimed (· ∈ A) t) (hlock : t.Locked Pc.inside)
    (evs : List (Event ι)) : I ((machine hashKey cfg ι).run t evs).shared.engine.ring := by
  refine (machine hashKey cfg ι).run_history (C := fun _ t => I t.shared.engine.ring) hI
    (fun evs ev h => ?_) evs
  have haim := aimed_run cfg ht hlock evs
  generalize (machine hashKey cfg ι).run t evs = u at h haim
  cases ev with
  | tick d => exact h
  | invoke i call =>
    rw [Script.next_invoke]
    split_ifs <;> exact h
  | resume i x =>
    rw [Script.next_resume]
    split_ifs
    · exact h
    show I ((u.pc i).step cfg u.shared.engine _ x.order).1.ring
    rw [Pc.ring_step]
    cases hop : (u.pc i).ringCall? with
    | none => exact h
    | some op =>
      have hs : op.server ∈ A := haim.target (Pc.target?_of_ringCall? hop)
      cases op with
      | addServer s => exact hadd _ s hs h
      | removeServer s => exact hremove _ s hs h

end Runs

end Concurrent

end SessionAffinity
