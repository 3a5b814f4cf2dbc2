import SessionAffinity.Engine.Accounting
import SessionAffinity.Foundations.Refinement
import SessionAffinity.Logger

/-!
# What the log tells

The lines that a request leaves in the request log, stage by stage as the source writes them,
and the log of a whole run (`requestLog`).

What the log is for is said by a reader that knows the lines only: `Reader.machine` takes them
one by one and names an answer as soon as a line settles it. Most answers have a line of their
own. The exception is a failover whose target is offline too: the source returns an error
without a line, so that the reader knows of it only when the next line is not that of a backend.

* **The answers** of any run are those that the reader names (`read_requestLog`).
* **The counters** of the backends are in the log as well: the requests of a client that a
  backend has processed are `#1`, `#2`, … in it, up to the number that the backend has stored
  (`numbered_requestLog`).
-/

namespace SessionAffinity

/-! ### The lines of a request -/

/-- The line that `fullValidation` writes when a check fails. -/
def Security.validationLines (cfg : Config) (sec : Security) (clk : Clock) (ft : FiveTuple)
    (payload : ByteString) : List RequestLine :=
  match (fullValidation cfg sec clk ft payload).2 with
  | .error errorMessage => [⟨ft.toKey, .securityCheck errorMessage⟩]
  | .ok () => []

/-- The line that `allowRequest` writes when it rejects a call. -/
def RateLimiter.limitLines (rl : RateLimiter) (clk : Clock) (clientKey : ByteString) :
    List RequestLine :=
  if (rl.allowRequest clk clientKey).2 then []
  else [⟨clientKey, .rateLimited (rl.rejectedRecord clk).reason⟩]

namespace SessionManager

variable {hashKey : ByteString → UInt64}

/-- What Case 2 of `routeRequest` logs. -/
def createEvent (ring : ConsistentHashRing hashKey) (ft : FiveTuple) : LogEvent :=
  let backend := ring.getServer ft.toKey
  if backend < 0 then .noBackend else .newSession backend

/-- What `routeRequest` logs; every branch of it writes one line. -/
def routeEvent (sm : SessionManager) (ring : ConsistentHashRing hashKey) (clk : Clock)
    (ft : FiveTuple) : LogEvent :=
  let key := ft.toKey
  match sm.sessions[key]? with
  | some entry =>
    if entry.blocked then .routeBlocked
    else if sm.isExpired clk.steady entry then createEvent ring ft
    else if entry.backendId ∈ ring.getActiveServers then .sticky entry.backendId
    else
      let newBackend := ring.getServer key
      if newBackend < 0 then .noFailover else .failover entry.backendId newBackend
  | none => createEvent ring ft

/-- **What routing notes**, for each status it returns. -/
inductive Noted : RequestStatus → LogEvent → Prop
  | blocked : Noted .sessionBlocked .routeBlocked
  | noFailover : Noted .serverDown .noFailover
  | noBackend : Noted .serverDown .noBackend
  | sticky (backend : ℤ) : Noted .success (.sticky backend)
  | newSession (backend : ℤ) : Noted .success (.newSession backend)
  | failover (oldBackend newBackend : ℤ) : Noted .reassigned (.failover oldBackend newBackend)

variable (sm : SessionManager) (ring : ConsistentHashRing hashKey) (clk : Clock) (ft : FiveTuple)
  (assigned : ℤ)

theorem noted_createSession :
    Noted (sm.createSession ring clk ft assigned).2.1 (createEvent ring ft) := by
  simp only [createSession, createEvent]
  split_ifs
  · exact .noBackend
  · exact .newSession _

/-- Routing notes its status. -/
theorem noted_routeRequest :
    Noted (sm.routeRequest ring clk ft assigned).2.1 (sm.routeEvent ring clk ft) := by
  simp only [routeRequest, routeEvent]
  cases sm.sessions[ft.toKey]? with
  | none => exact noted_createSession ..
  | some entry =>
    dsimp only
    split_ifs
    · exact .blocked
    · exact noted_createSession ..
    · exact .sticky _
    · exact .noFailover
    · exact .failover _ _

end SessionManager

/-- The line that `processRequest` writes. -/
def RequestHandler.processLines (b : RequestHandler) (ft : FiveTuple) : List RequestLine :=
  if !b.online then []
  else [⟨ft.toKey, .processed b.id (b.requestCount ft.toKey + 1)⟩]

namespace Engine

variable {hashKey : ByteString → UInt64}

/-- The lines of steps 1 to 3. -/
def precheckLines (cfg : Config) (e : Engine hashKey) (role : LBRole) (rd : Readings)
    (ft : FiveTuple) (payload : ByteString) : List RequestLine :=
  if !e.isActive role then [⟨ft.toKey, .lbPassive role⟩]
  else
    e.security.validationLines cfg rd.validate ft payload ++
      match (Security.fullValidation cfg e.security rd.validate ft payload).2 with
      | .error errorMessage => [⟨ft.toKey, .security errorMessage⟩]
      | .ok () => e.limiter.limitLines rd.limit ft.toKey

/-- The lines of a request that a backend processes. -/
def processLines (role : LBRole) (ft : FiveTuple) (status : RequestStatus) (assigned : ℤ)
    (b : RequestHandler) : List RequestLine :=
  b.processLines ft ++ [⟨ft.toKey, .complete status assigned role⟩]

/-- The lines of step 5. A failover routes once more, and when its target is offline the source
returns without a line. -/
def forwardLines (e : Engine hashKey) (role : LBRole) (rd : Readings) (ft : FiveTuple)
    (status : RequestStatus) (assigned : ℤ) : List RequestLine :=
  if ¬ e.InRange assigned then [⟨ft.toKey, .invalidBackend assigned⟩]
  else
    match e.backend? assigned with
    | none => [⟨ft.toKey, .invalidBackend assigned⟩]
    | some b =>
      if b.online then processLines role ft status assigned b
      else
        let swept := e.evacuate rd.redistribute assigned
        let (e', status', assigned') := e.failover rd ft assigned
        ⟨ft.toKey, swept.sessions.routeEvent swept.ring rd.reroute ft⟩ ::
          if status' = .serverDown ∨ assigned' < 0 then []
          else
            match e'.backend? assigned' with
            | none => []
            | some b => if b.online then processLines role ft status' assigned' b else []

/-- The lines of steps 4 and 5. -/
def dispatchLines (e : Engine hashKey) (role : LBRole) (rd : Readings) (ft : FiveTuple) :
    List RequestLine :=
  let routed := e.sessions.routeRequest e.ring rd.route ft (-1)
  ⟨ft.toKey, e.sessions.routeEvent e.ring rd.route ft⟩ ::
    if routed.2.1 = .sessionBlocked ∨ routed.2.1 = .serverDown then []
    else
      forwardLines { e with sessions := routed.1 } role rd ft routed.2.1 routed.2.2

/-- The lines of `handleRequest`. -/
def requestLines (cfg : Config) (e : Engine hashKey) (role : LBRole) (rd : Readings)
    (ft : FiveTuple) (payload : ByteString) : List RequestLine :=
  e.precheckLines cfg role rd ft payload ++
    match e.precheck cfg role rd ft payload with
    | (_, some _) => []
    | (e, none) => e.dispatchLines role rd ft

/-- The lines of a call; the other calls write to the system log only. -/
def lines (cfg : Config) (e : Engine hashKey) : Op → List RequestLine
  | .request role rd ft payload => e.requestLines cfg role rd ft payload
  | _ => []

/-- The request log of a run from the state `main` builds. -/
def requestLog (hashKey : ByteString → UInt64) (cfg : Config) (ops : List Op) :
    List RequestLine :=
  (machine hashKey cfg).log (lines cfg) (init hashKey cfg) ops

/-! ### The reader -/

/-- How far the reader is with a request. -/
inductive Reader
  /-- Before a request. -/
  | idle
  /-- The request of the client has been routed. -/
  | routed (key : ByteString)
  /-- It has been routed once more. -/
  | rerouted (key : ByteString)
  /-- A backend has processed it. -/
  | processed (key : ByteString) (reply : Reply)

namespace Reader

/-- A line at the start of a request. -/
def start (line : RequestLine) : Reader × List (ByteString × Response) :=
  match line.event with
  | .lbPassive role => (idle, [(line.tupleKey, .notActive role)])
  | .security errorMessage => (idle, [(line.tupleKey, .securityFailed errorMessage)])
  | .rateLimited _ => (idle, [(line.tupleKey, .rateLimited line.tupleKey)])
  | .routeBlocked => (idle, [(line.tupleKey, .blocked line.tupleKey)])
  | .noFailover | .noBackend => (idle, [(line.tupleKey, .noBackends)])
  | .sticky _ | .failover _ _ | .newSession _ => (routed line.tupleKey, [])
  -- a second line about the same failure follows the security check; the others start nothing
  | .securityCheck _ | .invalidBackend _ | .processed _ _ | .complete _ _ _ => (idle, [])

/-- The answer that is settled when no line of a backend follows. -/
def pending : Reader → List (ByteString × Response)
  | rerouted key => [(key, .failoverTargetUnavailable)]
  | _ => []

/-- Read a line. -/
def read (r : Reader) (line : RequestLine) : Reader × List (ByteString × Response) :=
  match r, line.event with
  | routed key, .processed backend n | rerouted key, .processed backend n =>
    (processed key (.processed backend n), [])
  | routed key, .invalidBackend _ => (idle, [(key, .invalidBackend)])
  | routed key, .noFailover | routed key, .noBackend => (idle, [(key, .noBackendsAfterFailover)])
  | routed key, _ => (rerouted key, [])
  | processed key reply, .complete status backend _ =>
    (idle, [(key, .served status backend reply)])
  | r, _ => ((start line).1, r.pending ++ (start line).2)

/-- The reader as a machine. -/
def machine : Machine Reader RequestLine (List (ByteString × Response)) := ⟨read⟩

/-- Between two requests; the last one may be pending. -/
def Between : Reader → Prop
  | idle | rerouted _ => True
  | routed _ | processed _ _ => False

/-- The line of the backend that gave an answer. -/
def processLine? : ByteString × Response → Option RequestLine
  | (key, .served _ _ (.processed backend n)) => some ⟨key, .processed backend n⟩
  | _ => none

/-- Reading the lines settles the answers, of which the last may be pending then. The backends
that have answered are those that have a line. -/
structure Tells (r : Reader) (log : List RequestLine) (settled : List (ByteString × Response)) :
    Prop where
  between : (machine.run r log).Between
  answers : (machine.trace r log).flatMap Prod.snd ++ (machine.run r log).pending = settled
  processed : log.filter RequestLine.isProcessed = settled.filterMap processLine?

theorem tells_nil {r : Reader} (hr : r.Between) : Tells r [] r.pending := by
  refine ⟨hr, rfl, ?_⟩
  cases r <;> rfl

/-- What is pending has no line of a backend. -/
theorem filterMap_pending (r : Reader) (settled : List (ByteString × Response)) :
    (r.pending ++ settled).filterMap processLine? = settled.filterMap processLine? := by
  cases r <;> rfl

/-- More lines settle what was pending before them. -/
theorem Tells.append {r : Reader} {log log' : List RequestLine}
    {settled settled' : List (ByteString × Response)} (h : Tells r log settled)
    (h' : Tells (machine.run r log) log' ((machine.run r log).pending ++ settled')) :
    Tells r (log ++ log') (settled ++ settled') := by
  refine ⟨by rw [Machine.run_append]; exact h'.between, ?_, ?_⟩
  · rw [Machine.trace_append, Machine.run_append, List.flatMap_append, List.append_assoc,
      h'.answers, ← List.append_assoc, h.answers]
  · rw [List.filter_append, List.filterMap_append, h.processed, h'.processed, filterMap_pending]

/-- A line that is not a backend's, in front of others. -/
theorem Tells.cons {r r' : Reader} {line : RequestLine} {log : List RequestLine}
    {before settled : List (ByteString × Response)} (hread : r.read line = (r', before))
    (hline : line.isProcessed = false) (hbefore : before.filterMap processLine? = [])
    (h : Tells r' log settled) : Tells r (line :: log) (before ++ settled) := by
  have hnext : machine.next r line = r' := congrArg Prod.fst hread
  have hanswer : machine.answer r line = before := congrArg Prod.snd hread
  refine ⟨by rw [Machine.run_cons, hnext]; exact h.between, ?_, ?_⟩
  · rw [Machine.trace_cons, Machine.run_cons, List.flatMap_cons, hnext, hanswer,
      List.append_assoc, h.answers]
  · rw [List.filter_cons_of_neg (by simp [hline]), h.processed, List.filterMap_append, hbefore,
      List.nil_append]

/-- Between requests, a line that is not a backend's starts a request. -/
theorem read_of_between {r : Reader} (hr : r.Between) {line : RequestLine}
    (hline : line.isProcessed = false) :
    r.read line = ((start line).1, r.pending ++ (start line).2) := by
  obtain ⟨key, event⟩ := line
  cases r with
  | idle => cases event <;> rfl
  | rerouted key =>
    cases event with
    | processed backend n => exact Bool.noConfusion hline
    | _ => rfl
  | routed | processed => exact absurd hr id

/-- A line that starts a request and leaves nothing to the next ones. -/
theorem tells_of_start {r : Reader} (hr : r.Between) {line : RequestLine}
    {settled : List (ByteString × Response)} (hline : line.isProcessed = false)
    (hstart : start line = (idle, settled)) (hsettled : settled.filterMap processLine? = []) :
    Tells r [line] (r.pending ++ settled) := by
  have hread : r.read line = (idle, r.pending ++ settled) := by
    rw [read_of_between hr hline, hstart]
  have h := Tells.cons hread hline (by rw [filterMap_pending, hsettled])
    (tells_nil (r := idle) trivial)
  rwa [show idle.pending = [] from rfl, List.append_nil] at h

/-- A line that routes a request leaves it to the next ones. -/
theorem tells_of_routed {r : Reader} (hr : r.Between) {line : RequestLine}
    {log : List RequestLine} {settled : List (ByteString × Response)}
    (hline : line.isProcessed = false) (hstart : start line = (routed line.tupleKey, []))
    (h : Tells (routed line.tupleKey) log settled) :
    Tells r (line :: log) (r.pending ++ settled) := by
  have hread : r.read line = (routed line.tupleKey, r.pending) := by
    rw [read_of_between hr hline, hstart, List.append_nil]
  refine Tells.cons hread hline ?_ h
  cases r <;> rfl

end Reader

/-- The answers that a log tells of. -/
def readLog (log : List RequestLine) : List (ByteString × Response) :=
  (Reader.machine.trace .idle log).flatMap Prod.snd ++ (Reader.machine.run .idle log).pending

/-- The client and the answer of a request. -/
def answered : Op × Answer → Option (ByteString × Response)
  | (.request _ _ ft _, .response r) => some (ft.toKey, r)
  | _ => none

/-- The answers of a run, with their clients. -/
def answers (hashKey : ByteString → UInt64) (cfg : Config) (ops : List Op) :
    List (ByteString × Response) :=
  ((machine hashKey cfg).trace (init hashKey cfg) ops).filterMap answered

/-! ### What the lines of a request tell -/

section Request

variable {e : Engine hashKey} {role : LBRole} {rd : Readings} {ft : FiveTuple}

/-- The lines of a backend settle the request that has been routed to it. -/
theorem tells_process (e : Engine hashKey) (role : LBRole) (rd : Readings) (ft : FiveTuple)
    (status : RequestStatus) (assigned : ℤ) {b : RequestHandler} (hon : b.online = true)
    {r : Reader} (hr : r = .routed ft.toKey ∨ r = .rerouted ft.toKey) :
    r.Tells (processLines role ft status assigned b)
      [(ft.toKey, (e.process rd ft status assigned b).2)] := by
  rw [process_snd e assigned hon, processLines, RequestHandler.processLines, if_neg (by simp [hon])]
  rcases hr with rfl | rfl <;> exact ⟨trivial, rfl, rfl⟩

/-- Where routing leads when it leads somewhere. -/
theorem assigned_nonneg {sm : SessionManager} {ring : ConsistentHashRing hashKey} {clk : Clock}
    {assigned : ℤ} (hring : ∀ s ∈ ring.activeServers, 0 ≤ s) (hassigned : 0 ≤ assigned)
    {r : SessionManager × RequestStatus × ℤ}
    (hr : SessionManager.Routed sm ring clk ft assigned r) : 0 ≤ r.2.2 := by
  cases hr with
  | blocked | stranded | unplaced => exact hassigned
  | sticky _ _ _ ha => exact hring _ ha
  | failover _ _ _ _ hs | created _ hs => exact hs

/-- Routing once more leaves the request to the lines that follow, unless it finds no backend. -/
theorem tells_of_noted {key : ByteString} {status : RequestStatus} {event : LogEvent}
    (h : SessionManager.Noted status event) (hs : status ≠ .serverDown) {log : List RequestLine}
    {settled : List (ByteString × Response)} (hlog : Reader.Tells (.rerouted key) log settled) :
    Reader.Tells (.routed key) (⟨key, event⟩ :: log) settled := by
  cases h with
  | noFailover | noBackend => exact absurd rfl hs
  | _ => exact Reader.Tells.cons rfl rfl rfl hlog

/-- **The lines of step 5** settle a request that has been routed. -/
theorem tells_forward (hring : ∀ s ∈ e.ring.activeServers, 0 ≤ s) (status : RequestStatus)
    (assigned : ℤ) : Reader.Tells (.routed ft.toKey)
      (e.forwardLines role rd ft status assigned)
      [(ft.toKey, (e.forward rd ft status assigned).2)] := by
  rw [forwardLines, forward]
  by_cases hr : e.InRange assigned
  swap
  · rw [if_pos hr, if_pos hr]
    exact ⟨trivial, rfl, rfl⟩
  rw [if_neg (not_not.mpr hr), if_neg (not_not.mpr hr)]
  obtain ⟨b, hb⟩ := hr.exists_backend
  simp only [hb]
  cases hon : b.online with
  | true =>
    exact e.tells_process role rd ft status assigned hon (.inl rfl)
  | false =>
    have hnoted := (e.evacuate rd.redistribute assigned).sessions.noted_routeRequest
      (e.evacuate rd.redistribute assigned).ring rd.reroute ft assigned
    generalize (e.evacuate rd.redistribute assigned).sessions.routeEvent _ _ _ = event
      at hnoted ⊢
    rcases hf : e.failover rd ft assigned with ⟨e', status', assigned'⟩
    have hstatus : _ = status' := congrArg (fun r => r.2.1) hf
    rw [show (SessionManager.routeRequest _ _ _ _ _).2.1 = status' from hstatus] at hnoted
    have hnonneg : 0 ≤ assigned' := assigned_nonneg
      (fun s hs => hring s ((ConsistentHashRing.mem_activeServers_removeServer _ _).mp hs).2) hr.1
      (routed_failover hf).2.2
    simp only [Bool.false_eq_true, if_false]
    by_cases hs : status' = .serverDown ∨ assigned' < 0
    · obtain rfl := hs.resolve_right (not_lt.mpr hnonneg)
      rw [if_pos hs, if_pos hs]
      cases hnoted <;> exact ⟨trivial, rfl, rfl⟩
    · rw [if_neg hs, if_neg hs]
      cases e'.backend? assigned' with
      | none => exact tells_of_noted hnoted (not_or.mp hs).1 (Reader.tells_nil trivial)
      | some b' =>
        dsimp only
        split_ifs with hon'
        · exact tells_of_noted hnoted (not_or.mp hs).1
            (e'.tells_process role rd ft status' assigned' hon' (.inr rfl))
        · exact tells_of_noted hnoted (not_or.mp hs).1 (Reader.tells_nil trivial)

/-- **The lines of steps 4 and 5.** -/
theorem tells_dispatch (hring : ∀ s ∈ e.ring.activeServers, 0 ≤ s) {r : Reader}
    (hr : r.Between) :
    r.Tells (e.dispatchLines role rd ft) (r.pending ++ [(ft.toKey, (e.dispatch rd ft).2)]) := by
  have hnoted := e.sessions.noted_routeRequest e.ring rd.route ft (-1)
  rw [dispatchLines, dispatch]
  generalize e.sessions.routeRequest e.ring rd.route ft (-1) = routed at hnoted ⊢
  obtain ⟨sessions, status, assigned⟩ := routed
  dsimp only at hnoted ⊢
  generalize e.sessions.routeEvent e.ring rd.route ft = event at hnoted ⊢
  have hforward : Reader.Tells (.routed ft.toKey)
      (forwardLines { e with sessions := sessions } role rd ft status assigned)
      [(ft.toKey, (forward { e with sessions := sessions } rd ft status assigned).2)] := by
    refine tells_forward ?_ status assigned
    exact hring
  cases hnoted with
  | blocked =>
    rw [if_pos (.inl rfl), if_pos rfl]
    exact Reader.tells_of_start hr rfl rfl rfl
  | noFailover | noBackend =>
    rw [if_pos (.inr rfl), if_neg (by simp), if_pos rfl]
    exact Reader.tells_of_start hr rfl rfl rfl
  | sticky | newSession | failover =>
    rw [if_neg (by simp), if_neg (by simp), if_neg (by simp)]
    exact Reader.tells_of_routed hr rfl rfl hforward

/-- **The lines of a request** tell its answer. -/
theorem tells_request (cfg : Config) (hring : ∀ s ∈ e.ring.activeServers, 0 ≤ s)
    (payload : ByteString) {r : Reader} (hr : r.Between) :
    r.Tells (e.requestLines cfg role rd ft payload)
      (r.pending ++ [(ft.toKey, (e.handleRequest cfg role rd ft payload).2)]) := by
  rw [requestLines, handleRequest, precheckLines, precheck]
  cases e.isActive role with
  | false => exact Reader.tells_of_start hr rfl rfl rfl
  | true =>
    simp only [Bool.not_true, Bool.false_eq_true, if_false]
    rw [Security.validationLines]
    cases (Security.fullValidation cfg e.security rd.validate ft payload).2 with
    | error errorMessage =>
      have hcheck : r.Tells [⟨ft.toKey, .securityCheck errorMessage⟩] (r.pending ++ []) :=
        Reader.tells_of_start hr rfl rfl rfl
      rw [List.append_nil] at hcheck
      refine hcheck.append (Reader.tells_of_start hcheck.between rfl rfl ?_)
      rfl
    | ok =>
      dsimp only
      rw [RateLimiter.limitLines]
      cases (e.limiter.allowRequest rd.limit ft.toKey).2 with
      | false => exact Reader.tells_of_start hr rfl rfl rfl
      | true =>
        simp only [if_true, List.nil_append]
        refine tells_dispatch ?_ hr
        exact hring

end Request

/-! ### What the log of a run tells -/

/-- The log of a run tells its answers. -/
theorem tells_requestLog (cfg : Config) (ops : List Op) :
    Reader.Tells .idle (requestLog hashKey cfg ops) (answers hashKey cfg ops) := by
  induction ops using List.reverseRecOn with
  | nil => exact ⟨trivial, rfl, rfl⟩
  | append_singleton ops op ih =>
    rw [requestLog, answers, Machine.log_concat, Machine.trace_concat, List.filterMap_append]
    refine ih.append ?_
    cases op with
    | request role rd ft payload =>
      have hring : ∀ s ∈ (afterOps hashKey cfg ops).ring.activeServers, 0 ≤ s :=
        fun s hs => (inRange_of_mem_activeServers s hs).1
      exact tells_request cfg hring payload ih.between
    | _ =>
      -- nothing is written, and nothing is answered to a client
      rw [List.filterMap_cons]
      exact (List.append_nil _).symm ▸ Reader.tells_nil ih.between

/-- **The log tells the answers.** After any run, with backends crashing, recovering and failing
over, the answers that the reader names are those that were given. -/
theorem read_requestLog (hashKey : ByteString → UInt64) (cfg : Config) (ops : List Op) :
    readLog (requestLog hashKey cfg ops) = answers hashKey cfg ops :=
  (tells_requestLog cfg ops).answers

/-! ### What the log tells of the backends -/

/-- What a request leaves at the backends: nothing, or it is one more of its client's at one of
them, with the next number. -/
inductive Numbered (e : Engine hashKey) (rd : Readings) (ft : FiveTuple)
    (r : Engine hashKey × Response) : Prop
  | nowhere (hline : Reader.processLine? (ft.toKey, r.2) = none)
      (hback : r.1.backends = e.backends)
  | next {s : ℤ} {b : RequestHandler} (hb : e.backend? s = some b) (hon : b.online = true)
      (hline : Reader.processLine? (ft.toKey, r.2) =
        some ⟨ft.toKey, .processed s (b.requestCount ft.toKey + 1)⟩)
      (hback : r.1.backends =
        (e.modifyBackend s fun b => (b.processRequest rd.timestamp ft).1).backends)

section Numbers

variable {e : Engine hashKey} {rd : Readings} {ft : FiveTuple}

theorem Forwarded.numbered (hid : ∀ s b, e.backend? s = some b → b.id = s)
    {status : RequestStatus} {assigned : ℤ} {r : Engine hashKey × Response}
    (h : Forwarded e rd ft status assigned r) : Numbered e rd ft r := by
  cases h with
  | invalid => exact .nowhere rfl rfl
  | direct hr hb hon =>
    refine .next hb hon ?_ rfl
    rw [process_snd _ _ hon, hid _ _ hb]
    rfl
  | lost _ _ hf | unavailable _ _ hf => exact .nowhere rfl (routed_failover hf).1
  | @moved _ _ e' status' assigned' b hf _ hb hon =>
    have hback : e'.backends = e.backends := (routed_failover hf).1
    have hb' : e.backend? assigned' = some b := by rwa [backend?, ← hback]
    refine .next hb' hon ?_ (congrArg (List.modify · _ _) hback)
    rw [process_snd _ _ hon, hid _ _ hb']
    rfl

theorem numbered_request (hid : ∀ s b, e.backend? s = some b → b.id = s) (cfg : Config)
    (role : LBRole) (payload : ByteString) :
    Numbered e rd ft (e.handleRequest cfg role rd ft payload) := by
  obtain ⟨security, limiter, ⟨response, hpass, hreq⟩ | ⟨-, hreq⟩⟩ :=
    e.handleRequest_cases cfg role rd ft payload
  · rw [hreq]
    rcases refusal_of_precheck hpass with ⟨_, rfl⟩ | ⟨_, rfl⟩ | ⟨_, rfl⟩ <;>
      exact .nowhere rfl rfl
  · rw [hreq]
    have h := dispatched_dispatch { e with security, limiter } rd ft
    dsimp only at h
    generalize e.sessions.routeRequest e.ring rd.route ft (-1) = routed at h
    generalize dispatch { e with security, limiter } rd ft = r at h ⊢
    cases h with
    | blocked | serverDown => exact .nowhere rfl rfl
    | forwarded _ _ hf =>
      cases Forwarded.numbered (e := { e with security, limiter, sessions := routed.1 }) hid hf with
      | nowhere hline hback => exact .nowhere hline hback
      | next hb hon hline hback => exact .next hb hon hline hback

/-- The requests of a client that a backend has processed, as lines of the log. -/
def numberedLines (s : ℤ) (key : ByteString) (n : ℕ) : List RequestLine :=
  (List.range n).map fun i => ⟨key, .processed s (i + 1)⟩

/-- A request adds its line to those of its client and its backend. -/
theorem Numbered.lines {r : Engine hashKey × Response} (h : Numbered e rd ft r) (s : ℤ)
    (key : ByteString) : numberedLines s key (r.1.requestCount s key) =
      numberedLines s key (e.requestCount s key) ++
        ([(ft.toKey, r.2)].filterMap Reader.processLine?).filter (·.isProcessedBy s key) := by
  cases h with
  | nowhere hline hback =>
    have hcount : r.1.requestCount s key = e.requestCount s key := by
      rw [requestCount, requestCount, backend?, backend?, hback]
    rw [hcount, List.filterMap_cons, hline, List.filterMap_nil, List.filter_nil, List.append_nil]
  | @next t b hb hon hline hback =>
    have hcount : r.1.requestCount s key =
        e.requestCount s key + if s = t ∧ key = ft.toKey then 1 else 0 := by
      have hmodify := backend?_modifyBackend (e := e) (nonneg_of_backend? hb)
        (fun b => (b.processRequest rd.timestamp ft).1) s
      rw [backend?] at hmodify
      rw [requestCount, requestCount, backend?, hback, hmodify]
      by_cases hs : s = t
      · rw [if_pos hs, hs, hb]
        simpa using RequestHandler.requestCount_processRequest rd.timestamp ft hon key
      · rw [if_neg hs, if_neg (fun h => hs h.1), Nat.add_zero]
    rw [hcount, List.filterMap_cons, hline, List.filterMap_nil]
    by_cases hkey : s = t ∧ key = ft.toKey
    · obtain ⟨rfl, rfl⟩ := hkey
      have hold : e.requestCount s ft.toKey = b.requestCount ft.toKey := by
        rw [requestCount, hb]
        rfl
      simp [numberedLines, List.range_succ, RequestLine.isProcessedBy, hold]
    · have hother : ¬ (t = s ∧ ft.toKey = key) := fun h => hkey ⟨h.1.symm, h.2.symm⟩
      simp [hkey, RequestLine.isProcessedBy, hother]

end Numbers

/-- What the backends have stored is the same if they store the same. -/
theorem requestCount_congr {e e' : Engine hashKey} {key : ByteString}
    (h : e'.backends.map (·.requestCount key) = e.backends.map (·.requestCount key)) (s : ℤ) :
    e'.requestCount s key = e.requestCount s key := by
  have hmap (e : Engine hashKey) : e.requestCount s key =
      (if 0 ≤ s then (e.backends.map (·.requestCount key))[s.toNat]? else none).getD 0 := by
    rw [requestCount, backend?]
    split_ifs
    · rw [List.getElem?_map]
    · rfl
  rw [hmap, hmap, h]

/-- Only requests are counted. -/
theorem requestCount_next (cfg : Config) (e : Engine hashKey) {op : Op}
    (hop : ∀ role rd ft payload, op ≠ .request role rd ft payload) (s : ℤ) (key : ByteString) :
    ((machine hashKey cfg).next e op).requestCount s key = e.requestCount s key := by
  refine requestCount_congr ?_ s
  cases op with
  | request role rd ft payload => exact absurd rfl (hop role rd ft payload)
  | setActive role active => cases role <;> rfl
  | takeBackendOffline clk serverId =>
    simp only [Machine.next, machine, takeBackendOffline]
    split_ifs
    · exact map_modifyBackend fun _ => rfl
    · rfl
  | bringBackendOnline serverId =>
    simp only [Machine.next, machine, bringBackendOnline]
    split_ifs
    · exact map_modifyBackend fun _ => rfl
    · rfl
  | crash serverId =>
    simp only [Machine.next, machine]
    split_ifs
    · exact map_modifyBackend fun _ => rfl
    · rfl
  | cleanupExpired | forceReassign | blockSession | setSessionExpiry => rfl

theorem requestCount_init (cfg : Config) (s : ℤ) (key : ByteString) :
    (init hashKey cfg).requestCount s key = 0 := by
  rw [requestCount, backend?]
  split_ifs
  · rw [init, List.getElem?_map]
    cases (List.range cfg.numBackendServers)[s.toNat]? <;>
      simp [RequestHandler.init, RequestHandler.requestCount]
  · rfl

/-- The answers of a run, as lines of the backends. -/
theorem numbered_answers (cfg : Config) (ops : List Op) (s : ℤ) (key : ByteString) :
    ((answers hashKey cfg ops).filterMap Reader.processLine?).filter (·.isProcessedBy s key) =
      numberedLines s key ((afterOps hashKey cfg ops).requestCount s key) := by
  induction ops using List.reverseRecOn with
  | nil =>
    rw [show afterOps hashKey cfg [] = init hashKey cfg from rfl, requestCount_init]
    rfl
  | append_singleton ops op ih =>
    rw [answers, Machine.trace_concat, List.filterMap_append, ← answers, List.filterMap_append,
      List.filter_append, ih, afterOps_concat]
    cases op with
    | request role rd ft payload =>
      have hnumbered : Numbered (afterOps hashKey cfg ops) rd ft
          ((afterOps hashKey cfg ops).handleRequest cfg role rd ft payload) :=
        numbered_request (fun _ _ => id_of_backend?) cfg role payload
      exact (hnumbered.lines s key).symm
    | _ =>
      rw [requestCount_next cfg _ (fun _ _ _ _ => Op.noConfusion)]
      exact List.append_nil _

/-- **The log tells the counters.** After any run, the lines of a backend about a client are
numbered `#1`, `#2`, … up to the number of requests that the backend has stored for it. -/
theorem numbered_requestLog (hashKey : ByteString → UInt64) (cfg : Config) (ops : List Op) (s : ℤ)
    (key : ByteString) :
    (requestLog hashKey cfg ops).filter (·.isProcessedBy s key) =
      (List.range ((afterOps hashKey cfg ops).requestCount s key)).map fun i =>
        ⟨key, .processed s (i + 1)⟩ := by
  have hprocessed : (requestLog hashKey cfg ops).filter (·.isProcessedBy s key) =
      ((requestLog hashKey cfg ops).filter RequestLine.isProcessed).filter
        (·.isProcessedBy s key) := by
    rw [List.filter_filter]
    refine List.filter_congr fun line _ => ?_
    obtain ⟨k, event⟩ := line
    cases event <;> simp [RequestLine.isProcessed, RequestLine.isProcessedBy]
  rw [hprocessed, (tells_requestLog cfg ops).processed]
  exact numbered_answers cfg ops s key

end Engine

end SessionAffinity
