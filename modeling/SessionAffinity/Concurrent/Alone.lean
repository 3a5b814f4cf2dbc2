import SessionAffinity.Concurrent

/-!
# A call that runs alone

The steps of `Pc.step` are those of the sequential engine. A call that no other thread
interrupts, and that reads every clock at one moment, leaves the engine and gives the answer of
`Engine.machine` (`finishes_call`), whatever order its loop visits the session table in, and so
does a run of the threads in which only one of them moves (`run_alone`).

`Finishes` collects the steps of one thread up to the answer. Each critical section has a lemma
that goes from its entry to what the caller does with the result.
-/

namespace SessionAffinity

namespace Concurrent

variable {hashKey : ByteString → UInt64} {cfg : Config} {clk : Clock}

/-- A thread that takes its steps alone gets to the answer, and leaves the engine so. -/
inductive Finishes (cfg : Config) (clk : Clock) :
    Engine hashKey × Pc × Option Engine.Answer → Engine hashKey × Engine.Answer → Prop
  | done (e : Engine hashKey) (a : Engine.Answer) : Finishes cfg clk (e, .idle, some a) (e, a)
  | step {e : Engine hashKey} {p : Pc} {result : Engine hashKey × Engine.Answer}
      (order : List ByteString) (h : Finishes cfg clk (p.step cfg e clk order) result) :
      Finishes cfg clk (e, p, none) result

/-- The call on the sequential engine, with all clocks read at one moment. -/
def Call.op (clk : Clock) : Call → Engine.Op
  | handleRequest r => .request r.role (.at clk) r.ft r.payload
  | takeBackendOffline serverId => .takeBackendOffline clk serverId
  | bringBackendOnline serverId => .bringBackendOnline serverId
  | forceReassign key => .forceReassign clk key

variable {e : Engine hashKey} {result : Engine hashKey × Engine.Answer}

/-! ### Critical sections -/

section Routing

variable {r : Request} {again : Bool} {assigned : ℤ}

/-- Case 2 of `routeRequest`. -/
theorem finishes_create {sm : SessionManager} {routed : SessionManager × RequestStatus × ℤ}
    (hrouted : sm.createSession e.ring clk r.ft assigned = routed)
    (h : Finishes cfg clk ({ e with sessions := routed.1 },
      Pc.afterRouting r again routed.2.1 routed.2.2) result) :
    Finishes cfg clk ({ e with sessions := sm },
      .routeRequest r again assigned (.create clk.steady), none) result := by
  refine .step [] ?_
  rw [SessionManager.createSession] at hrouted
  by_cases hs : e.ring.getServer r.ft.toKey < 0
  · simp only [Pc.step, Routing.step, hs, if_true] at hrouted ⊢
    rwa [← hrouted] at h
  · simp only [Pc.step, Routing.step, hs, if_false] at hrouted ⊢
    rw [← hrouted] at h
    exact .step [] h

/-- `routeRequest`, from the lock to what `handleRequest` does with its result. -/
theorem finishes_routeRequest {routed : SessionManager × RequestStatus × ℤ}
    (hrouted : e.sessions.routeRequest e.ring clk r.ft assigned = routed)
    (h : Finishes cfg clk ({ e with sessions := routed.1 },
      Pc.afterRouting r again routed.2.1 routed.2.2) result) :
    Finishes cfg clk (e, .routeRequest r again assigned .enter, none) result := by
  refine .step [] (.step [] ?_)
  cases he : e.sessions.sessions[r.ft.toKey]? with
  | none =>
    simp only [SessionManager.routeRequest, he] at hrouted
    simp only [Pc.step, Routing.step, he]
    exact finishes_create hrouted h
  | some entry =>
    cases hb : entry.blocked with
    | true =>
      rw [SessionManager.routeRequest_of_blocked _ _ _ he hb] at hrouted
      simp only [Pc.step, Routing.step, he, hb, if_true]
      rwa [← hrouted] at h
    | false =>
      simp only [Pc.step, Routing.step, he, hb, Bool.false_eq_true, if_false]
      by_cases hx : e.sessions.isExpired clk.steady entry = true
      · simp only [hx, if_true]
        refine finishes_create ?_ h
        rw [← hrouted]
        simp [SessionManager.routeRequest, he, hb, hx]
      have hlive := Bool.not_eq_true _ ▸ hx
      simp only [hlive, Bool.false_eq_true, if_false]
      refine .step [] ?_
      by_cases hact : entry.backendId ∈ e.ring.getActiveServers
      · rw [SessionManager.routeRequest_of_sticky _ _ _ he hb hlive hact] at hrouted
        simp only [Pc.step, Routing.step, hact, if_true]
        rw [← hrouted] at h
        exact .step [] h
      · rw [SessionManager.routeRequest_of_inactive _ _ _ he hb hlive hact] at hrouted
        simp only [Pc.step, Routing.step, hact, if_false]
        refine .step [] ?_
        by_cases hs : e.ring.getServer r.ft.toKey < 0
        · simp only [Pc.step, Routing.step, hs, if_true] at hrouted ⊢
          rwa [← hrouted] at h
        · simp only [Pc.step, Routing.step, hs, if_false] at hrouted ⊢
          rw [← hrouted] at h
          exact .step [] h

end Routing

section Sweep

variable {serverId : ℤ} {ro : Option Request}

/-- What follows a sweep: the second routing of a failover, or the return. -/
def afterSweep (serverId : ℤ) : Option Request → Pc × Option Engine.Answer
  | some r => (.routeRequest r true serverId .enter, none)
  | none => (.idle, some .done)

variable (cfg clk e result serverId ro) in
/-- The loop of `handleServerDown` redistributes the session it visits. -/
theorem finishes_visit (key : ByteString) (todo : List ByteString) :
    ∃ sm, sm.defaultTimeoutSec = e.sessions.defaultTimeoutSec ∧
      (∀ k, sm.sessions[k]? = if k = key then
          (e.sessions.sessions[k]?).map (e.sessions.redistribute e.ring clk serverId k)
        else e.sessions.sessions[k]?) ∧
      (Finishes cfg clk
          ({ e with sessions := sm }, .handleServerDown serverId ro (.scan todo), none) result →
        Finishes cfg clk (e, .handleServerDown serverId ro (.scan (key :: todo)), none)
          result) := by
  cases he : e.sessions.sessions[key]? with
  | none =>
    refine ⟨e.sessions, rfl, fun k => ?_, fun h => .step [] ?_⟩
    · split_ifs with hk
      · rw [hk, he]
        rfl
      · rfl
    · simpa only [Pc.step, Sweep.step, he] using h
  | some entry =>
    -- unless the session is moved, it is left as it is
    have hleft (hr : e.sessions.redistribute e.ring clk serverId key entry = entry)
        (k : ByteString) :
        e.sessions.sessions[k]? = if k = key then
          (e.sessions.sessions[k]?).map (e.sessions.redistribute e.ring clk serverId k)
        else e.sessions.sessions[k]? := by
      split_ifs with hk
      · rw [hk, he, Option.map_some, hr]
      · rfl
    by_cases hon : entry.backendId = serverId ∧ e.sessions.isExpired clk.steady entry = false
    · by_cases hs : e.ring.getServer key ≥ 0 ∧ e.ring.getServer key ≠ serverId
      · refine ⟨e.sessions.put key (e.sessions.redistribute e.ring clk serverId key entry), rfl,
          fun k => ?_, fun h => .step [] ?_⟩
        · split_ifs with hk
          · rw [hk, he, SessionManager.sessions_put_self, Option.map_some]
          · exact SessionManager.sessions_put_of_ne _ _ (Ne.symm hk) _
        · simp only [Pc.step, Sweep.step, he, hon, and_self, if_true]
          refine .step [] ?_
          simp only [Pc.step, Sweep.step, hs, ne_eq, not_false_eq_true, and_self, if_true]
          refine .step [] ?_
          simp only [SessionManager.redistribute, hon, hs, ne_eq, not_false_eq_true, and_self,
            if_true] at h
          simpa only [Pc.step, Sweep.step, hon] using h
      · refine ⟨e.sessions, rfl, hleft (by simp only [SessionManager.redistribute, hs, if_false,
          ite_self]), fun h => .step [] ?_⟩
        simp only [Pc.step, Sweep.step, he, hon, and_self, if_true]
        refine .step [] ?_
        simpa only [Pc.step, Sweep.step, hs, if_false] using h
    · refine ⟨e.sessions, rfl, hleft (if_neg hon), fun h => .step [] ?_⟩
      simpa only [Pc.step, Sweep.step, he, hon, if_false] using h

/-- The loop of `handleServerDown` redistributes the sessions it has yet to visit. -/
theorem finishes_scan {todo : List ByteString} (hnodup : todo.Nodup)
    (h : ∀ sm, sm.defaultTimeoutSec = e.sessions.defaultTimeoutSec →
      (∀ k, sm.sessions[k]? = if k ∈ todo then
          (e.sessions.sessions[k]?).map (e.sessions.redistribute e.ring clk serverId k)
        else e.sessions.sessions[k]?) →
      Finishes cfg clk ({ e with sessions := sm }, afterSweep serverId ro) result) :
    Finishes cfg clk (e, .handleServerDown serverId ro (.scan todo), none) result := by
  induction todo generalizing e with
  | nil =>
    refine .step [] ?_
    have h := h e.sessions rfl fun k => by simp
    cases ro <;> exact h
  | cons key todo ih =>
    obtain ⟨sm, htimeout, hsm, hvisit⟩ := finishes_visit cfg clk e result serverId ro key todo
    rw [List.nodup_cons] at hnodup
    refine hvisit (ih hnodup.2 fun sm' htimeout' hsm' =>
      h sm' (htimeout'.trans htimeout) fun k => ?_)
    have hsame : sm.redistribute e.ring clk serverId k =
        e.sessions.redistribute e.ring clk serverId k :=
      SessionManager.redistribute_congr htimeout e.ring clk serverId k
    rw [hsm' k]
    by_cases hk : k = key
    · subst hk
      simp [hnodup.1, hsm]
    · simp [hk, hsm, hsame]

/-- `handleServerDown`, from the lock to what follows it, for every order of the loop. -/
theorem finishes_handleServerDown {order : List ByteString}
    (horder : order.Perm e.sessions.sessions.keys)
    (h : Finishes cfg clk ({ e with
      sessions := e.sessions.handleServerDown e.ring clk serverId }, afterSweep serverId ro)
      result) :
    Finishes cfg clk (e, .handleServerDown serverId ro .enter, none) result := by
  refine .step order ?_
  simp only [Pc.step, Sweep.step, horder, if_true]
  refine finishes_scan (horder.nodup_iff.mpr Std.ExtTreeMap.nodup_keys) fun sm htimeout hsm => ?_
  have hsessions : sm.sessions =
      (e.sessions.handleServerDown e.ring clk serverId).sessions := by
    refine Std.ExtTreeMap.ext_getElem? fun k => ?_
    rw [hsm k, SessionManager.sessions_handleServerDown]
    split_ifs with hk
    · rfl
    · have hnone : e.sessions.sessions[k]? = none :=
        Std.ExtTreeMap.getElem?_eq_none fun hmem =>
          hk (horder.mem_iff.mpr (Std.ExtTreeMap.mem_keys.mpr hmem))
      rw [hnone]
      rfl
  have hsm' : sm = e.sessions.handleServerDown e.ring clk serverId := by
    calc sm = ⟨sm.defaultTimeoutSec, sm.sessions⟩ := rfl
      _ = e.sessions.handleServerDown e.ring clk serverId := by rw [htimeout, hsessions]; rfl
  rwa [hsm']

end Sweep

/-- `forceReassign`, from the lock to the return. -/
theorem finishes_forceReassign (key : ByteString) :
    Finishes cfg clk (e, .forceReassign key .enter, none)
      ({ e with sessions := (e.sessions.forceReassign e.ring clk key).1 },
        .found (e.sessions.forceReassign e.ring clk key).2) := by
  refine .step [] (.step [] ?_)
  cases he : e.sessions.sessions[key]? with
  | none =>
    simp only [SessionManager.forceReassign, Pc.step, Forcing.step, he]
    exact .done e _
  | some entry =>
    simp only [SessionManager.forceReassign, SessionManager.forcedBackend, Pc.step, Forcing.step,
      he]
    refine .step [] ?_
    by_cases hneg : e.ring.getServer key < 0
    · simp only [Pc.step, Forcing.step, hneg, if_true]
      exact .done e _
    by_cases hold : e.ring.getServer key = entry.backendId
    · rw [hold] at hneg
      simp only [Pc.step, Forcing.step, hneg, hold, if_true, if_false]
      refine .step [] ?_
      by_cases hfew : e.ring.getActiveServers.length ≤ 1
      · simp only [Pc.step, Forcing.step, hfew, if_true]
        exact .done e _
      · simp only [Pc.step, Forcing.step, hfew, if_false]
        exact .step [] (.done _ _)
    · simp only [Pc.step, Forcing.step, hneg, hold, if_false]
      exact .step [] (.done _ _)

/-! ### Calls -/

section Calls

variable {r : Request} {status : RequestStatus} {assigned : ℤ}

/-- The failover of a request, up to what follows its second routing. -/
theorem finishes_failover {e' : Engine hashKey} {status' : RequestStatus} {assigned' : ℤ}
    (hf : e.failover (.at clk) r.ft assigned = (e', status', assigned'))
    (h : Finishes cfg clk (e', Pc.afterRouting r true status' assigned') result) :
    Finishes cfg clk (e, .evict r assigned, none) result := by
  refine .step [] (finishes_handleServerDown (List.Perm.refl _) ?_)
  rcases hrouted : (e.evacuate clk assigned).sessions.routeRequest (e.evacuate clk assigned).ring
    clk r.ft assigned with ⟨sm, status, s⟩
  simp only [Engine.failover, Readings.at, hrouted, Prod.mk.injEq] at hf
  obtain ⟨rfl, rfl, rfl⟩ := hf
  exact finishes_routeRequest hrouted h

theorem finishes_process {b : RequestHandler} (hb : e.backend? assigned = some b) :
    Finishes cfg clk (e, .process r status assigned, none)
      ((e.process (.at clk) r.ft status assigned b).1,
        .response (e.process (.at clk) r.ft status assigned b).2) := by
  refine .step [] ?_
  simp only [Pc.step, hb]
  exact .done _ _

/-- Step 5. -/
theorem finishes_forward {forwarded : Engine hashKey × Response}
    (h : Engine.Forwarded e (.at clk) r.ft status assigned forwarded) :
    Finishes cfg clk (e, .checkOnline r false status assigned, none)
      (forwarded.1, .response forwarded.2) := by
  refine .step [] ?_
  cases h with
  | invalid hr =>
    simp only [Pc.step, hr, not_false_eq_true, and_self, if_true]
    exact .done e _
  | direct hr hb hon =>
    have hon' : e.isOnline assigned = true := Engine.isOnline_eq_true_iff.mpr ⟨_, hb, hon⟩
    simp only [Pc.step, hr, hon', not_true_eq_false, and_false, if_true, if_false]
    exact finishes_process hb
  | lost hr hoff hf hs =>
    simp only [Pc.step, hr, hoff, not_true_eq_false, and_false, Bool.false_eq_true, if_false]
    refine finishes_failover hf ?_
    simp only [Pc.afterRouting, hs, if_true]
    exact .done _ _
  | unavailable hr hoff hf hs hoff' =>
    simp only [Pc.step, hr, hoff, not_true_eq_false, and_false, Bool.false_eq_true, if_false]
    refine finishes_failover hf ?_
    simp only [Pc.afterRouting, hs, if_true, if_false]
    refine .step [] ?_
    simp only [Pc.step, hoff', Bool.true_eq_false, false_and, Bool.false_eq_true, if_false, if_true]
    exact .done _ _
  | moved hr hoff hf hs hb hon =>
    have hon' := Engine.isOnline_eq_true_iff.mpr ⟨_, hb, hon⟩
    simp only [Pc.step, hr, hoff, not_true_eq_false, and_false, Bool.false_eq_true, if_false]
    refine finishes_failover hf ?_
    simp only [Pc.afterRouting, hs, if_true, if_false]
    refine .step [] ?_
    simp only [Pc.step, hon', Bool.true_eq_false, false_and, if_false, if_true]
    exact finishes_process hb

/-- Steps 4 and 5. -/
theorem finishes_dispatch :
    Finishes cfg clk (e, .routeRequest r false (-1) .enter, none)
      ((e.dispatch (.at clk) r.ft).1, .response (e.dispatch (.at clk) r.ft).2) := by
  refine finishes_routeRequest rfl ?_
  have h := Engine.dispatched_dispatch e (.at clk) r.ft
  generalize hrouted : e.sessions.routeRequest e.ring clk r.ft (-1) = routed
  rw [show (Readings.at clk).route = clk from rfl, hrouted] at h
  generalize e.dispatch (.at clk) r.ft = dispatched at h
  cases h with
  | blocked hb =>
    simp only [Pc.afterRouting, hb, Bool.false_eq_true, if_false, if_true]
    exact .done _ _
  | serverDown hd =>
    simp only [Pc.afterRouting, hd, reduceCtorEq, Bool.false_eq_true, if_false, if_true]
    exact .done _ _
  | forwarded hb hd hf =>
    simp only [Pc.afterRouting, hb, hd, Bool.false_eq_true, if_false]
    exact finishes_forward hf

/-- `handleRequest`. -/
theorem finishes_handleRequest :
    Finishes cfg clk (e, .checkActive r, none)
      ((e.handleRequest cfg r.role (.at clk) r.ft r.payload).1,
        .response (e.handleRequest cfg r.role (.at clk) r.ft r.payload).2) := by
  rw [Engine.handleRequest, Engine.precheck]
  refine .step [] ?_
  cases ha : e.isActive r.role with
  | false =>
    simp only [Pc.step, ha, Bool.not_false, Bool.false_eq_true, if_false, if_true]
    exact .done _ _
  | true =>
    simp only [Pc.step, ha, Bool.not_true, Bool.false_eq_true, if_false, if_true]
    refine .step [] ?_
    rcases hv : Security.fullValidation cfg e.security clk r.ft r.payload with
      ⟨security, errorMessage | _⟩
    · simp only [Pc.step, Readings.at, hv]
      exact .done _ _
    · simp only [Pc.step, Readings.at, hv]
      refine .step [] ?_
      by_cases hl : (e.limiter.allowRequest clk r.ft.toKey).2 = true
      · simp only [Pc.step, hl, if_true]
        exact finishes_dispatch
      · simp only [Pc.step, hl, Bool.false_eq_true, if_false]
        exact .done _ _

/-- **A call that runs alone** does what it does on the sequential engine. -/
theorem finishes_call (cfg : Config) (clk : Clock) (e : Engine hashKey) (call : Call) :
    Finishes cfg clk (e, call.start e) ((Engine.machine hashKey cfg).step e (call.op clk)) := by
  cases call with
  | handleRequest r => exact finishes_handleRequest
  | takeBackendOffline serverId =>
    by_cases hr : e.InRange serverId
    · simp only [Call.start, Call.op, Engine.machine, Engine.takeBackendOffline, hr, if_true]
      exact .step [] (.step [] (finishes_handleServerDown (List.Perm.refl _) (.done _ _)))
    · simp only [Call.start, Call.op, Engine.machine, Engine.takeBackendOffline, hr, if_false]
      exact .done e _
  | bringBackendOnline serverId =>
    by_cases hr : e.InRange serverId
    · simp only [Call.start, Call.op, Engine.machine, Engine.bringBackendOnline, hr, if_true]
      exact .step [] (.step [] (.done _ _))
    · simp only [Call.start, Call.op, Engine.machine, Engine.bringBackendOnline, hr, if_false]
      exact .done e _
  | forceReassign key => exact finishes_forceReassign key

end Calls

/-! ### Runs of one thread -/

section Runs

variable {ι : Type*} [DecidableEq ι] {i : ι}

/-- The steps of one thread alone are a run of the threads. -/
theorem Finishes.exists_run {start : Engine hashKey × Pc × Option Engine.Answer} {now : TimePoint}
    {wall : ByteString} (h : Finishes cfg ⟨now, wall⟩ start result) {t : World hashKey ι}
    (hshared : t.shared = ⟨start.1, now⟩) (hpc : t.pc i = start.2.1)
    (hlock : t.holder = if start.2.1.inside then some i else none) :
    ∃ evs : List (Event ι), (∀ ev ∈ evs, ∃ x, ev = .resume i x) ∧
      (machine hashKey cfg ι).run t evs =
        ⟨⟨result.1, now⟩, none, Function.update t.pc i .idle⟩ ∧
      start.2.2.toList ++ ((machine hashKey cfg ι).trace t evs).filterMap Prod.snd =
        [result.2] := by
  induction h generalizing t with
  | done e a =>
    refine ⟨[], by simp, ?_, by simp⟩
    obtain ⟨shared, holder, pc⟩ := t
    obtain rfl : shared = _ := hshared
    obtain rfl : holder = none := hlock
    rw [← show pc i = .idle from hpc, Function.update_eq_self]
    rfl
  | @step e p result order h ih =>
    have hfree : ¬ (script hashKey cfg).blocked t i ⟨wall, order⟩ = true := by
      rw [Script.blocked, hlock]
      cases hin : p.inside <;> simp [script, hpc, hin]
    have hstep : (script hashKey cfg).step t.shared ⟨wall, order⟩ (t.pc i) =
        (⟨(p.step cfg e ⟨now, wall⟩ order).1, now⟩, (p.step cfg e ⟨now, wall⟩ order).2) := by
      rw [hshared, hpc]
      rfl
    have hnext : (machine hashKey cfg ι).next t (.resume i ⟨wall, order⟩) =
        t.advance Pc.inside i ⟨(p.step cfg e ⟨now, wall⟩ order).1, now⟩
          (p.step cfg e ⟨now, wall⟩ order).2.1 := by
      rw [Script.next_resume, if_neg hfree, hstep]
      rfl
    have hanswer : (machine hashKey cfg ι).answer t (.resume i ⟨wall, order⟩) =
        (p.step cfg e ⟨now, wall⟩ order).2.2 := by
      rw [Script.answer_resume, if_neg hfree, hstep]
    have hholder : (t.advance Pc.inside i ⟨(p.step cfg e ⟨now, wall⟩ order).1, now⟩
        (p.step cfg e ⟨now, wall⟩ order).2.1).holder =
          if (p.step cfg e ⟨now, wall⟩ order).2.1.inside then some i else none := by
      rw [Threads.advance, hlock, hpc]
      split_ifs <;> rfl
    obtain ⟨evs, hevs, hrun, htrace⟩ := ih rfl Threads.pc_advance_self hholder
    refine ⟨.resume i ⟨wall, order⟩ :: evs, ?_, ?_, ?_⟩
    · rintro ev hev
      rcases List.mem_cons.mp hev with rfl | hev
      · exact ⟨_, rfl⟩
      · exact hevs ev hev
    · rw [Machine.run_cons, hnext, hrun, Threads.advance, Function.update_idem]
    · rw [Machine.trace_cons, hnext, hanswer, ← htrace]
      cases (p.step cfg e ⟨now, wall⟩ order).2.2 <;> rfl

/-- **Calls one after another.** A call that a thread makes and finishes alone leaves the
engine and gives the answer of the sequential engine. -/
theorem run_alone (t : World hashKey ι) (hidle : t.pc i = .idle) (hfree : t.holder = none)
    (call : Call) (wall : ByteString) : ∃ evs : List (Event ι),
    (∀ ev ∈ evs, ∃ x, ev = .resume i x) ∧
    (machine hashKey cfg ι).run t (.invoke i call :: evs) =
      ⟨⟨(Engine.machine hashKey cfg).next t.shared.engine (call.op ⟨t.shared.now, wall⟩),
        t.shared.now⟩, none, t.pc⟩ ∧
    ((machine hashKey cfg ι).trace t (.invoke i call :: evs)).filterMap Prod.snd =
      [(Engine.machine hashKey cfg).answer t.shared.engine (call.op ⟨t.shared.now, wall⟩)] := by
  have hnext : (machine hashKey cfg ι).next t (.invoke i call) =
      t.advance Pc.inside i t.shared (call.start t.shared.engine).1 := by
    rw [Script.next_invoke, if_pos (by simp [script, hidle])]
    rfl
  have hanswer : (machine hashKey cfg ι).answer t (.invoke i call) =
      (call.start t.shared.engine).2 := by
    rw [Script.answer_invoke, if_pos (by simp [script, hidle])]
    rfl
  obtain ⟨evs, hevs, hrun, htrace⟩ :=
    (finishes_call cfg ⟨t.shared.now, wall⟩ t.shared.engine call).exists_run
      (t := t.advance Pc.inside i t.shared (call.start t.shared.engine).1) rfl
      Threads.pc_advance_self (by simp [Threads.advance, hidle, Pc.inside, hfree])
  refine ⟨evs, hevs, ?_, ?_⟩
  · rw [Machine.run_cons, hnext, hrun, Threads.advance, Function.update_idem, ← hidle,
      Function.update_eq_self]
    rfl
  · rw [Machine.trace_cons, hnext, hanswer]
    show _ = [((Engine.machine hashKey cfg).step _ _).2]
    rw [← htrace]
    cases (call.start t.shared.engine).2 <;> rfl

end Runs

end Concurrent

end SessionAffinity
