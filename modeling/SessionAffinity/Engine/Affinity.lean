import SessionAffinity.Engine.Invariants

/-!
# Session affinity

The promise the engine is named for: a session stays on its backend. `sticky_run` states it
over whole runs, in which other backends come and go and other sessions are served, moved,
blocked and cleaned up. Requests of the session itself may come at any times that keep it
alive, each within the session's timeout of the one before.

A call that is not a routed request of the session leaves its entry alone
(`Sticky.next_of_spares`); a routed request in time is answered by the same backend and
refreshes it (`Sticky.next_request`).
-/

namespace SessionAffinity

/-- The request passed the active check, validation and the rate limit. -/
def Response.isRouted : Response → Bool
  | notActive _ => false
  | securityFailed _ => false
  | rateLimited _ => false
  | _ => true

namespace Engine

variable {hashKey : ByteString → UInt64} {cfg : Config}

/-- The time at which a call routed a request for `k`, if that is what it did. -/
def routeTime? (k : ByteString) : Op × Answer → Option TimePoint
  | (.request _ rd ft _, .response r) =>
    if ft.toKey = k ∧ r.isRouted = true then some rd.route.steady else none
  | _ => none

/-- The times at which requests for `k` were routed, read off a trace. -/
def routeTimes (k : ByteString) (trace : List (Op × Answer)) : List TimePoint :=
  trace.filterMap (routeTime? k)

/-- A call that reassigns, blocks or changes the expiry of the session of `k`, or stops its
backend `b`. -/
def Op.Disturbs (k : ByteString) (b : ℤ) : Op → Prop
  | .forceReassign _ key => key = k
  | .setSessionExpiry key _ => key = k
  | .blockSession key block => key = k ∧ block = true
  | .takeBackendOffline _ serverId => serverId = b
  | .crash serverId => serverId = b
  | _ => False

/-- Key `k` has the session `entry`, unblocked, on a backend that is on the ring and online. -/
structure Sticky (e : Engine hashKey) (k : ByteString) (entry : SessionEntry) : Prop where
  session : e.sessions.sessions[k]? = some entry
  unblocked : entry.blocked = false
  active : entry.backendId ∈ e.ring.activeServers
  online : e.isOnline entry.backendId = true

/-! ### Which requests are routed -/

theorem isRouted_of_precheck {e : Engine hashKey} {role : LBRole} {rd : Readings} {ft : FiveTuple}
    {payload : ByteString} {r : Response} (h : (e.precheck cfg role rd ft payload).2 = some r) :
    r.isRouted = false := by
  rcases refusal_of_precheck h with ⟨_, rfl⟩ | ⟨_, rfl⟩ | ⟨_, rfl⟩ <;> rfl

theorem isRouted_dispatch (e : Engine hashKey) (rd : Readings) (ft : FiveTuple) :
    (e.dispatch rd ft).2.isRouted = true := by
  have h := dispatched_dispatch e rd ft
  generalize e.dispatch rd ft = r at h
  cases h with
  | blocked | serverDown => rfl
  | forwarded _ _ hf => cases hf <;> rfl

/-- A request is routed exactly when it is admitted. -/
theorem isRouted_handleRequest {e : Engine hashKey} {role : LBRole} {rd : Readings}
    {ft : FiveTuple} {payload : ByteString} :
    (e.handleRequest cfg role rd ft payload).2.isRouted = true ↔
      (e.precheck cfg role rd ft payload).2 = none := by
  rw [handleRequest_eq]
  cases hpass : (e.precheck cfg role rd ft payload).2 with
  | some r => simp [isRouted_of_precheck hpass]
  | none => simp [isRouted_dispatch]

/-- A call that routed no request for `k` is no admitted request for it. -/
theorem precheck_ne_none_of_routeTime? {e : Engine hashKey} {role : LBRole} {rd : Readings}
    {ft : FiveTuple} {payload : ByteString} (h : routeTime? ft.toKey (.request role rd ft payload,
      (machine hashKey cfg).answer e (.request role rd ft payload)) = none) :
    (e.precheck cfg role rd ft payload).2 ≠ none := by
  intro hpass
  have hrouted := isRouted_handleRequest.mpr hpass
  simp [Machine.answer, machine, routeTime?, hrouted] at h

/-- A call that routed a request for `k` is one, admitted. -/
theorem exists_of_routeTime? {e : Engine hashKey} {op : Op} {k : ByteString} {t : TimePoint}
    (h : routeTime? k (op, (machine hashKey cfg).answer e op) = some t) :
    ∃ role rd ft payload, op = .request role rd ft payload ∧ ft.toKey = k ∧
      rd.route.steady = t ∧ (e.precheck cfg role rd ft payload).2 = none := by
  cases op with
  | request role rd ft payload =>
    simp only [Machine.answer, machine, routeTime?] at h
    split_ifs at h with hk
    exact ⟨role, rd, ft, payload, rfl, hk.1, Option.some.inj h, isRouted_handleRequest.mp hk.2⟩
  | _ => exact absurd h (by simp [routeTime?])

theorem mem_times_of_mem_routeTimes {e : Engine hashKey} {ops : List Op} {k : ByteString}
    {t : TimePoint} (ht : t ∈ routeTimes k ((machine hashKey cfg).trace e ops)) :
    t ∈ ops.flatMap Op.times := by
  induction ops generalizing e with
  | nil => exact absurd ht List.not_mem_nil
  | cons op ops ih =>
    rw [List.flatMap_cons, List.mem_append]
    rw [Machine.trace_cons, routeTimes, List.filterMap_cons] at ht
    split at ht
    · exact .inr (ih ht)
    case h_2 u hu =>
      rcases List.mem_cons.mp ht with rfl | ht
      · obtain ⟨role, rd, ft, payload, rfl, -, rfl, -⟩ := exists_of_routeTime? hu
        exact .inl (by simp [Op.times, Readings.times])
      · exact .inr (ih ht)

/-! ### One call -/

/-- A backend stays online unless a call is about stopping it. -/
theorem isOnline_next {e : Engine hashKey} {op : Op} {k : ByteString} {b : ℤ}
    (hb : e.isOnline b = true) (hop : ¬ op.Disturbs k b) :
    ((machine hashKey cfg).next e op).isOnline b = true := by
  cases op with
  | request role rd ft payload =>
    exact (isOnline_congr (e.flags_handleRequest cfg role rd ft payload) b).trans hb
  | setActive role active => cases role <;> exact hb
  | takeBackendOffline clk serverId =>
    show (e.takeBackendOffline clk serverId).isOnline b = true
    rw [takeBackendOffline]
    split_ifs with hr
    · exact (isOnline_stop hr.1).mpr ⟨fun h => hop h.symm, hb⟩
    · exact hb
  | bringBackendOnline serverId =>
    show (e.bringBackendOnline serverId).isOnline b = true
    rw [bringBackendOnline]
    split_ifs with hr
    · exact (isOnline_start hr).mpr (.inr hb)
    · exact hb
  | crash serverId =>
    simp only [Machine.next, machine]
    split_ifs with hr
    · exact (isOnline_stop hr.1).mpr ⟨fun h => hop h.symm, hb⟩
    · exact hb
  | cleanupExpired | forceReassign | blockSession | setSessionExpiry => exact hb

namespace Sticky

variable {e : Engine hashKey} {k : ByteString} {entry : SessionEntry}

/-- The calls that an undisturbing call makes on ring and table spare the session. -/
theorem spares (h : e.Sticky k entry) {op : Op} (hop : ¬ op.Disturbs k entry.backendId)
    (hroute : routeTime? k (op, (machine hashKey cfg).answer e op) = none)
    {c : SessionSystem.Op} (hc : Made cfg e op c) : c.Spares k entry.backendId := by
  cases hc with
  | route hpass =>
    rintro rfl
    exact precheck_ne_none_of_routeTime? hroute hpass
  | evict _ hoff | sweep _ hoff =>
    rintro rfl
    exact absurd h.online (by simp [hoff])
  | block => exact fun hk => by simpa [Op.Disturbs, hk] using hop
  | restore | cleanup => trivial
  | retire | retireSweep | force | expiry => exact hop

/-- **A call that does not route the session** leaves it where it is, unless it comes after
the session has expired. -/
theorem next_of_spares (h : e.Sticky k entry) {op : Op} (hop : ¬ op.Disturbs k entry.backendId)
    (hroute : routeTime? k (op, (machine hashKey cfg).answer e op) = none)
    (hlive : ∀ t ∈ op.times, e.sessions.isExpired t entry = false) :
    ((machine hashKey cfg).next e op).Sticky k entry := by
  have hcalls : ∀ c ∈ e.calls cfg op, c.Spares k entry.backendId ∧
      ∀ t ∈ c.times, e.sessions.isExpired t entry = false := fun c hc =>
    have hmade := made_of_mem_calls cfg e hc
    ⟨h.spares hop hroute hmade, fun t ht => hlive t (hmade.times ht)⟩
  have hkept := SessionSystem.kept_of_spares (s := e.system) h.session h.unblocked h.active hcalls
  rw [← system_next] at hkept
  exact ⟨hkept.1, h.unblocked, hkept.2, isOnline_next h.online hop⟩

/-- **A routed request in time** is processed by the session's backend and refreshes it. -/
theorem next_request (h : e.Sticky k entry) (hr : e.InRange entry.backendId)
    (hid : ∀ s b, e.backend? s = some b → b.id = s) {role : LBRole} {rd : Readings}
    {ft : FiveTuple} {payload : ByteString} (hk : ft.toKey = k)
    (hpass : (e.precheck cfg role rd ft payload).2 = none)
    (hlive : e.sessions.isExpired rd.route.steady entry = false) :
    ((machine hashKey cfg).next e (.request role rd ft payload)).Sticky k
        { entry with lastAccess := rd.route.steady } ∧
      ∃ n, (machine hashKey cfg).answer e (.request role rd ft payload) =
        .response (.served .success entry.backendId (.processed entry.backendId n)) := by
  subst hk
  obtain ⟨security, limiter, hreq⟩ := handleRequest_of_admitted hpass
  have hrouted := SessionManager.routeRequest_of_sticky _ _ (-1) h.session h.unblocked hlive
    h.active
  obtain ⟨b, hb, hon, hdispatch⟩ := dispatch_of_isOnline (e := { e with security, limiter }) hrouted
    (by simp) (by simp) hr h.online
  have hhandle : e.handleRequest cfg role rd ft payload =
      process
        { e with
          security
          limiter
          sessions := e.sessions.put ft.toKey { entry with lastAccess := rd.route.steady } }
        rd ft .success entry.backendId b :=
    hreq.trans hdispatch
  have hnext : (machine hashKey cfg).next e (.request role rd ft payload) =
    (e.handleRequest cfg role rd ft payload).1 := rfl
  have honline := isOnline_congr (e.flags_handleRequest cfg role rd ft payload) entry.backendId
  refine ⟨⟨?_, h.unblocked, ?_, ?_⟩, b.requestCount ft.toKey + 1, ?_⟩
  · rw [hnext, hhandle]
    exact SessionManager.sessions_put_self _ _ _
  · rw [hnext, hhandle]
    exact h.active
  · rw [hnext, honline]
    exact h.online
  · show Answer.response (e.handleRequest cfg role rd ft payload).2 = _
    rw [hhandle, process_snd _ _ hon, hid _ b hb]

end Sticky

/-! ### Whole runs -/

/-- Every time of the list comes at most `timeoutSec` seconds after the one before. -/
def Timely (timeoutSec : ℤ) (times : List TimePoint) : Prop :=
  times.IsChain fun s t => t ≤ s + seconds timeoutSec

instance (timeoutSec : ℤ) (times : List TimePoint) : Decidable (Timely timeoutSec times) :=
  inferInstanceAs (Decidable (List.IsChain _ _))

/-- **The session over a run.** While its requests keep coming in time, the last of them to
come at `t`, the session is as it was but for the time of its last access, and is alive at
`t`. -/
theorem exists_sticky_afterOps {k : ByteString} {pre post : List Op} {entry : SessionEntry}
    {t : TimePoint} (h : (afterOps hashKey cfg pre).Sticky k entry)
    (hpost : ∀ op ∈ post, ¬ op.Disturbs k entry.backendId) (hsorted : Nondecreasing post)
    (hle : ∀ s ∈ post.flatMap Op.times, s ≤ t)
    (htimely : Timely ((afterOps hashKey cfg pre).sessions.effectiveTimeout entry)
      (entry.lastAccess :: (routeTimes k
        ((machine hashKey cfg).trace (afterOps hashKey cfg pre) post) ++ [t]))) :
    ∃ a, (afterOps hashKey cfg (pre ++ post)).Sticky k { entry with lastAccess := a } ∧
      (afterOps hashKey cfg (pre ++ post)).sessions.isExpired t
        { entry with lastAccess := a } = false := by
  induction post generalizing pre entry with
  | nil =>
    rw [List.append_nil]
    exact ⟨entry.lastAccess, h,
      SessionManager.isExpired_eq_false_iff.mpr (List.isChain_cons_cons.mp htimely).1⟩
  | cons op post ih =>
    rw [Nondecreasing, List.flatMap_cons, List.pairwise_append] at hsorted
    simp only [List.flatMap_cons, List.mem_append] at hle
    have hop := hpost op List.mem_cons_self
    rw [List.append_cons]
    rw [Machine.trace_cons, ← afterOps_concat, routeTimes, List.filterMap_cons] at htimely
    split at htimely
    case h_1 hroute =>
      -- the next routed request, or `t`, comes in time and no earlier than this call
      have hlive : ∀ s ∈ op.times,
          (afterOps hashKey cfg pre).sessions.isExpired s entry = false := by
        intro s hs
        obtain ⟨u, hu⟩ : ∃ u, (routeTimes k ((machine hashKey cfg).trace
            (afterOps hashKey cfg (pre ++ [op])) post) ++ [t]).head? = some u :=
          Option.isSome_iff_exists.mp (by simp)
        have hsu : s ≤ u := by
          rcases List.mem_append.mp (List.mem_of_head? hu) with hmem | hmem
          · exact hsorted.2.2 s hs u (mem_times_of_mem_routeTimes hmem)
          · exact (hle s (.inl hs)).trans (List.mem_singleton.mp hmem).ge
        exact SessionManager.isExpired_eq_false_iff.mpr
          (hsu.trans ((List.isChain_cons.mp htimely).1 u hu))
      have hnext := h.next_of_spares hop hroute hlive
      rw [← afterOps_concat] at hnext
      refine ih hnext (fun o ho => hpost o (List.mem_cons_of_mem _ ho)) hsorted.2.1
        (fun s hs => hle s (.inr hs)) ?_
      rwa [effectiveTimeout_afterOps (pre ++ [op]) pre]
    case h_2 u hroute =>
      obtain ⟨role, rd, ft, payload, rfl, hk, rfl, hpass⟩ := exists_of_routeTime? hroute
      obtain ⟨hu, htimely⟩ := List.isChain_cons_cons.mp htimely
      obtain ⟨hnext, -⟩ := h.next_request (inRange_of_active h.active) (fun _ _ => id_of_backend?)
        hk hpass (SessionManager.isExpired_eq_false_iff.mpr hu)
      rw [← afterOps_concat] at hnext
      have hrest : Timely ((afterOps hashKey cfg
          (pre ++ [.request role rd ft payload])).sessions.effectiveTimeout
            { entry with lastAccess := rd.route.steady })
          (rd.route.steady :: (routeTimes k ((machine hashKey cfg).trace (afterOps hashKey cfg
            (pre ++ [.request role rd ft payload])) post) ++ [t])) := by
        rw [effectiveTimeout_afterOps _ pre]
        exact htimely
      obtain ⟨a, ha⟩ := ih hnext (fun o ho => hpost o (List.mem_cons_of_mem _ ho)) hsorted.2.1
        (fun s hs => hle s (.inr hs)) hrest
      exact ⟨a, ha⟩

/-- **Sessions stick.** Take any run that leaves key `k` with an unblocked session on an online
backend of the ring, and any further run that does not reassign or block the session, change
its expiry or stop its backend. A request for the key that is routed then, when it and all
routed requests for the key in between came within the session's timeout of the one before,
is routed to the same backend and processed there, and the path history has not grown. -/
theorem sticky_run (hashKey : ByteString → UInt64) (cfg : Config) (pre post : List Op)
    (role : LBRole) (rd : Readings) (ft : FiveTuple) (payload : ByteString) (entry : SessionEntry)
    (hentry : (afterOps hashKey cfg pre).sessions.sessions[ft.toKey]? = some entry)
    (hunblocked : entry.blocked = false)
    (hactive : entry.backendId ∈ (afterOps hashKey cfg pre).ring.getActiveServers)
    (honline : (afterOps hashKey cfg pre).isOnline entry.backendId = true)
    (hpost : ∀ op ∈ post, ¬ op.Disturbs ft.toKey entry.backendId)
    (hsorted : Nondecreasing (pre ++ post ++ [.request role rd ft payload]))
    (htimely : Timely ((afterOps hashKey cfg pre).sessions.effectiveTimeout entry)
      (entry.lastAccess :: (routeTimes ft.toKey
        ((machine hashKey cfg).trace (afterOps hashKey cfg pre) post) ++ [rd.route.steady])))
    (hpass : ((afterOps hashKey cfg (pre ++ post)).precheck cfg role rd ft payload).2 = none) :
    ((afterOps hashKey cfg (pre ++ post)).sessions.routeRequest
        (afterOps hashKey cfg (pre ++ post)).ring rd.route ft (-1)).2 =
      (.success, entry.backendId) ∧
    (∃ n, ((afterOps hashKey cfg (pre ++ post)).handleRequest cfg role rd ft payload).2 =
      .served .success entry.backendId (.processed entry.backendId n)) ∧
    (afterOps hashKey cfg (pre ++ post)).sessions.getPathHistory ft.toKey = entry.pathHistory ∧
    ((afterOps hashKey cfg (pre ++ post)).handleRequest cfg role rd ft
      payload).1.sessions.getPathHistory ft.toKey = entry.pathHistory := by
  rw [Nondecreasing, List.append_assoc, List.flatMap_append, List.flatMap_append,
    List.pairwise_append, List.pairwise_append] at hsorted
  obtain ⟨-, ⟨hpre, -, hlast⟩, -⟩ := hsorted
  obtain ⟨a, hsticky, hlive⟩ := exists_sticky_afterOps ⟨hentry, hunblocked, hactive, honline⟩ hpost
    hpre (fun s hs => hlast s hs rd.route.steady (by simp [Op.times, Readings.times])) htimely
  have hr : (afterOps hashKey cfg (pre ++ post)).InRange entry.backendId :=
    inRange_of_active hsticky.active
  obtain ⟨hnext, n, hanswer⟩ :=
    hsticky.next_request hr (fun _ _ => id_of_backend?) rfl hpass hlive
  refine ⟨?_, ⟨n, Answer.response.inj hanswer⟩, ?_, ?_⟩
  · rw [SessionManager.routeRequest_of_sticky _ _ (-1) hsticky.session hsticky.unblocked hlive
      hsticky.active]
  · rw [SessionManager.getPathHistory, hsticky.session]
  · show ((machine hashKey cfg).next _ (.request role rd ft payload)).sessions.getPathHistory _ = _
    rw [SessionManager.getPathHistory, hnext.session]

/-- A client served by backend `0` at time zero, and again at the very end of its timeout, after
backend `1` was lost and the table cleaned up in between. -/
theorem sticky_run_until_timeout :
    ∃ n, ((afterOps fnvHashKey .pair
        ([.request .primary (.at ⟨0, []⟩) clientTuple (bytes "hello")] ++
          [.takeBackendOffline ⟨seconds 100, []⟩ 1,
            .cleanupExpired ⟨seconds 300, []⟩])).handleRequest
          .pair .primary (.at ⟨seconds 300, []⟩) clientTuple (bytes "hello")).2 =
      .served .success 0 (.processed 0 n) :=
  (sticky_run fnvHashKey .pair [.request .primary (.at ⟨0, []⟩) clientTuple (bytes "hello")]
    [.takeBackendOffline ⟨seconds 100, []⟩ 1, .cleanupExpired ⟨seconds 300, []⟩] .primary
    (.at ⟨seconds 300, []⟩) clientTuple (bytes "hello")
    (SessionManager.newEntry clientTuple ⟨0, []⟩ 0) (by decide +kernel) rfl (by decide +kernel)
    (by decide +kernel) (by simp [Op.Disturbs, SessionManager.newEntry]) (by decide +kernel)
    (by decide +kernel) (by decide +kernel)).2.1

end Engine

end SessionAffinity
