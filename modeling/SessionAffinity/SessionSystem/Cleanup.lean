import SessionAffinity.SessionSystem.Slot

/-!
# Lazy expiry is invisible to traffic

An expired session stays in the table until a request, a sweep of `cleanupExpired` or nothing
at all removes it. `cleanup_invisible` says that traffic cannot tell: insert or delete calls
of `cleanupExpired` anywhere in a run of requests, sweeps, ring changes, counts and listings,
and all other calls are answered as before.

The two runs are related by what is `live` in their tables at the times that are still to
come: a dead entry may be in one of them and not in the other. No session is blocked in such
runs, so a request treats a dead entry as none.
-/

namespace SessionAffinity

namespace SessionSystem

open SessionManager (isExpired isExpired_congr isExpired_mono)

variable {hashKey : ByteString → UInt64}

/-- The session of a key, if it is live at time `t`. -/
def live (s : SessionSystem hashKey) (t : TimePoint) (k : ByteString) : Option SessionEntry :=
  (s.slot k).filter fun entry => !s.manager.isExpired t entry

theorem live_of_live {s : SessionSystem hashKey} {t : TimePoint} {k : ByteString}
    {entry : SessionEntry} (he : s.slot k = some entry) (hx : s.manager.isExpired t entry = false) :
    s.live t k = some entry := by
  rw [live, he, Option.filter_some, hx, Bool.not_false, if_pos rfl]

theorem live_of_expired {s : SessionSystem hashKey} {t : TimePoint} {k : ByteString}
    {entry : SessionEntry} (he : s.slot k = some entry) (hx : s.manager.isExpired t entry = true) :
    s.live t k = none := by
  rw [live, he, Option.filter_some, hx]
  rfl

/-- The calls of `cleanupExpired`. -/
def Op.isCleanup : Op → Bool
  | cleanupExpired _ => true
  | _ => false

/-- Requests, sweeps and ring changes, and what reports on the live sessions. -/
def Op.isTraffic : Op → Bool
  | routeRequest _ _ _ => true
  | handleServerDown _ _ => true
  | addServer _ => true
  | removeServer _ => true
  | activeSessionCount _ => true
  | getAllSessions _ => true
  | _ => false

/-- No session is blocked. -/
def Unblocked (s : SessionSystem hashKey) : Prop :=
  ∀ k entry, s.slot k = some entry → entry.blocked = false

/-- Traffic and cleanups block no session. -/
theorem Unblocked.next {s : SessionSystem hashKey} (h : s.Unblocked) {op : Op}
    (hop : op.isTraffic ∨ op.isCleanup) : ((machine hashKey).next s op).Unblocked := by
  intro k entry' hentry'
  have hstep := slotStep_next s k op
  rw [hentry'] at hstep
  generalize hslot : s.slot k = o at hstep
  cases hstep with
  | kept => exact h k entry' hslot
  | created => rfl
  | refreshed | failedOver | redistributed =>
    have hb := h k _ hslot
    exact hb
  | forced | blockSet | expirySet => simp [Op.isTraffic, Op.isCleanup] at hop

/-! ### What each call does to the live sessions -/

/-- What is live under a key depends on its slot. -/
theorem live_congr {s u : SessionSystem hashKey} {k : ByteString}
    (hd : s.manager.defaultTimeoutSec = u.manager.defaultTimeoutSec) (hslot : s.slot k = u.slot k)
    (t : TimePoint) : s.live t k = u.live t k := by
  rw [live, live, hslot]
  simp only [isExpired_congr hd]

/-- A cleanup changes nothing of what is live then or later. -/
theorem live_cleanupExpired (s : SessionSystem hashKey) {clk : Clock} {t : TimePoint}
    (ht : clk.steady ≤ t) (k : ByteString) :
    ((machine hashKey).next s (.cleanupExpired clk)).live t k = s.live t k := by
  have hslot : ((machine hashKey).next s (.cleanupExpired clk)).slot k =
      (s.slot k).filter fun entry => !s.manager.isExpired clk.steady entry :=
    s.manager.sessions_cleanupExpired clk k
  have hexp : ∀ entry, ((machine hashKey).next s (.cleanupExpired clk)).manager.isExpired t entry =
      s.manager.isExpired t entry := fun _ => rfl
  rw [live, hslot, live]
  simp only [hexp]
  cases s.slot k with
  | none => rfl
  | some entry =>
    cases hx : s.manager.isExpired clk.steady entry with
    | false => rw [Option.filter_some, hx, Bool.not_false, if_pos rfl]
    | true =>
      have hlater := isExpired_mono ht hx
      rw [Option.filter_some, hx, Option.filter_some, hlater]
      rfl

/-- The sweep works on the live sessions only. -/
theorem live_handleServerDown (s : SessionSystem hashKey) {clk : Clock} (serverId : ℤ)
    {t : TimePoint} (ht : clk.steady ≤ t) (k : ByteString) :
    ((machine hashKey).next s (.handleServerDown clk serverId)).live t k =
      ((s.live clk.steady k).map (s.manager.redistribute s.ring clk serverId k)).filter
        fun entry => !s.manager.isExpired t entry := by
  have hslot : ((machine hashKey).next s (.handleServerDown clk serverId)).slot k =
      (s.slot k).map (s.manager.redistribute s.ring clk serverId k) :=
    s.manager.sessions_handleServerDown s.ring clk k serverId
  have hexp : ∀ entry, ((machine hashKey).next s (.handleServerDown clk serverId)).manager.isExpired
      t entry = s.manager.isExpired t entry := fun _ => rfl
  rw [live, hslot, live]
  simp only [hexp]
  cases s.slot k with
  | none => rfl
  | some entry =>
    cases hx : s.manager.isExpired clk.steady entry with
    | false => rw [Option.filter_some, hx, Bool.not_false, if_pos rfl]
    | true =>
      -- an expired session is not moved, and is not live later
      have hlater := isExpired_mono ht hx
      have hsame : s.manager.redistribute s.ring clk serverId k entry = entry := by
        simp [SessionManager.redistribute, hx]
      rw [Option.map_some, hsame, Option.filter_some, hlater, Option.filter_some, hx]
      rfl

/-- An unblocked request is routed as if only a live session were there. -/
theorem exists_routeRequest_live (s : SessionSystem hashKey) (clk : Clock) (ft : FiveTuple)
    (assigned : ℤ) (h : s.Unblocked) : ∃ sm : SessionManager,
      sm.sessions[ft.toKey]? = s.live clk.steady ft.toKey ∧
      sm.defaultTimeoutSec = s.manager.defaultTimeoutSec ∧
      s.manager.routeRequest s.ring clk ft assigned = sm.routeRequest s.ring clk ft assigned := by
  cases he : s.slot ft.toKey with
  | none => exact ⟨s.manager, by rw [live, he]; exact he, rfl, rfl⟩
  | some entry =>
    cases hx : s.manager.isExpired clk.steady entry with
    | false => exact ⟨s.manager, by rw [live_of_live he hx]; exact he, rfl, rfl⟩
    | true =>
      refine ⟨s.manager.drop ft.toKey, by rw [live_of_expired he hx]; simp, rfl, ?_⟩
      exact SessionManager.routeRequest_of_expired assigned he (h _ _ he) hx

/-- **Requests depend on the live session only**, and leave the same one. -/
theorem routeRequest_live_congr {s u : SessionSystem hashKey} {clk : Clock} {ft : FiveTuple}
    (assigned : ℤ) (hring : s.ring = u.ring)
    (hd : s.manager.defaultTimeoutSec = u.manager.defaultTimeoutSec) (hs : s.Unblocked)
    (hu : u.Unblocked) (hlive : s.live clk.steady ft.toKey = u.live clk.steady ft.toKey) :
    (machine hashKey).answer s (.routeRequest clk ft assigned) =
        (machine hashKey).answer u (.routeRequest clk ft assigned) ∧
      ((machine hashKey).next s (.routeRequest clk ft assigned)).slot ft.toKey =
        ((machine hashKey).next u (.routeRequest clk ft assigned)).slot ft.toKey := by
  obtain ⟨sm, hsm, hdsm, hroute⟩ := exists_routeRequest_live s clk ft assigned hs
  obtain ⟨um, hum, hdum, hroute'⟩ := exists_routeRequest_live u clk ft assigned hu
  have h := SessionManager.routeRequest_congr u.ring clk assigned
    (hsm.trans (hlive.trans hum.symm)) (hdsm.trans (hd.trans hdum.symm))
  rw [hring] at hroute
  simp only [Machine.answer, Machine.next, machine, slot, hring, hroute, hroute']
  exact ⟨by rw [h.1], h.2⟩

/-- Counts and listings are of the live sessions. -/
theorem toList_filter_congr {s u : SessionSystem hashKey} {t : TimePoint}
    (hlive : ∀ k, s.live t k = u.live t k) :
    (s.manager.sessions.toList.filter fun p => !s.manager.isExpired t p.2) =
      u.manager.sessions.toList.filter fun p => !u.manager.isExpired t p.2 := by
  have hmap : (s.manager.sessions.filter fun _ entry => !s.manager.isExpired t entry) =
      u.manager.sessions.filter fun _ entry => !u.manager.isExpired t entry := by
    refine Std.ExtTreeMap.ext_getElem? fun k => ?_
    rw [Std.ExtTreeMap.getElem?_filter', Std.ExtTreeMap.getElem?_filter']
    exact hlive k
  have hlist := congrArg Std.ExtTreeMap.toList hmap
  rwa [Std.ExtTreeMap.toList_filter, Std.ExtTreeMap.toList_filter] at hlist

/-! ### Two runs -/

/-- Traffic cannot tell the two systems apart in the calls that are still to come. -/
structure Alike (rest : List Op) (s u : SessionSystem hashKey) : Prop where
  ring : s.ring = u.ring
  timeout : s.manager.defaultTimeoutSec = u.manager.defaultTimeoutSec
  left : s.Unblocked
  right : u.Unblocked
  live : ∀ t ∈ rest.flatMap Op.times, ∀ k, s.live t k = u.live t k
  calls : ∀ op ∈ rest, op.isTraffic ∨ op.isCleanup
  times : Nondecreasing rest

/-- The times of the calls after one are not before its own. -/
theorem Nondecreasing.le {op : Op} {ops : List Op} (h : Nondecreasing (op :: ops))
    {t t' : TimePoint} (ht : t ∈ op.times) (ht' : t' ∈ ops.flatMap Op.times) : t ≤ t' := by
  rw [Nondecreasing, List.flatMap_cons, List.pairwise_append] at h
  exact h.2.2 t ht t' ht'

theorem Nondecreasing.tail {op : Op} {ops : List Op} (h : Nondecreasing (op :: ops)) :
    Nondecreasing ops := by
  rw [Nondecreasing, List.flatMap_cons, List.pairwise_append] at h
  exact h.2.1

/-- A cleanup in one of the runs keeps them alike. -/
theorem Alike.cleanup {op : Op} {rest : List Op} {s u : SessionSystem hashKey}
    (h : Alike (op :: rest) s u) (hop : op.isCleanup = true) :
    Alike rest ((machine hashKey).next s op) u := by
  have hcalls := h.calls op List.mem_cons_self
  cases op with
  | cleanupExpired clk =>
    refine ⟨h.ring, h.timeout, h.left.next hcalls, h.right, fun t ht k => ?_,
      fun op hop => h.calls op (List.mem_cons_of_mem _ hop), h.times.tail⟩
    have hle : clk.steady ≤ t := h.times.le (List.mem_singleton_self _) ht
    rw [live_cleanupExpired s hle]
    exact h.live t (List.mem_append_right _ ht) k
  | _ => exact absurd hop (by simp [Op.isCleanup])

/-- A call of traffic is answered alike in both runs and keeps them alike. -/
theorem Alike.traffic {op : Op} {rest : List Op} {s u : SessionSystem hashKey}
    (h : Alike (op :: rest) s u) (hop : op.isCleanup = false) :
    (machine hashKey).answer s op = (machine hashKey).answer u op ∧
      Alike rest ((machine hashKey).next s op) ((machine hashKey).next u op) := by
  have hcalls := h.calls op List.mem_cons_self
  have hnow : ∀ t ∈ op.times, ∀ k, s.live t k = u.live t k := fun t ht =>
    h.live t (List.mem_append_left _ ht)
  have hlater : ∀ t ∈ rest.flatMap Op.times, ∀ k, s.live t k = u.live t k := fun t ht =>
    h.live t (List.mem_append_right _ ht)
  -- what is left to show of each call
  have halike (hring : ((machine hashKey).next s op).ring = ((machine hashKey).next u op).ring)
      (hlive : ∀ t ∈ rest.flatMap Op.times, ∀ k,
        ((machine hashKey).next s op).live t k = ((machine hashKey).next u op).live t k) :
      Alike rest ((machine hashKey).next s op) ((machine hashKey).next u op) :=
    { ring := hring
      timeout := by rw [next_defaultTimeoutSec, next_defaultTimeoutSec, h.timeout]
      left := h.left.next hcalls
      right := h.right.next hcalls
      live := hlive
      calls := fun op hop => h.calls op (List.mem_cons_of_mem _ hop)
      times := h.times.tail }
  cases op with
  | routeRequest clk ft assigned =>
    have hroute := routeRequest_live_congr assigned h.ring h.timeout h.left h.right
      (hnow clk.steady (List.mem_singleton_self _) ft.toKey)
    refine ⟨hroute.1, halike h.ring fun t ht k => ?_⟩
    rcases eq_or_ne ft.toKey k with rfl | hk
    · refine live_congr ?_ hroute.2 t
      rw [next_defaultTimeoutSec, next_defaultTimeoutSec, h.timeout]
    · rw [live_congr (next_defaultTimeoutSec s _) (sessions_next_of_ne s rfl hk),
        live_congr (next_defaultTimeoutSec u _) (sessions_next_of_ne u rfl hk)]
      exact hlater t ht k
  | handleServerDown clk serverId =>
    refine ⟨rfl, halike h.ring fun t ht k => ?_⟩
    have hle : clk.steady ≤ t := h.times.le (List.mem_singleton_self _) ht
    have hredist : s.manager.redistribute s.ring clk serverId k =
        u.manager.redistribute u.ring clk serverId k := by
      funext entry
      simp only [SessionManager.redistribute, h.ring, isExpired_congr h.timeout]
    rw [live_handleServerDown s serverId hle, live_handleServerDown u serverId hle, hredist,
      hnow clk.steady (List.mem_singleton_self _) k]
    simp only [isExpired_congr h.timeout]
  | addServer serverId =>
    exact ⟨rfl, halike (congrArg (·.addServer serverId) h.ring) hlater⟩
  | removeServer serverId =>
    exact ⟨rfl, halike (congrArg (·.removeServer serverId) h.ring) hlater⟩
  | activeSessionCount clk =>
    refine ⟨congrArg (fun l : List _ => Answer.count l.length) ?_, halike h.ring hlater⟩
    exact toList_filter_congr (hnow clk.steady (List.mem_singleton_self _))
  | getAllSessions clk =>
    refine ⟨congrArg (fun l : List _ => Answer.listed (l.map _)) ?_, halike h.ring hlater⟩
    exact toList_filter_congr (hnow clk.steady (List.mem_singleton_self _))
  | cleanupExpired => exact absurd hop (by simp [Op.isCleanup])
  | _ => simp [Op.isTraffic, Op.isCleanup] at hcalls

/-- A run of traffic and cleanups shows what it shows without the cleanups. -/
theorem trace_filter_isCleanup (ring : ConsistentHashRing hashKey) (defaultTimeoutSec : ℤ)
    {ops : List Op} (hcalls : ∀ op ∈ ops, op.isTraffic ∨ op.isCleanup)
    (htimes : Nondecreasing ops) :
    (((machine hashKey).trace ⟨ring, .init defaultTimeoutSec⟩ ops).filter
        fun c => !c.1.isCleanup) =
      (machine hashKey).trace ⟨ring, .init defaultTimeoutSec⟩
        (ops.filter fun op => !op.isCleanup) := by
  have hempty : Unblocked (⟨ring, .init defaultTimeoutSec⟩ : SessionSystem hashKey) := by
    intro k entry he
    simp [slot, SessionManager.init] at he
  exact (machine hashKey).trace_filter_of_silent (R := Alike) (fun _ _ _ _ hop h => h.cleanup hop)
    (fun _ _ _ _ hop h => h.traffic hop)
    ⟨rfl, rfl, hempty, hempty, fun _ _ _ => rfl, hcalls, htimes⟩

/-- **Lazy expiry is invisible to traffic.** Take two runs from an empty table, over any ring,
of requests, sweeps, ring changes, counts, listings and cleanups, each at nondecreasing times.
If they make the same calls apart from the cleanups, then all these calls are answered alike:
statuses, assigned backends, counts, and listings, which stand in the order of the keys, so
that they are the same when their sets of keys and backends are. -/
theorem cleanup_invisible (hashKey : ByteString → UInt64) (ring : ConsistentHashRing hashKey)
    (defaultTimeoutSec : ℤ) (ops ops' : List Op)
    (hcalls : ∀ op ∈ ops ++ ops', op.isTraffic ∨ op.isCleanup) (htimes : Nondecreasing ops)
    (htimes' : Nondecreasing ops')
    (hsame : (ops.filter fun op => !op.isCleanup) = ops'.filter fun op => !op.isCleanup) :
    (((machine hashKey).trace ⟨ring, .init defaultTimeoutSec⟩ ops).filter
        fun c => !c.1.isCleanup) =
      ((machine hashKey).trace ⟨ring, .init defaultTimeoutSec⟩ ops').filter
        fun c => !c.1.isCleanup := by
  have hleft := trace_filter_isCleanup ring defaultTimeoutSec
    (fun op hop => hcalls op (List.mem_append_left _ hop)) htimes
  have hright := trace_filter_isCleanup ring defaultTimeoutSec
    (fun op hop => hcalls op (List.mem_append_right _ hop)) htimes'
  rw [hleft, hright, hsame]

/-- A request, and a listing after its session has expired, with a cleanup in between or not. -/
theorem cleanup_invisible_late :
    (((machine fnvHashKey).trace ⟨.init fnvHashKey 1, .init 300⟩ [.addServer 0,
      .routeRequest ⟨0, []⟩ clientTuple (-1), .cleanupExpired ⟨seconds 301, []⟩,
      .getAllSessions ⟨seconds 302, []⟩]).filter fun c => !c.1.isCleanup) =
    ((machine fnvHashKey).trace ⟨.init fnvHashKey 1, .init 300⟩ [.addServer 0,
      .routeRequest ⟨0, []⟩ clientTuple (-1), .getAllSessions ⟨seconds 302, []⟩]).filter
        fun c => !c.1.isCleanup :=
  cleanup_invisible fnvHashKey (.init fnvHashKey 1) 300 _ _ (by simp [Op.isTraffic, Op.isCleanup])
    (by decide) (by decide) rfl

end SessionSystem

end SessionAffinity
