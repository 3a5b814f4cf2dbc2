import SessionAffinity.SessionSystem.Isolation

/-!
# Eager and lazy failover

When a server is lost, its sessions can be moved at once, by the sweep of `handleServerDown`,
or one by one when their next requests come, by the failover of `routeRequest`. The two are
written separately and report differently: a request after the sweep finds its session moved
and is told `SUCCESS`, one that moves the session itself is told `REASSIGNED`.
`eager_lazy_agree` says that this is all the difference there is. Both consult the ring
without the server, which never answers a server that is not on it.

The requests may come in any order, since sessions do not interfere (`outcomes_of_drains`).
-/

namespace SessionAffinity

namespace SessionSystem

open ByteString (signedDecimal)

variable {hashKey : ByteString → UInt64}

/-- What a request is told, the status aside: the backend it is assigned, or that there is
none. -/
def Answer.backend? : Answer → Option ℤ
  | .routed status assigned => if status = .serverDown then none else some assigned
  | _ => none

/-- What the requests for `k` were told, read off a trace. -/
def outcomes (k : ByteString) (trace : List (Op × Answer)) : List (Option ℤ) :=
  (trace.filter fun c => c.1.key? = some k).map fun c => c.2.backend?

/-- The calls are requests made at time `t`, one for each key of `K`. -/
structure Drains (t : TimePoint) (K : Set ByteString) (ops : List Op) : Prop where
  routes : ∀ op ∈ ops, ∃ clk ft assigned, op = .routeRequest clk ft assigned ∧ clk.steady = t
  once : (ops.map Op.key?).Nodup
  all : ∀ k, some k ∈ ops.map Op.key? ↔ k ∈ K

/-- The keys with an unexpired, unblocked session on `x` at time `t`. -/
def liveOn (s : SessionSystem hashKey) (t : TimePoint) (x : ℤ) : Set ByteString :=
  {k | ∃ entry, s.slot k = some entry ∧ entry.backendId = x ∧ entry.blocked = false ∧
    s.manager.isExpired t entry = false}

/-- The entries are the same as far as backends and times go. -/
structure SameCourse (entry entry' : SessionEntry) : Prop where
  backendId : entry.backendId = entry'.backendId
  lastAccess : entry.lastAccess = entry'.lastAccess
  history : entry.pathHistory.map PathHistoryEntry.backendId =
    entry'.pathHistory.map PathHistoryEntry.backendId

/-! ### Requests for different sessions -/

/-- One request for each key of `K`, as the owner of one of them sees it. -/
theorem Drains.purge {t : TimePoint} {K : Set ByteString} {ops : List Op} (h : Drains t K ops)
    {k : ByteString} (hk : k ∈ K) : ∃ clk ft assigned, clk.steady = t ∧ ft.toKey = k ∧
      Machine.purge Op.key? k ops = [.routeRequest clk ft assigned] := by
  obtain ⟨hroutes, honce, hall⟩ := h
  replace hall := (hall k).mpr hk
  induction ops with
  | nil => exact absurd hall List.not_mem_nil
  | cons op ops ih =>
    obtain ⟨clk, ft, assigned, rfl, ht⟩ := hroutes op List.mem_cons_self
    have htail : ∀ op ∈ ops, ∃ clk ft assigned, op = .routeRequest clk ft assigned ∧
        clk.steady = t := fun op hop => hroutes op (List.mem_cons_of_mem _ hop)
    rw [List.map_cons, List.nodup_cons] at honce
    rw [Machine.purge_cons]
    by_cases hft : ft.toKey = k
    · have hnone : Machine.purge Op.key? k ops = [] := by
        refine List.filter_eq_nil_iff.mpr fun op hop => ?_
        obtain ⟨clk', ft', assigned', rfl, -⟩ := htail op hop
        have hne : ft'.toKey ≠ k := fun hk' =>
          honce.1 (List.mem_map.mpr ⟨_, hop, by simp [Op.key?, hft, hk']⟩)
        simp [Op.key?, hne]
      rw [if_pos (.inr (congrArg some hft)), hnone]
      exact ⟨clk, ft, assigned, ht, hft, rfl⟩
    · have hmem : some k ∈ ops.map Op.key? := by
        rcases List.mem_cons.mp hall with hhead | hmem
        · exact absurd (Option.some.inj hhead).symm hft
        · exact hmem
      rw [if_neg (by simp [Op.key?, hft])]
      exact ih htail honce.2 hmem

/-- **Requests for different sessions do not interfere.** In a run of requests of which one is
for `k`, that one is answered as at the start, and leaves the session it leaves then. -/
theorem outcomes_of_drains {t : TimePoint} {K : Set ByteString} {ops : List Op}
    (h : Drains t K ops) (s : SessionSystem hashKey) {k : ByteString} (hk : k ∈ K) :
    ∃ clk ft assigned, clk.steady = t ∧ ft.toKey = k ∧
      outcomes k ((machine hashKey).trace s ops) =
        [((machine hashKey).answer s (.routeRequest clk ft assigned)).backend?] ∧
      ((machine hashKey).run s ops).slot k =
        ((machine hashKey).next s (.routeRequest clk ft assigned)).slot k := by
  obtain ⟨clk, ft, assigned, ht, rfl, hpurge⟩ := h.purge hk
  have hsame : AlikeFor ft.toKey s s := (equivalence_alikeFor ft.toKey).refl s
  have hview := (unwinding_machine ft.toKey).view_trace hsame ops
  have hrun := (unwinding_machine ft.toKey).run hsame ops
  rw [hpurge] at hview hrun
  refine ⟨clk, ft, assigned, ht, rfl, ?_, hrun.slot⟩
  have houtcomes : outcomes ft.toKey ((machine hashKey).trace s ops) =
      (Machine.view Op.key? ft.toKey ((machine hashKey).trace s ops)).map
        fun c => c.2.backend? := rfl
  rw [houtcomes, hview]
  simp [Machine.view, Op.key?]

/-! ### Both ways to fail over -/

/-- No session is accessed after the last clock reading of a run. -/
theorem lastAccess_mem_times {vnodesPerServer defaultTimeoutSec : ℤ} {ops : List Op}
    {k : ByteString} {entry : SessionEntry}
    (he : (afterOps hashKey vnodesPerServer defaultTimeoutSec ops).slot k = some entry) :
    entry.lastAccess ∈ ops.flatMap Op.times := by
  induction ops using List.reverseRecOn generalizing entry with
  | nil => simp [afterOps, init, slot, SessionManager.init] at he
  | append_singleton ops op ih =>
    rw [List.flatMap_append, List.mem_append]
    rw [afterOps, Machine.run_concat] at he
    have hstep := slotStep_next (afterOps hashKey vnodesPerServer defaultTimeoutSec ops) k op
    generalize hslot : (afterOps hashKey vnodesPerServer defaultTimeoutSec ops).slot k = o at hstep
    rw [afterOps] at hstep
    rw [he] at hstep
    cases hstep with
    | kept => exact .inl (ih hslot)
    | blockSet | expirySet =>
      have hle := ih hslot
      exact .inl hle
    | created | refreshed | failedOver | forced | redistributed =>
      exact .inr (by simp [Op.times, SessionEntry.reassign, SessionManager.newEntry])

/-- The backend a failover assigns to `k`: the ring's choice, if it has one. -/
def failoverChoice (ring : ConsistentHashRing hashKey) (k : ByteString) : Option ℤ :=
  if ring.getServer k < 0 then none else some (ring.getServer k)

/-- A session of `k` after a failover at time `t`, reasons and wall-clock texts aside. -/
def failoverEntry (ring : ConsistentHashRing hashKey) (k : ByteString) (t : TimePoint)
    (entry : SessionEntry) : SessionEntry :=
  if ring.getServer k < 0 then entry else entry.reassign ⟨t, []⟩ (ring.getServer k) []

section Routes

variable {s : SessionSystem hashKey} {entry : SessionEntry} (clk : Clock) {ft : FiveTuple}
  (assigned : ℤ) (he : s.slot ft.toKey = some entry) (hb : entry.blocked = false)
  (hx : s.manager.isExpired clk.steady entry = false)
include he hb hx

/-- **The lazy way**: the request of a session on an inactive backend. -/
theorem route_of_inactive (ha : entry.backendId ∉ s.ring.activeServers) :
    ((machine hashKey).answer s (.routeRequest clk ft assigned)).backend? =
        failoverChoice s.ring ft.toKey ∧
      ∃ entry', ((machine hashKey).next s (.routeRequest clk ft assigned)).slot ft.toKey =
          some entry' ∧
        SameCourse entry' (failoverEntry s.ring ft.toKey clk.steady entry) := by
  have hrouted := SessionManager.routeRequest_of_inactive s.ring clk assigned he hb hx ha
  simp only [Machine.answer, Machine.next, machine, slot, hrouted, failoverChoice, failoverEntry]
  split_ifs with hs
  · exact ⟨rfl, entry, he, rfl, rfl, rfl⟩
  · refine ⟨rfl, _, SessionManager.sessions_put_self _ _ _, rfl, rfl, ?_⟩
    simp [SessionEntry.reassign]

/-- **The eager way**: the same request after the sweep has been over the session. -/
theorem route_of_swept (hring : s.ring.Sound) (ha : entry.backendId ∉ s.ring.activeServers)
    (hle : entry.lastAccess ≤ clk.steady) {clk' : Clock} (hclk : clk'.steady = clk.steady)
    {s' : SessionSystem hashKey}
    (hs' : s' = (machine hashKey).next s (.handleServerDown clk' entry.backendId)) :
    ((machine hashKey).answer s' (.routeRequest clk ft assigned)).backend? =
        failoverChoice s.ring ft.toKey ∧
      ∃ entry', ((machine hashKey).next s' (.routeRequest clk ft assigned)).slot ft.toKey =
          some entry' ∧
        SameCourse entry' (failoverEntry s.ring ft.toKey clk.steady entry) := by
  have hswept : s'.slot ft.toKey =
      some (s.manager.redistribute s.ring clk' entry.backendId ft.toKey entry) := by
    rw [hs']
    exact (s.manager.sessions_handleServerDown s.ring clk' ft.toKey entry.backendId).trans
      (congrArg (Option.map _) he)
  have hring' : s'.ring = s.ring := by rw [hs']; rfl
  have hexp : ∀ t e, s'.manager.isExpired t e = s.manager.isExpired t e := by
    rw [hs']
    exact fun _ _ => rfl
  by_cases hs : s.ring.getServer ft.toKey < 0
  · -- no server is left, and the sweep has moved nothing
    rw [SessionManager.redistribute_of_neg _ _ _ _ hs] at hswept
    have h := route_of_inactive clk assigned hswept hb ((hexp _ _).trans hx) (by rwa [hring'])
    rwa [hring'] at h
  · have hg : s.ring.getServer ft.toKey ∈ s.ring.activeServers :=
      hring.getServer_mem (not_lt.mp hs)
    have hne : s.ring.getServer ft.toKey ≠ entry.backendId := fun h => ha (h ▸ hg)
    rw [SessionManager.redistribute_of_live _ _ _ _ (by rwa [hclk]) (not_lt.mp hs) hne] at hswept
    -- the moved session has just been accessed, and its timeout is not negative
    have hfresh : s'.manager.isExpired clk.steady (entry.reassign clk' (s.ring.getServer ft.toKey)
        (bytes "Server " ++ signedDecimal entry.backendId ++
          bytes " went down — redistributed")) = false := by
      have halive := SessionManager.isExpired_eq_false_iff.mp hx
      rw [hexp, SessionManager.isExpired_eq_false_iff]
      calc clk.steady ≤ entry.lastAccess + seconds (s.manager.effectiveTimeout entry) := halive
        _ ≤ clk'.steady + seconds (s.manager.effectiveTimeout entry) := by rw [hclk]; gcongr
    have hrouted := SessionManager.routeRequest_of_sticky s'.ring clk assigned hswept hb
      hfresh (hring' ▸ hg)
    simp only [Machine.answer, Machine.next, machine, slot, hrouted, failoverChoice, failoverEntry,
      if_neg hs]
    refine ⟨rfl, _, SessionManager.sessions_put_self _ _ _, rfl, rfl, ?_⟩
    simp [SessionEntry.reassign]

end Routes

/-- **Eager and lazy failover agree.** In any reachable state take a server off the ring, and
then make one request for each of its live sessions, in any order, all at one time `t` that no
clock has passed. Whether or not the sweep comes first, each of them is assigned the same
backend, or told alike that there is none, and leaves the same backend, the same last access
and the same sequence of backends in the history. -/
theorem eager_lazy_agree (hashKey : ByteString → UInt64)
    (vnodesPerServer defaultTimeoutSec : ℤ) (ops : List Op) (x : ℤ) (clk : Clock)
    (hnow : ∀ t ∈ ops.flatMap Op.times, t ≤ clk.steady) (eager lazy : List Op)
    (heager : Drains clk.steady
      ((afterOps hashKey vnodesPerServer defaultTimeoutSec ops).liveOn clk.steady x) eager)
    (hlazy : Drains clk.steady
      ((afterOps hashKey vnodesPerServer defaultTimeoutSec ops).liveOn clk.steady x) lazy) :
    ∀ k ∈ (afterOps hashKey vnodesPerServer defaultTimeoutSec ops).liveOn clk.steady x,
      (∃ choice,
        outcomes k ((machine hashKey).trace (afterOps hashKey vnodesPerServer defaultTimeoutSec
          (ops ++ [.removeServer x, .handleServerDown clk x])) eager) = [choice] ∧
        outcomes k ((machine hashKey).trace (afterOps hashKey vnodesPerServer defaultTimeoutSec
          (ops ++ [.removeServer x])) lazy) = [choice]) ∧
      ∃ entry entry',
        (afterOps hashKey vnodesPerServer defaultTimeoutSec
          (ops ++ [.removeServer x, .handleServerDown clk x] ++ eager)).slot k = some entry ∧
        (afterOps hashKey vnodesPerServer defaultTimeoutSec
          (ops ++ [.removeServer x] ++ lazy)).slot k = some entry' ∧
        entry.backendId = entry'.backendId ∧ entry.lastAccess = entry'.lastAccess ∧
        entry.pathHistory.map PathHistoryEntry.backendId =
          entry'.pathHistory.map PathHistoryEntry.backendId := by
  intro k hk
  obtain ⟨entry, he, rfl, hb, hx⟩ := id hk
  have hle : entry.lastAccess ≤ clk.steady := hnow _ (lastAccess_mem_times he)
  set s := (machine hashKey).run (init hashKey vnodesPerServer defaultTimeoutSec)
    (ops ++ [.removeServer entry.backendId]) with hs
  have hslot : s.slot k = some entry := by
    rw [hs, Machine.run_concat]
    exact he
  have hxs : s.manager.isExpired clk.steady entry = false := by
    rw [hs, Machine.run_concat]
    exact hx
  have hring : s.ring.Sound := sound_run (ConsistentHashRing.sound_init vnodesPerServer) _
  have hgone : entry.backendId ∉ s.ring.activeServers := by
    rw [hs, Machine.run_concat]
    exact fun h => ((ConsistentHashRing.mem_activeServers_removeServer _ _).mp h).1 rfl
  obtain ⟨clk₁, ft₁, assigned₁, ht₁, rfl, hout₁, hrun₁⟩ := outcomes_of_drains heager
    ((machine hashKey).next s (.handleServerDown clk entry.backendId)) hk
  obtain ⟨clk₂, ft₂, assigned₂, ht₂, hft, hout₂, hrun₂⟩ := outcomes_of_drains hlazy s hk
  obtain ⟨hto₁, entry₁, he₁, hcourse₁⟩ := route_of_swept clk₁ assigned₁ hslot hb
    (ht₁ ▸ hxs) hring hgone (ht₁ ▸ hle) ht₁.symm rfl
  have hslot₂ : s.slot ft₂.toKey = some entry := hft ▸ hslot
  obtain ⟨hto₂, entry₂, he₂, hcourse₂⟩ :=
    route_of_inactive clk₂ assigned₂ hslot₂ hb (ht₂ ▸ hxs) hgone
  rw [hto₁] at hout₁
  rw [hto₂, hft] at hout₂
  rw [hft, ht₂] at hcourse₂
  rw [ht₁] at hcourse₁
  have hsweep : (machine hashKey).run (init hashKey vnodesPerServer defaultTimeoutSec)
      (ops ++ [.removeServer entry.backendId, .handleServerDown clk entry.backendId]) =
        (machine hashKey).next s (.handleServerDown clk entry.backendId) := by
    rw [hs, ← Machine.run_concat, List.append_assoc]
    rfl
  refine ⟨⟨_, ?_, hout₂⟩, entry₁, entry₂, ?_, ?_, ?_⟩
  · rw [afterOps, hsweep, hout₁]
  · rw [afterOps, Machine.run_append, hsweep, hrun₁, he₁]
  · rw [afterOps, Machine.run_append, ← hs, hrun₂, ← hft, he₂]
  · exact ⟨hcourse₁.backendId.trans hcourse₂.backendId.symm,
      hcourse₁.lastAccess.trans hcourse₂.lastAccess.symm,
      hcourse₁.history.trans hcourse₂.history.symm⟩

/-- A second client of server `0`. -/
def secondTuple : FiveTuple := { clientTuple with srcPort := 4005 }

/-- Two clients on server `0` of two. -/
def bothServed : List Op :=
  [.addServer 0, .addServer 1, .routeRequest ⟨0, []⟩ clientTuple (-1),
    .routeRequest ⟨1, []⟩ secondTuple (-1)]

/-- Each of them makes a request. -/
def bothReturn : List Op :=
  [.routeRequest ⟨5, []⟩ clientTuple (-1), .routeRequest ⟨5, []⟩ secondTuple (-1)]

theorem liveOn_bothServed : (afterOps fnvHashKey 1 300 bothServed).liveOn 5 0 =
    {clientTuple.toKey, secondTuple.toKey} := by
  have htable : (afterOps fnvHashKey 1 300 bothServed).manager.sessions.toList =
      [(clientTuple.toKey, SessionManager.newEntry clientTuple ⟨0, []⟩ 0),
        (secondTuple.toKey, SessionManager.newEntry secondTuple ⟨1, []⟩ 0)] := by
    decide +kernel
  have hlive : SessionManager.isExpired (afterOps fnvHashKey 1 300 bothServed).manager 5
      (SessionManager.newEntry clientTuple ⟨0, []⟩ 0) = false := by decide +kernel
  have hlive' : SessionManager.isExpired (afterOps fnvHashKey 1 300 bothServed).manager 5
      (SessionManager.newEntry secondTuple ⟨1, []⟩ 0) = false := by decide +kernel
  have hslot (k : ByteString) (entry : SessionEntry) :
      (afterOps fnvHashKey 1 300 bothServed).slot k = some entry ↔
        k = clientTuple.toKey ∧ entry = SessionManager.newEntry clientTuple ⟨0, []⟩ 0 ∨
          k = secondTuple.toKey ∧ entry = SessionManager.newEntry secondTuple ⟨1, []⟩ 0 := by
    rw [slot, ← Std.ExtTreeMap.mem_toList_iff_getElem?_eq_some, htable]
    simp
  ext k
  simp only [liveOn, Set.mem_ofPred_eq, hslot, Set.mem_insert_iff, Set.mem_singleton_iff]
  constructor
  · rintro ⟨_, ⟨h, -⟩ | ⟨h, -⟩, -⟩
    · exact .inl h
    · exact .inr h
  · rintro (rfl | rfl)
    · exact ⟨_, .inl ⟨rfl, rfl⟩, rfl, rfl, hlive⟩
    · exact ⟨_, .inr ⟨rfl, rfl⟩, rfl, rfl, hlive'⟩

/-- Server `0` is lost. The clients come back in one order after the sweep, and in the other
without. -/
theorem eager_lazy_agree_pair :
    (∃ choice,
      outcomes clientTuple.toKey ((machine fnvHashKey).trace (afterOps fnvHashKey 1 300
        (bothServed ++ [.removeServer 0, .handleServerDown ⟨5, []⟩ 0])) bothReturn) = [choice] ∧
      outcomes clientTuple.toKey ((machine fnvHashKey).trace (afterOps fnvHashKey 1 300
        (bothServed ++ [.removeServer 0])) bothReturn.reverse) = [choice]) ∧
    ∃ choice,
      outcomes secondTuple.toKey ((machine fnvHashKey).trace (afterOps fnvHashKey 1 300
        (bothServed ++ [.removeServer 0, .handleServerDown ⟨5, []⟩ 0])) bothReturn) = [choice] ∧
      outcomes secondTuple.toKey ((machine fnvHashKey).trace (afterOps fnvHashKey 1 300
        (bothServed ++ [.removeServer 0])) bothReturn.reverse) = [choice] := by
  have hne : clientTuple.toKey ≠ secondTuple.toKey := by decide
  have heager : Drains 5 ((afterOps fnvHashKey 1 300 bothServed).liveOn 5 0) bothReturn := by
    rw [liveOn_bothServed]
    exact ⟨by simp [bothReturn], by simp [bothReturn, Op.key?, hne],
      fun k => by simp [bothReturn, Op.key?]⟩
  have hlazy : Drains 5 ((afterOps fnvHashKey 1 300 bothServed).liveOn 5 0)
      bothReturn.reverse := by
    rw [liveOn_bothServed]
    exact ⟨by simp [bothReturn], by simp [bothReturn, Op.key?, hne.symm],
      fun k => by simp [bothReturn, Op.key?, or_comm]⟩
  have hagree := eager_lazy_agree fnvHashKey 1 300 bothServed 0 ⟨5, []⟩ (by decide) bothReturn
    bothReturn.reverse heager hlazy
  rw [liveOn_bothServed] at hagree
  exact ⟨(hagree clientTuple.toKey (.inl rfl)).1, (hagree secondTuple.toKey (.inr rfl)).1⟩

end SessionSystem

end SessionAffinity
