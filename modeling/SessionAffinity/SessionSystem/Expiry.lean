import SessionAffinity.SessionSystem.Slot

/-!
# Expired sessions and the admin operations

A session that has idled for longer than its timeout should be dead from then on, whether or
not it is still in the table. Requests, sweeps, counts and listings look at the expiry of the
session they handle. The admin operations do not: `forceReassign` refreshes the last access of
an expired session, `setSessionExpiry` gives it a longer timeout, and either brings it back to
life; `blockSession` reports success on it.

`stays_dead_iff` says that this is the whole defect: along a run, expired sessions stay dead
and are treated as absent exactly when no admin operation gets hold of one (`Spares`).
`watchDeath` is the observer who decides what has been expired: it looks at the session before
and after every call, and remembers the moment of its death for as long as the entry is there.
-/

namespace SessionAffinity

namespace SessionSystem

open SessionManager (isExpired_congr isExpired_mono)

variable {hashKey : ByteString → UInt64}

/-- A call made at the moment `now`, which is what its clock reads if it looks. -/
structure Call where
  now : TimePoint
  op : Op
  times_eq : ∀ t ∈ op.times, t = now

/-- The session manager and its ring as a machine whose calls are made at known moments. -/
def timed (hashKey : ByteString → UInt64) : Machine (SessionSystem hashKey) Call Answer where
  step s c := (machine hashKey).step s c.op

/-- There is a session under `k`, and it is expired at time `t`. -/
def expiredAt (s : SessionSystem hashKey) (t : TimePoint) (k : ByteString) : Bool :=
  (s.slot k).any fun entry => s.manager.isExpired t entry

/-- The operations by which an administrator handles the session of `k`. -/
def Op.administers (k : ByteString) : Op → Bool
  | forceReassign _ key => key = k
  | blockSession key _ => key = k
  | setSessionExpiry key _ => key = k
  | _ => false

/-- The observer of deaths: the moment at which the entry in the slot of `k` was first seen
expired, before or after a call, if it has been. -/
def watchDeath (k : ByteString) (s : SessionSystem hashKey) (c : Call)
    (died : Option TimePoint) : Option TimePoint :=
  let s' := (timed hashKey).next s c
  if s.startsOver k c.op then
    if s'.expiredAt c.now k then some c.now else none
  else if s'.slot k = none then none
  else died.or (if s.expiredAt c.now k || s'.expiredAt c.now k then some c.now else none)

/-- **What is asked of a call** when an observer has seen the session of `k` die, or it is
expired at the moment of the call. -/
structure StaysDead (k : ByteString) (s : SessionSystem hashKey) (died : Option TimePoint)
    (c : Call) : Prop where
  /-- The session has not come back to life. -/
  dead : ∀ t, died = some t → ∀ t', t ≤ t' → s.expiredAt t' k = true
  /-- The call does not bring it back to life. -/
  after : s.expiredAt c.now k = true → s.startsOver k c.op = false →
    ((timed hashKey).next s c).slot k ≠ none →
      ∀ t, c.now ≤ t → ((timed hashKey).next s c).expiredAt t k = true
  /-- To the admin operations it is absent. -/
  absent : s.expiredAt c.now k = true → c.op.administers k = true →
    (timed hashKey).next s c = s ∧ (timed hashKey).answer s c = .found false
  /-- A request that succeeds makes a fresh session, with a history of one entry. -/
  renewed : s.expiredAt c.now k = true → ∀ clk ft assigned status backend,
    c.op = .routeRequest clk ft assigned → ft.toKey = k →
    (timed hashKey).answer s c = .routed status backend →
    status = .success ∨ status = .reassigned →
      ((timed hashKey).next s c).slot k = some (SessionManager.newEntry ft clk backend)

/-- No admin operation gets hold of an expired session: it is not blocked, unblocked or given
a timeout, and it is not forced over to another server, for want of one. -/
def Spares (s : SessionSystem hashKey) (c : Call) : Prop :=
  match c.op with
  | .blockSession key _ => s.expiredAt c.now key = false
  | .setSessionExpiry key _ => s.expiredAt c.now key = false
  | .forceReassign _ key => s.expiredAt c.now key = true →
      ∀ entry, s.slot key = some entry →
        SessionManager.forcedBackend s.ring key entry.backendId = none
  | _ => True

/-! ### Expiry of a slot -/

theorem expiredAt_of_slot {s : SessionSystem hashKey} {k : ByteString} {entry : SessionEntry}
    (he : s.slot k = some entry) (t : TimePoint) :
    s.expiredAt t k = s.manager.isExpired t entry := by
  rw [expiredAt, he]
  rfl

theorem expiredAt_eq_true {s : SessionSystem hashKey} {t : TimePoint} {k : ByteString} :
    s.expiredAt t k = true ↔
      ∃ entry, s.slot k = some entry ∧ s.manager.isExpired t entry = true := by
  rw [expiredAt, Option.any_eq_true]

theorem expiredAt_mono {s : SessionSystem hashKey} {t t' : TimePoint} {k : ByteString}
    (h : t ≤ t') (hx : s.expiredAt t k = true) : s.expiredAt t' k = true := by
  obtain ⟨entry, he, hx⟩ := expiredAt_eq_true.mp hx
  exact expiredAt_eq_true.mpr ⟨entry, he, isExpired_mono h hx⟩

/-- Expiry depends on the slot. -/
theorem expiredAt_next_of_slot {s : SessionSystem hashKey} {c : Call} {k : ByteString}
    (h : ((timed hashKey).next s c).slot k = s.slot k) (t : TimePoint) :
    ((timed hashKey).next s c).expiredAt t k = s.expiredAt t k := by
  rw [expiredAt, expiredAt, h]
  have hexp := isExpired_congr (next_defaultTimeoutSec s c.op) t
  exact congrArg (Option.any · _) (funext hexp)

/-! ### One call -/

/-- A call that finds an expired session under `k` and spares it leaves it there, or starts
over, or leaves nothing. -/
theorem slot_next_of_expired {s : SessionSystem hashKey} {c : Call} {k : ByteString}
    (hc : Spares s c) (hx : s.expiredAt c.now k = true) (hop : s.startsOver k c.op = false) :
    ((timed hashKey).next s c).slot k = s.slot k ∨ ((timed hashKey).next s c).slot k = none := by
  have hlive {entry : SessionEntry} (he : s.slot k = some entry) {clk : Clock}
      (hclk : clk.steady ∈ c.op.times) : s.manager.isExpired clk.steady entry ≠ false := by
    rw [c.times_eq _ hclk, ← expiredAt_of_slot he, hx]
    exact Bool.noConfusion
  have hstep : SlotStep s k c.op (s.slot k) (((timed hashKey).next s c).slot k) :=
    slotStep_next s k c.op
  generalize hslot : s.slot k = o at hstep
  generalize ((timed hashKey).next s c).slot k = o' at hstep
  obtain ⟨now, op, htimes⟩ := c
  dsimp only at *
  cases hstep with
  | kept => exact .inl rfl
  | unplaced | cleaned => exact .inr rfl
  | @created clk ft assigned _ hk hx' =>
    have hstart : s.startsOver k (.routeRequest clk ft assigned) = true :=
      (startsOver_routeRequest hk).mpr fun entry he => hx' entry (hslot ▸ he)
    exact absurd (hstart.symm.trans hop) (by simp)
  | refreshed _ _ hx' | failedOver _ _ hx' | redistributed _ hx' =>
    exact absurd hx' (hlive hslot (List.mem_singleton_self _))
  | forced hf => exact absurd ((hc hx _ hslot).symm.trans hf) (by simp)
  | blockSet | expirySet => exact absurd (hx.symm.trans hc) (by simp)

/-- What an observer who reports a death has seen. -/
theorem of_watchDeath {k : ByteString} {s : SessionSystem hashKey} {c : Call}
    {died : Option TimePoint} {t : TimePoint} (h : watchDeath k s c died = some t) :
    t = c.now ∧ ((timed hashKey).next s c).expiredAt c.now k = true ∨
    s.startsOver k c.op = false ∧ ((timed hashKey).next s c).slot k ≠ none ∧
      (died = some t ∨ t = c.now ∧ s.expiredAt c.now k = true) := by
  rw [watchDeath] at h
  split_ifs at h with hstart hfresh hnone hexp
  · exact .inl ⟨(Option.some.inj h).symm, hfresh⟩
  · rcases Option.or_eq_some_iff.mp h with hdied | ⟨-, hnow⟩
    · exact .inr ⟨by simpa using hstart, hnone, .inl hdied⟩
    · have ht : t = c.now := (Option.some.inj hnow).symm
      rcases Bool.or_eq_true_iff.mp hexp with hx | hx
      · exact .inr ⟨by simpa using hstart, hnone, .inr ⟨ht, hx⟩⟩
      · exact .inl ⟨ht, hx⟩
  · rw [Option.or_none] at h
    exact .inr ⟨by simpa using hstart, hnone, .inl h⟩

/-- The observer is right: what has been seen to die is in the slot, and was expired then. -/
def Seen (k : ByteString) (s : SessionSystem hashKey) (died : Option TimePoint) : Prop :=
  ∀ t, died = some t → s.expiredAt t k = true

/-- **Calls that spare the expired sessions keep the observer right.** -/
theorem Seen.next {k : ByteString} {s : SessionSystem hashKey} {died : Option TimePoint}
    (h : Seen k s died) {c : Call} (hnow : ∀ t, died = some t → t ≤ c.now) (hc : Spares s c) :
    Seen k ((timed hashKey).next s c) (watchDeath k s c died) := by
  intro t ht
  rcases of_watchDeath ht with ⟨rfl, hx⟩ | ⟨hstart, hsome, hdied⟩
  · exact hx
  · have hseen : s.expiredAt t k = true := by
      rcases hdied with hdied | ⟨rfl, hx⟩
      · exact h t hdied
      · exact hx
    have hle : t ≤ c.now := by
      rcases hdied with hdied | ⟨rfl, -⟩
      · exact hnow t hdied
      · exact le_rfl
    have hsame := (slot_next_of_expired hc (expiredAt_mono hle hseen) hstart).resolve_right hsome
    rw [expiredAt_next_of_slot hsame, hseen]

/-- The observer reports moments of calls. -/
theorem mem_now_of_watchDeath {k : ByteString} {s : SessionSystem hashKey} {calls : List Call}
    {t : TimePoint} (h : (timed hashKey).watch (watchDeath k) s none calls = some t) :
    t ∈ calls.map Call.now := by
  induction calls using List.reverseRecOn generalizing t with
  | nil => exact absurd h (by simp)
  | append_singleton calls c ih =>
    rw [Machine.watch_concat] at h
    rw [List.map_append, List.mem_append]
    rcases of_watchDeath h with ⟨rfl, -⟩ | ⟨-, -, hdied | ⟨rfl, -⟩⟩
    · exact .inr (List.mem_singleton_self _)
    · exact .inl (ih hdied)
    · exact .inr (List.mem_singleton_self _)

/-- A request that finds an expired session and succeeds makes a fresh one. -/
theorem slot_of_routed_expired {s : SessionSystem hashKey} {clk : Clock} {ft : FiveTuple}
    {assigned : ℤ} (hx : s.expiredAt clk.steady ft.toKey = true) {status : RequestStatus}
    {backend : ℤ} (hans : (machine hashKey).answer s (.routeRequest clk ft assigned) =
      .routed status backend) (hok : status = .success ∨ status = .reassigned) :
    ((machine hashKey).next s (.routeRequest clk ft assigned)).slot ft.toKey =
      some (SessionManager.newEntry ft clk backend) := by
  obtain ⟨entry, he, hx⟩ := expiredAt_eq_true.mp hx
  have hdead {e : SessionEntry} (he' : s.manager.sessions[ft.toKey]? = some e) :
      s.manager.isExpired clk.steady e ≠ false := by
    obtain rfl := Option.some.inj (he.symm.trans he')
    rw [hx]
    exact Bool.noConfusion
  have hr := s.manager.routed_routeRequest s.ring clk ft assigned
  simp only [Machine.answer, Machine.next, machine, slot] at hans ⊢
  generalize s.manager.routeRequest s.ring clk ft assigned = r at hr hans
  cases hr with
  | blocked | unplaced =>
    obtain ⟨rfl, rfl⟩ := Answer.routed.inj hans
    simp at hok
  | sticky he' _ hx' | failover he' _ hx' | stranded he' _ hx' => exact absurd hx' (hdead he')
  | created =>
    obtain ⟨rfl, rfl⟩ := Answer.routed.inj hans
    exact SessionManager.sessions_put_self _ _ _

/-- To an admin operation that spares it, an expired session is absent. -/
theorem absent_of_spares {k : ByteString} {s : SessionSystem hashKey} {c : Call}
    (hc : Spares s c) (hx : s.expiredAt c.now k = true) (hadmin : c.op.administers k = true) :
    (timed hashKey).next s c = s ∧ (timed hashKey).answer s c = .found false := by
  obtain ⟨now, op, htimes⟩ := c
  cases op with
  | forceReassign clk key =>
    obtain rfl : key = k := by simpa [Op.administers] using hadmin
    obtain ⟨entry, he, -⟩ := expiredAt_eq_true.mp hx
    have hnone := hc hx entry he
    have hf : s.manager.forceReassign s.ring clk key = (s.manager, false) := by
      rw [slot] at he
      simp [SessionManager.forceReassign, he, hnone]
    simp only [Machine.next, Machine.answer, timed, machine, hf, and_self]
  | blockSession key block =>
    obtain rfl : key = k := by simpa [Op.administers] using hadmin
    exact absurd (hx.symm.trans hc) (by simp)
  | setSessionExpiry key timeoutSec =>
    obtain rfl : key = k := by simpa [Op.administers] using hadmin
    exact absurd (hx.symm.trans hc) (by simp)
  | _ => exact absurd hadmin (by simp [Op.administers])

/-- An admin operation that takes expired sessions for absent spares them. -/
theorem spares_of_absent {s : SessionSystem hashKey} {c : Call}
    (h : ∀ k, s.expiredAt c.now k = true → c.op.administers k = true →
      (timed hashKey).answer s c = .found false) : Spares s c := by
  obtain ⟨now, op, htimes⟩ := c
  cases op with
  | forceReassign clk key =>
    intro hx entry he
    have hans : (s.manager.forceReassign s.ring clk key).2 = false :=
      Answer.found.inj (h key hx (by simp [Op.administers]))
    rw [slot] at he
    cases hf : SessionManager.forcedBackend s.ring key entry.backendId with
    | none => rfl
    | some b => simp [SessionManager.forceReassign, he, hf] at hans
  | blockSession key block =>
    refine Bool.eq_false_iff.mpr fun hx => ?_
    have hans : (s.manager.blockSession key block).2 = false :=
      Answer.found.inj (h key hx (by simp [Op.administers]))
    obtain ⟨entry, he, -⟩ := expiredAt_eq_true.mp hx
    rw [slot] at he
    simp [SessionManager.blockSession, he] at hans
  | setSessionExpiry key timeoutSec =>
    refine Bool.eq_false_iff.mpr fun hx => ?_
    have hans : (s.manager.setSessionExpiry key timeoutSec).2 = false :=
      Answer.found.inj (h key hx (by simp [Op.administers]))
    obtain ⟨entry, he, -⟩ := expiredAt_eq_true.mp hx
    rw [slot] at he
    simp [SessionManager.setSessionExpiry, he] at hans
  | _ => trivial

/-- **A call that spares the expired sessions leaves them dead.** -/
theorem staysDead_of_spares {k : ByteString} {s : SessionSystem hashKey}
    {died : Option TimePoint} (h : Seen k s died) {c : Call} (hc : Spares s c) :
    StaysDead k s died c where
  dead t ht t' hle := expiredAt_mono hle (h t ht)
  after hx hstart hsome t hle := by
    have hsame := (slot_next_of_expired hc hx hstart).resolve_right hsome
    rw [expiredAt_next_of_slot hsame]
    exact expiredAt_mono hle hx
  absent hx hadmin := absent_of_spares hc hx hadmin
  renewed hx clk ft assigned status backend hop hk hans hok := by
    obtain ⟨now, op, htimes⟩ := c
    dsimp only at hop
    subst hop hk
    have hclk : clk.steady = now := htimes _ (List.mem_singleton_self _)
    exact slot_of_routed_expired (hclk ▸ hx) hans hok

/-! ### Whole runs -/

/-- **Expired sessions stay dead, but for the admin operations.** In a run from an empty table
at nondecreasing times, whatever has been seen expired stays dead, is absent to the admin
operations and is followed by a fresh session, if and only if every admin operation of the run
spares the sessions that are expired when it is called. -/
theorem stays_dead_iff (hashKey : ByteString → UInt64) (ring : ConsistentHashRing hashKey)
    (defaultTimeoutSec : ℤ) (calls : List Call)
    (htimes : (calls.map Call.now).Pairwise (· ≤ ·)) :
    (∀ pre c, pre ++ [c] <+: calls → ∀ k,
        StaysDead k ((timed hashKey).run ⟨ring, .init defaultTimeoutSec⟩ pre)
          ((timed hashKey).watch (watchDeath k) ⟨ring, .init defaultTimeoutSec⟩ none pre) c) ↔
      (timed hashKey).Along Spares ⟨ring, .init defaultTimeoutSec⟩ calls := by
  rw [Machine.along_iff_forall_prefix]
  constructor
  · intro h pre c hpre
    exact spares_of_absent fun k hx hadmin => ((h pre c hpre k).absent hx hadmin).2
  · intro h pre c hpre k
    refine staysDead_of_spares ?_ (h pre c hpre)
    -- the observer is right at every point of the run
    suffices hseen : ∀ js, js <+: calls →
        Seen k ((timed hashKey).run ⟨ring, .init defaultTimeoutSec⟩ js)
          ((timed hashKey).watch (watchDeath k) ⟨ring, .init defaultTimeoutSec⟩ none js) from
      hseen pre ((List.prefix_append _ _).trans hpre)
    intro js hjs
    induction js using List.reverseRecOn with
    | nil => exact fun t ht => absurd ht (by simp)
    | append_singleton js c ih =>
      rw [Machine.run_concat, Machine.watch_concat]
      refine (ih ((List.prefix_append _ _).trans hjs)).next (fun t ht => ?_) (h js c hjs)
      have hsub := htimes.sublist (hjs.map Call.now).sublist
      rw [List.map_append, List.pairwise_append] at hsub
      exact hsub.2.2 t (mem_now_of_watchDeath ht) _ (List.mem_singleton_self _)

/-- A session that is moved while it lives, and has expired when its next request comes. -/
def movedAlive : List Call :=
  [⟨0, .addServer 0, by simp [Op.times]⟩, ⟨0, .addServer 1, by simp [Op.times]⟩,
    ⟨0, .routeRequest ⟨0, []⟩ clientTuple (-1), by simp [Op.times]⟩,
    ⟨5, .forceReassign ⟨5, []⟩ clientTuple.toKey, by simp [Op.times]⟩,
    ⟨seconds 301, .routeRequest ⟨seconds 301, []⟩ clientTuple (-1), by simp [Op.times]⟩]

/-- A session that has idled for 301 seconds of 300 when an administrator moves it. -/
def movedDead : List Call :=
  [⟨0, .addServer 0, by simp [Op.times]⟩, ⟨0, .addServer 1, by simp [Op.times]⟩,
    ⟨0, .routeRequest ⟨0, []⟩ clientTuple (-1), by simp [Op.times]⟩,
    ⟨seconds 301, .activeSessionCount ⟨seconds 301, []⟩, by simp [Op.times]⟩,
    ⟨seconds 301, .forceReassign ⟨seconds 301, []⟩ clientTuple.toKey, by simp [Op.times]⟩,
    ⟨seconds 301, .activeSessionCount ⟨seconds 301, []⟩, by simp [Op.times]⟩]

theorem stays_dead_movedAlive :
    (∀ pre c, pre ++ [c] <+: movedAlive → ∀ k,
      StaysDead k ((timed fnvHashKey).run ⟨.init fnvHashKey 1, .init 300⟩ pre)
        ((timed fnvHashKey).watch (watchDeath k) ⟨.init fnvHashKey 1, .init 300⟩ none pre) c) ∧
      (movedAlive.map Call.now).Pairwise (· ≤ ·) := by
  refine ⟨(stays_dead_iff fnvHashKey (.init fnvHashKey 1) 300 movedAlive (by decide)).mpr ?_,
    by decide⟩
  exact ⟨trivial, trivial, trivial, fun hx => absurd hx (by decide +kernel), trivial, trivial⟩

/-- The dead session is not counted, then forced over to the other server, and counted again. -/
theorem revived_movedDead :
    ((timed fnvHashKey).trace ⟨.init fnvHashKey 1, .init 300⟩ movedDead).map Prod.snd =
      [.done, .done, .routed .success 0, .count 0, .found true, .count 1] ∧
    ¬ ∀ pre c, pre ++ [c] <+: movedDead → ∀ k,
      StaysDead k ((timed fnvHashKey).run ⟨.init fnvHashKey 1, .init 300⟩ pre)
        ((timed fnvHashKey).watch (watchDeath k) ⟨.init fnvHashKey 1, .init 300⟩ none pre) c := by
  refine ⟨by decide +kernel, fun h => ?_⟩
  have habsent := (h (movedDead.take 4) _ ⟨[_], rfl⟩ clientTuple.toKey).absent
    (by decide +kernel) (by decide)
  exact absurd habsent.2 (by decide +kernel)

end SessionSystem

end SessionAffinity
