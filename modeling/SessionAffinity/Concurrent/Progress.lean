import SessionAffinity.Concurrent
import SessionAffinity.Foundations.Progress

/-!
# Concurrent calls return

The calls of the engine take several locks, but only the session lock is held across steps, and
none of them waits for anything else. So no schedule of the threads gets stuck before all calls
have returned, and none goes on forever (`calls_return`): the failover of a request is taken once,
and the sweep visits each session of the table once.

The rank of a position counts the stages of the call that are left, and within a stage the steps.
How long a sweep takes is settled only when it gets the lock, by the size of the table then, so
the pairs are compared lexicographically.
-/

namespace SessionAffinity

namespace Concurrent

variable {hashKey : ByteString → UInt64} {cfg : Config}

/-- The steps of `routeRequest` that are left. -/
def Routing.rank : Routing → ℕ
  | enter => 4
  | find _ => 3
  | checkAlive _ _ | create _ => 2
  | failover _ _ => 1
  | storeSticky _ _ | storeFailover _ _ _ | storeNew _ _ => 0

/-- The steps of `handleServerDown` that are left, once it has the lock. -/
def Sweep.rank : Sweep → ℕ
  | enter => 0
  | scan todo => 3 * todo.length
  | store _ _ _ todo => 3 * todo.length + 1
  | choose _ _ todo => 3 * todo.length + 2

/-- The steps of `forceReassign` that are left. -/
def Forcing.rank : Forcing → ℕ
  | enter => 4
  | find => 3
  | choose _ => 2
  | pickOther _ _ => 1
  | store _ _ => 0

/-- The stages of the call that are left, and the steps of the stage. -/
def Pc.rank : Pc → ℕ ×ₗ ℕ
  | idle => toLex (0, 0)
  | process _ _ _ | restore _ => toLex (1, 0)
  | forceReassign _ s => toLex (1, s.rank)
  | checkOnline _ true _ _ | start _ => toLex (2, 0)
  | routeRequest _ true _ s => toLex (3, s.rank)
  | handleServerDown _ _ .enter => toLex (5, 0)
  | handleServerDown _ _ s => toLex (4, s.rank)
  | evict _ _ | retire _ => toLex (6, 0)
  | checkOnline _ false _ _ | stop _ => toLex (7, 0)
  | routeRequest _ false _ s => toLex (8, s.rank)
  | limit _ => toLex (9, 0)
  | validate _ => toLex (10, 0)
  | checkActive _ => toLex (11, 0)

section Steps

variable {sm : SessionManager} {ring : ConsistentHashRing hashKey} {clk : Clock}

theorem Routing.rank_step {ft : FiveTuple} {assigned : ℤ} {s s' : Routing}
    (h : (s.step sm ring clk ft assigned).2 = .inl s') : s'.rank < s.rank := by
  cases s with
  | enter =>
    obtain rfl := Sum.inl.inj h
    simp [rank]
  | find now =>
    rw [step] at h
    split at h
    · split_ifs at h <;> obtain rfl := Sum.inl.inj h <;> simp [rank]
    · obtain rfl := Sum.inl.inj h
      simp [rank]
  | checkAlive | failover | create =>
    simp only [step] at h
    split_ifs at h <;> obtain rfl := Sum.inl.inj h <;> simp [rank]
  | storeSticky | storeFailover | storeNew => exact absurd h (by simp [step])

/-- A sweep visits the keys one after another. -/
theorem Sweep.rank_step {order : List ByteString} {serverId : ℤ} {s s' : Sweep}
    (hs : s ≠ enter) (h : (s.step sm ring clk order serverId).2 = some s') :
    s' ≠ enter ∧ s'.rank < s.rank := by
  cases s with
  | enter => exact absurd rfl hs
  | scan todo =>
    cases todo with
    | nil => exact absurd h (by simp [step])
    | cons key todo =>
      rw [step] at h
      split at h
      · split_ifs at h <;> obtain rfl := Option.some.inj h <;> simp only [rank, List.length_cons,
          ne_eq, reduceCtorEq, not_false_eq_true, true_and] <;> omega
      · obtain rfl := Option.some.inj h
        simp [rank]
  | choose key entry todo =>
    simp only [step] at h
    split_ifs at h <;> obtain rfl := Option.some.inj h <;> simp [rank]
  | store key entry backend todo =>
    obtain rfl := Option.some.inj h
    simp [rank]

theorem Forcing.rank_step {key : ByteString} {s s' : Forcing}
    (h : (s.step sm ring clk key).2 = .inl s') : s'.rank < s.rank := by
  cases s with
  | enter =>
    obtain rfl := Sum.inl.inj h
    simp [rank]
  | find =>
    rw [step] at h
    split at h
    · obtain rfl := Sum.inl.inj h
      simp [rank]
    · exact absurd h (by simp)
  | choose | pickOther =>
    simp only [step] at h
    split_ifs at h <;> obtain rfl := Sum.inl.inj h <;> simp [rank]
  | store => exact absurd h (by simp [step])

end Steps

/-- What `handleRequest` does with the result of a routing comes after it. -/
theorem Pc.rank_afterRouting (r : Request) (again : Bool) (status : RequestStatus) (s : ℤ)
    (assigned : ℤ) (position : Routing) :
    (afterRouting r again status s).1.rank < (routeRequest r again assigned position).rank := by
  rw [afterRouting]
  cases again <;> split_ifs <;> simp_all [reply, rank, Prod.Lex.toLex_lt_toLex]

/-- **Every step is progress**, as soon as the loop of a sweep visits the keys of the table. -/
theorem Pc.rank_step (e : Engine hashKey) (clk : Clock) {order : List ByteString}
    (horder : order.Perm e.sessions.sessions.keys) {p : Pc} (hp : p ≠ idle) :
    (p.step cfg e clk order).2.1.rank < p.rank := by
  cases p with
  | idle => exact absurd rfl hp
  | checkActive r =>
    simp only [step]
    split_ifs <;> simp [reply, rank, Prod.Lex.toLex_lt_toLex]
  | validate r =>
    simp only [step]
    split <;> simp [reply, rank, Prod.Lex.toLex_lt_toLex]
  | limit r =>
    simp only [step]
    split_ifs <;> simp [reply, rank, Prod.Lex.toLex_lt_toLex]
  | routeRequest r again assigned s =>
    simp only [step]
    split
    · cases again <;> simp [rank, Prod.Lex.toLex_lt_toLex, Routing.rank_step ‹_›]
    · exact rank_afterRouting ..
  | checkOnline r again status assigned =>
    simp only [step]
    cases again <;> split_ifs <;> simp_all [reply, rank, Prod.Lex.toLex_lt_toLex]
  | process r status assigned =>
    rw [step]
    cases e.backend? assigned <;> simp [reply, rank, Prod.Lex.toLex_lt_toLex]
  | evict | stop | retire | start | restore => simp [step, rank, Prod.Lex.toLex_lt_toLex]
  | handleServerDown serverId r s =>
    by_cases hs : s = .enter
    · subst hs
      simp [step, Sweep.step, horder, rank, Prod.Lex.toLex_lt_toLex]
    · have hrank : rank (handleServerDown serverId r s) = toLex (4, s.rank) := by
        cases s with
        | enter => exact absurd rfl hs
        | _ => rfl
      rw [hrank]
      simp only [step]
      cases hstep : (s.step e.sessions e.ring clk order serverId).2 with
      | some s' =>
        obtain ⟨hne, hlt⟩ := Sweep.rank_step hs hstep
        cases s' with
        | enter => exact absurd rfl hne
        | _ => simpa [rank, Prod.Lex.toLex_lt_toLex] using hlt
      | none => cases r <;> simp [rank, Prod.Lex.toLex_lt_toLex]
  | forceReassign key s =>
    simp only [step]
    split
    · simp [rank, Prod.Lex.toLex_lt_toLex, Forcing.rank_step ‹_›]
    · simp [rank, Prod.Lex.toLex_lt_toLex]

/-! ### Schedules -/

/-- The loops that are entered visit the keys of the session table. -/
def Orderly (sh : Shared hashKey) (x : Surroundings) : Prop :=
  x.order.Perm sh.engine.sessions.sessions.keys

/-- Time passes, and a thread that is in a call takes a step of it. -/
abbrev Moves (cfg : Config) {ι : Type*} [DecidableEq ι] :
    World hashKey ι → World hashKey ι → Prop :=
  (script hashKey cfg).Moves Orderly

/-- **Calls return.** However the threads are scheduled, and whatever time passes between their
steps: without new calls they do not go on forever, and from no state that the engine gets into
under concurrent calls do they stop before every thread is idle again. -/
theorem calls_return (hashKey : ByteString → UInt64) (cfg : Config) {ι : Type*} [DecidableEq ι]
    [Finite ι] :
    (WellFounded fun t' t : World hashKey ι => Moves cfg t t') ∧
    ∀ (now : TimePoint) (evs : List (Event ι)) (t : World hashKey ι),
      (machine hashKey cfg ι).run (.quiet ι (.init hashKey cfg) now) evs = t →
      (∃ i, t.pc i ≠ .idle) → ∃ t', Moves cfg t t' := by
  constructor
  · refine Script.wellFounded_moves Pc.rank fun sh x p hbusy hx => ?_
    exact Pc.rank_step sh.engine _ hx (of_decide_eq_false hbusy)
  · rintro now evs t rfl ⟨i, hi⟩
    exact Script.exists_moves (Script.locked_run (locked_quiet _ now) evs) 0
      (fun sh => ⟨⟨[], sh.engine.sessions.sessions.keys⟩, List.Perm.refl _⟩)
      (decide_eq_false hi)

/-- A request is in `routeRequest`, with the session lock, and an administrator waits for it. -/
def waiting : World fnvHashKey Bool :=
  (machine fnvHashKey .pair Bool).run (.quiet Bool (.init fnvHashKey .pair) 0)
    ([.invoke true (.handleRequest ⟨.primary, clientTuple, bytes "hello"⟩)] ++
      List.replicate 4 (go true) ++ [.invoke false (.forceReassign clientTuple.toKey), go false])

/-- The call of the administrator is blocked, and the threads get on all the same. -/
theorem calls_return_waiting : waiting.holder = some true ∧
    waiting.pc false = .forceReassign clientTuple.toKey .enter ∧
    (script fnvHashKey .pair).blocked waiting false ⟨[], []⟩ = true ∧
    ∃ t', Moves .pair waiting t' :=
  ⟨by decide +kernel, by decide +kernel, by decide +kernel,
    (calls_return fnvHashKey .pair).2 0 _ waiting rfl ⟨false, by decide +kernel⟩⟩

end Concurrent

end SessionAffinity
