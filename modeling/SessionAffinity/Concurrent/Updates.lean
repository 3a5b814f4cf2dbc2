import SessionAffinity.Concurrent

/-!
# No update of a session is lost

A critical section reads a session in one step and writes it back in a later one, with the time it
read on entry and the history it found. The session lock is what makes this one update: at every
position inside, the copy that the thread has is still what the table holds (`Pc.Fresh`), so that
a write extends the session that is there (`Update`). For any number of threads and in every
interleaving of their steps:

* `recorded_run`: every session in the table has a history that begins with the assignment the
  session was created by and ends with the backend it is on;
* `session_kept`: while a session is not expired it is kept, its history is only added to, and the
  time of its last access does not go back.
-/

namespace SessionAffinity

open ByteString (signedDecimal)

namespace SessionEntry

/-- What is true of every session of the table: of its times, and of its history. -/
structure Recorded (now : TimePoint) (entry : SessionEntry) : Prop where
  created : entry.createdAt ≤ entry.lastAccess
  past : entry.lastAccess ≤ now
  initial : (entry.pathHistory.map PathHistoryEntry.reason).head? =
    some (bytes "Initial assignment")
  current : (entry.pathHistory.map PathHistoryEntry.backendId).getLast? = some entry.backendId

/-- The second entry is the session of the first, later. -/
structure Extends (entry entry' : SessionEntry) : Prop where
  tuple : entry'.tuple = entry.tuple
  createdAt : entry'.createdAt = entry.createdAt
  lastAccess : entry.lastAccess ≤ entry'.lastAccess
  history : entry.pathHistory <+: entry'.pathHistory

variable {entry entry' entry'' : SessionEntry} {now : TimePoint}

theorem Extends.refl (entry : SessionEntry) : Extends entry entry :=
  ⟨rfl, rfl, le_rfl, List.prefix_rfl⟩

theorem Extends.trans (h : Extends entry entry') (h' : Extends entry' entry'') :
    Extends entry entry'' :=
  ⟨h'.tuple.trans h.tuple, h'.createdAt.trans h.createdAt, h.lastAccess.trans h'.lastAccess,
    h.history.trans h'.history⟩

theorem Recorded.mono (h : entry.Recorded now) {now' : TimePoint} (hnow : now ≤ now') :
    entry.Recorded now' :=
  ⟨h.created, h.past.trans hnow, h.initial, h.current⟩

theorem extends_refresh (h : entry.lastAccess ≤ now) :
    Extends entry { entry with lastAccess := now } :=
  ⟨rfl, rfl, h, List.prefix_rfl⟩

theorem Recorded.refresh {now' : TimePoint} (h : entry.Recorded now)
    (hpast : entry.lastAccess ≤ now') (hnow : now' ≤ now) :
    Recorded now { entry with lastAccess := now' } :=
  ⟨h.created.trans hpast, hnow, h.initial, h.current⟩

theorem extends_reassign (clk : Clock) (h : entry.lastAccess ≤ clk.steady) (backend : ℤ)
    (reason : ByteString) : Extends entry (entry.reassign clk backend reason) :=
  ⟨rfl, rfl, h, List.prefix_append _ _⟩

theorem Recorded.reassign {clk : Clock} (h : entry.Recorded now)
    (hpast : entry.lastAccess ≤ clk.steady) (hnow : clk.steady ≤ now) (backend : ℤ)
    (reason : ByteString) : (entry.reassign clk backend reason).Recorded now where
  created := h.created.trans hpast
  past := hnow
  initial := by
    have hinitial := h.initial
    cases hhist : entry.pathHistory with
    | nil => simp [hhist] at hinitial
    | cons first later => simpa [SessionEntry.reassign, hhist] using hinitial
  current := by simp [SessionEntry.reassign]

theorem recorded_newEntry (ft : FiveTuple) {clk : Clock} (hnow : clk.steady ≤ now) (backend : ℤ) :
    (SessionManager.newEntry ft clk backend).Recorded now :=
  ⟨le_rfl, hnow, rfl, rfl⟩

end SessionEntry

namespace Concurrent

variable {hashKey : ByteString → UInt64} {ι : Type*} {cfg : Config}

/-! ### What a thread knows in a critical section -/

/-- The copy that `routeRequest` has is the session of the table, and `now` is not before its last
access; on the way to a new session there is none. -/
def Routing.Fresh (sm : SessionManager) (clock : TimePoint) (key : ByteString) : Routing → Prop
  | enter => True
  | find now => now ≤ clock ∧ ∀ entry, sm.sessions[key]? = some entry → entry.lastAccess ≤ now
  | checkAlive now entry | storeSticky now entry | failover now entry | storeFailover now entry _ =>
    now ≤ clock ∧ entry.lastAccess ≤ now ∧ sm.sessions[key]? = some entry
  | create now | storeNew now _ => now ≤ clock ∧ sm.sessions[key]? = none

/-- The copy that `handleServerDown` has is the session of the table. -/
def Sweep.Fresh (sm : SessionManager) : Sweep → Prop
  | choose key entry _ | store key entry _ _ => sm.sessions[key]? = some entry
  | _ => True

/-- The copy that `forceReassign` has is the session of the table. -/
def Forcing.Fresh (sm : SessionManager) (key : ByteString) : Forcing → Prop
  | choose entry | pickOther entry _ | store entry _ => sm.sessions[key]? = some entry
  | _ => True

/-- What a thread has read in its critical section is still what the table holds. -/
def Pc.Fresh (sm : SessionManager) (clock : TimePoint) : Pc → Prop
  | routeRequest r _ _ s => s.Fresh sm clock r.ft.toKey
  | handleServerDown _ _ s => s.Fresh sm
  | forceReassign key s => s.Fresh sm key
  | _ => True

/-- **What one step can do to the table** at a time. -/
inductive Update (sm : SessionManager) (now : TimePoint) : SessionManager → Prop
  /-- Nothing. -/
  | same : Update sm now sm
  /-- A session is carried on. -/
  | extended {key : ByteString} {entry entry' : SessionEntry} (he : sm.sessions[key]? = some entry)
      (hentry : entry.Extends entry') (hrec : entry.Recorded now → entry'.Recorded now) :
      Update sm now (sm.put key entry')
  /-- An expired session that is not blocked ends. -/
  | dropped {key : ByteString} {entry : SessionEntry} (he : sm.sessions[key]? = some entry)
      (hb : entry.blocked = false) (hx : sm.isExpired now entry = true) :
      Update sm now (sm.drop key)
  /-- A session is created where there is none. -/
  | created {key : ByteString} {entry : SessionEntry} (hnone : sm.sessions[key]? = none)
      (hrec : entry.Recorded now) : Update sm now (sm.put key entry)

section Steps

variable {sm : SessionManager} (ring : ConsistentHashRing hashKey) {clk : Clock}

/-- Every session of the table is as it should be. -/
def AllRecorded (sm : SessionManager) (now : TimePoint) : Prop :=
  sm.Forall fun _ entry => entry.Recorded now

theorem Update.allRecorded {now : TimePoint} {sm' : SessionManager} (h : Update sm now sm')
    (hrec : AllRecorded sm now) : AllRecorded sm' now := by
  cases h with
  | same => exact hrec
  | extended he _ hentry => exact hrec.put (hentry (hrec _ _ he))
  | dropped => exact hrec.drop _
  | created _ hentry => exact hrec.put hentry

/-- A step of `routeRequest` updates the table and knows what it has read. -/
theorem Routing.step_fresh {ft : FiveTuple} (assigned : ℤ) {s : Routing}
    (hrec : AllRecorded sm clk.steady) (h : s.Fresh sm clk.steady ft.toKey) :
    Update sm clk.steady (s.step sm ring clk ft assigned).1 ∧
      ∀ s', (s.step sm ring clk ft assigned).2 = .inl s' →
        s'.Fresh (s.step sm ring clk ft assigned).1 clk.steady ft.toKey := by
  cases s with
  | enter =>
    refine ⟨.same, fun s' hs' => ?_⟩
    obtain rfl := Sum.inl.inj hs'
    exact ⟨le_rfl, fun entry he => (hrec _ _ he).past⟩
  | find now =>
    obtain ⟨hnow, hpast⟩ := h
    rw [step]
    split
    · rename_i entry he
      split_ifs with hb hx
      · exact ⟨.same, fun s' hs' => absurd hs' (by simp)⟩
      · refine ⟨.dropped he (Bool.not_eq_true _ ▸ hb) hx, fun s' hs' => ?_⟩
        obtain rfl := Sum.inl.inj hs'
        exact ⟨hnow, sm.sessions_drop_self _⟩
      · refine ⟨.same, fun s' hs' => ?_⟩
        obtain rfl := Sum.inl.inj hs'
        exact ⟨hnow, hpast entry he, he⟩
    · refine ⟨.same, fun s' hs' => ?_⟩
      obtain rfl := Sum.inl.inj hs'
      exact ⟨hnow, ‹_›⟩
  | checkAlive | failover | create =>
    simp only [step]
    split_ifs
    all_goals
      refine ⟨.same, fun s' hs' => ?_⟩
      first
      | obtain rfl := Sum.inl.inj hs'
        exact h
      | exact absurd hs' (by simp)
  | storeSticky now entry =>
    obtain ⟨hnow, hpast, he⟩ := h
    refine ⟨.extended he (SessionEntry.extends_refresh hpast) fun hentry =>
      hentry.refresh hpast hnow, fun s' hs' => absurd hs' (by simp [step])⟩
  | storeFailover now entry backend =>
    obtain ⟨hnow, hpast, he⟩ := h
    refine ⟨.extended he (SessionEntry.extends_reassign ⟨now, clk.wall⟩ hpast _ _)
      fun hentry => hentry.reassign hpast hnow _ _, fun s' hs' => absurd hs' (by simp [step])⟩
  | storeNew now backend =>
    obtain ⟨hnow, hnone⟩ := h
    exact ⟨.created hnone (SessionEntry.recorded_newEntry ft hnow backend),
      fun s' hs' => absurd hs' (by simp [step])⟩

/-- A step of `handleServerDown` updates the table and knows what it has read. -/
theorem Sweep.step_fresh (order : List ByteString) (serverId : ℤ) {s : Sweep}
    (hrec : AllRecorded sm clk.steady) (h : s.Fresh sm) :
    Update sm clk.steady (s.step sm ring clk order serverId).1 ∧
      ∀ s', (s.step sm ring clk order serverId).2 = some s' →
        s'.Fresh (s.step sm ring clk order serverId).1 := by
  cases s with
  | enter =>
    simp only [step]
    refine ⟨.same, fun s' hs' => ?_⟩
    split_ifs at hs' <;> obtain rfl := Option.some.inj hs' <;> trivial
  | scan todo =>
    cases todo with
    | nil => exact ⟨.same, fun s' hs' => absurd hs' (by simp [step])⟩
    | cons key todo =>
      rw [step]
      split
      · rename_i entry he
        split_ifs <;> refine ⟨.same, fun s' hs' => ?_⟩ <;> obtain rfl := Option.some.inj hs'
        · exact he
        · trivial
      · refine ⟨.same, fun s' hs' => ?_⟩
        obtain rfl := Option.some.inj hs'
        trivial
  | choose key entry todo =>
    simp only [step]
    split_ifs <;> refine ⟨.same, fun s' hs' => ?_⟩ <;> obtain rfl := Option.some.inj hs'
    · exact h
    · trivial
  | store key entry backend todo =>
    have hpast := (hrec _ _ h).past
    refine ⟨.extended h (SessionEntry.extends_reassign clk hpast _ _) fun hentry =>
      hentry.reassign hpast le_rfl _ _, fun s' hs' => ?_⟩
    obtain rfl := Option.some.inj hs'
    trivial

/-- A step of `forceReassign` updates the table and knows what it has read. -/
theorem Forcing.step_fresh {key : ByteString} {s : Forcing} (hrec : AllRecorded sm clk.steady)
    (h : s.Fresh sm key) :
    Update sm clk.steady (s.step sm ring clk key).1 ∧
      ∀ s', (s.step sm ring clk key).2 = .inl s' → s'.Fresh (s.step sm ring clk key).1 key := by
  cases s with
  | enter =>
    refine ⟨.same, fun s' hs' => ?_⟩
    obtain rfl := Sum.inl.inj hs'
    trivial
  | find =>
    rw [step]
    split
    · rename_i entry he
      refine ⟨.same, fun s' hs' => ?_⟩
      obtain rfl := Sum.inl.inj hs'
      exact he
    · exact ⟨.same, fun s' hs' => absurd hs' (by simp)⟩
  | choose | pickOther =>
    simp only [step]
    split_ifs
    all_goals
      refine ⟨.same, fun s' hs' => ?_⟩
      first
      | obtain rfl := Sum.inl.inj hs'
        exact h
      | exact absurd hs' (by simp)
  | store entry backend =>
    have hpast := (hrec _ _ h).past
    exact ⟨.extended h (SessionEntry.extends_reassign clk hpast _ _) fun hentry =>
      hentry.reassign hpast le_rfl _ _, fun s' hs' => absurd hs' (by simp [step])⟩

end Steps

namespace Pc

variable (cfg : Config) (e : Engine hashKey) (clk : Clock) (order : List ByteString) {p : Pc}

theorem fresh_of_outside {sm : SessionManager} {clock : TimePoint} (h : p.inside = false) :
    p.Fresh sm clock := by
  cases p with
  | routeRequest r again assigned s | handleServerDown s' r s | forceReassign key s =>
    obtain rfl : s = .enter := by simpa [inside] using h
    trivial
  | _ => trivial

/-- A step that is taken outside the critical sections leaves the table. -/
theorem sessions_step_of_outside (h : p.inside = false) :
    (p.step cfg e clk order).1.sessions = e.sessions := by
  cases p with
  | routeRequest r again assigned s | handleServerDown s' r s | forceReassign key s =>
    obtain rfl : s = .enter := by simpa [inside] using h
    rfl
  | _ => exact sessions_step cfg e clk order rfl

theorem fresh_afterRouting (sm : SessionManager) (clock : TimePoint) (r : Request) (again : Bool)
    (status : RequestStatus) (assigned : ℤ) :
    (afterRouting r again status assigned).1.Fresh sm clock := by
  rw [afterRouting]
  split_ifs <;> trivial

/-- A thread starts a call of the session manager outside the lock. -/
theorem Moved.inside {p' : Pc} (h : Moved e p p') (hp : p.inSession = false) :
    p'.inside = false := by
  cases h with
  | outer hin => exact hin
  | evict | stop | start | removed => rfl
  | within hp' => exact absurd (hp'.symm.trans hp) (by simp)

/-- **A step updates the table**, and the thread knows what it has read. -/
theorem step_fresh (hrec : AllRecorded e.sessions clk.steady)
    (h : p.Fresh e.sessions clk.steady) :
    Update e.sessions clk.steady (p.step cfg e clk order).1.sessions ∧
      (p.step cfg e clk order).2.1.Fresh (p.step cfg e clk order).1.sessions clk.steady := by
  by_cases hp : p.inSession = false
  · rw [sessions_step cfg e clk order hp]
    exact ⟨.same, fresh_of_outside ((p.moved_step cfg e clk order).inside _ hp)⟩
  cases p with
  | routeRequest r again assigned s =>
    obtain ⟨hupdate, hnext⟩ := Routing.step_fresh e.ring assigned hrec h
    refine ⟨hupdate, ?_⟩
    simp only [step]
    cases hstep : (s.step e.sessions e.ring clk r.ft assigned).2 with
    | inl s' => exact hnext s' hstep
    | inr result => exact fresh_afterRouting _ _ r again _ _
  | handleServerDown serverId r s =>
    obtain ⟨hupdate, hnext⟩ := Sweep.step_fresh e.ring order serverId hrec h
    refine ⟨hupdate, ?_⟩
    simp only [step]
    cases hstep : (s.step e.sessions e.ring clk order serverId).2 with
    | some s' => exact hnext s' hstep
    | none => cases r <;> trivial
  | forceReassign key s =>
    obtain ⟨hupdate, hnext⟩ := Forcing.step_fresh e.ring hrec h
    refine ⟨hupdate, ?_⟩
    simp only [step]
    cases hstep : (s.step e.sessions e.ring clk key).2 with
    | inl s' => exact hnext s' hstep
    | inr found => trivial
  | _ => exact absurd rfl hp

end Pc

/-! ### Runs -/

/-- Time passing does not make wrong what a thread knows. -/
theorem Pc.Fresh.mono {sm : SessionManager} {clock clock' : TimePoint} (h : clock ≤ clock') {p : Pc}
    (hp : p.Fresh sm clock) : p.Fresh sm clock' := by
  cases p with
  | routeRequest r again assigned s =>
    cases s with
    | enter => trivial
    | _ => exact ⟨hp.1.trans h, hp.2⟩
  | _ => exact hp

/-- **The session lock** protects what a thread has read of the table. -/
theorem protects_sessions (hashKey : ByteString → UInt64) (cfg : Config) :
    (script hashKey cfg).Protects (fun sh => AllRecorded sh.engine.sessions sh.now)
      (fun sh p => p.Fresh sh.engine.sessions sh.now) where
  outside h := Pc.fresh_of_outside h
  tick {sh} d hrec := by
    have hnow : sh.now ≤ sh.now + d := Int.le_add_of_nonneg_right (Int.natCast_nonneg d)
    exact ⟨fun key entry he => (hrec key entry he).mono hnow, fun p hp => hp.mono hnow⟩
  own {sh} x p hrec hp := by
    obtain ⟨hupdate, hfresh⟩ := Pc.step_fresh cfg sh.engine ⟨sh.now, x.wall⟩ x.order hrec hp
    exact ⟨hupdate.allRecorded hrec, hfresh⟩
  other {sh} x p q hp hq := by
    have hsessions :=
      Pc.sessions_step_of_outside cfg sh.engine ⟨sh.now, x.wall⟩ x.order (p := p) hp
    show q.Fresh (p.step cfg sh.engine ⟨sh.now, x.wall⟩ x.order).1.sessions sh.now
    rw [hsessions]
    exact hq

section Runs

variable [DecidableEq ι]

/-- What the threads know, and the lock. -/
structure Guarded (t : World hashKey ι) : Prop where
  locked : t.Locked Pc.inside
  recorded : AllRecorded t.shared.engine.sessions t.shared.now
  fresh (i : ι) : (t.pc i).Fresh t.shared.engine.sessions t.shared.now

variable (hashKey cfg) in
theorem guarded_run (now : TimePoint) (evs : List (Event ι)) :
    Guarded ((machine hashKey cfg ι).run (.quiet ι (.init hashKey cfg) now) evs) := by
  obtain ⟨hrec, hfresh⟩ := (protects_sessions hashKey cfg).run
    (t := World.quiet ι (.init hashKey cfg) now) (SessionManager.forall_init _) (fun _ => trivial)
    (locked_quiet _ now) evs
  exact ⟨Script.locked_run (locked_quiet _ now) evs, hrec, hfresh⟩

/-- **Histories under concurrency.** In every interleaving, every session that is in the table was
created no later than its last access, and that in the past; its history begins with the initial
assignment and ends with the backend that the session is on. -/
theorem recorded_run (hashKey : ByteString → UInt64) (cfg : Config) (now : TimePoint)
    (evs : List (Event ι)) (t : World hashKey ι)
    (ht : (machine hashKey cfg ι).run (.quiet ι (.init hashKey cfg) now) evs = t)
    {key : ByteString} {entry : SessionEntry}
    (he : t.shared.engine.sessions.sessions[key]? = some entry) :
    entry.Recorded t.shared.now := by
  have hguarded := guarded_run hashKey cfg now evs
  rw [ht] at hguarded
  exact hguarded.recorded key entry he

/-- The session of a key, if there is one, is not expired. -/
def Unexpired (key : ByteString) (t : World hashKey ι) : Prop :=
  ∀ entry ∈ t.shared.engine.sessions.sessions[key]?,
    t.shared.engine.sessions.isExpired t.shared.now entry = false

instance (key : ByteString) (t : World hashKey ι) : Decidable (Unexpired key t) :=
  inferInstanceAs (Decidable (∀ entry ∈ _, _))

/-- One event carries a session on that does not end. -/
theorem Guarded.next {t : World hashKey ι} (h : Guarded t) {key : ByteString}
    {entry : SessionEntry} (he : t.shared.engine.sessions.sessions[key]? = some entry)
    (hlive : Unexpired key t) (ev : Event ι) : ∃ entry', entry.Extends entry' ∧
      ((machine hashKey cfg ι).next t ev).shared.engine.sessions.sessions[key]? = some entry' := by
  have hsame : ∃ entry', entry.Extends entry' ∧
      t.shared.engine.sessions.sessions[key]? = some entry' := ⟨entry, .refl entry, he⟩
  cases ev with
  | tick d => exact hsame
  | invoke i call =>
    rw [Script.next_invoke]
    split_ifs <;> exact hsame
  | resume i x =>
    rw [Script.next_resume]
    split_ifs
    · exact hsame
    show ∃ entry', entry.Extends entry' ∧ ((t.pc i).step cfg t.shared.engine
      ⟨t.shared.now, x.wall⟩ x.order).1.sessions.sessions[key]? = some entry'
    have hupdate :=
      (Pc.step_fresh cfg t.shared.engine ⟨t.shared.now, x.wall⟩ x.order h.recorded (h.fresh i)).1
    generalize ((t.pc i).step cfg t.shared.engine ⟨t.shared.now, x.wall⟩ x.order).1.sessions = sm'
      at hupdate
    cases hupdate with
    | same => exact hsame
    | @extended k old new hold hext =>
      rcases eq_or_ne k key with rfl | hk
      · obtain rfl := Option.some.inj (he.symm.trans hold)
        exact ⟨new, hext, SessionManager.sessions_put_self _ _ _⟩
      · rw [SessionManager.sessions_put_of_ne _ _ hk]
        exact hsame
    | @dropped k old hold _ hx =>
      rcases eq_or_ne k key with rfl | hk
      · exact absurd (hx.symm.trans (hlive old hold)) (by simp)
      · rw [SessionManager.sessions_drop_of_ne _ _ hk]
        exact hsame
    | @created k new hnone =>
      rcases eq_or_ne k key with rfl | hk
      · exact absurd (he.symm.trans hnone) (by simp)
      · rw [SessionManager.sessions_put_of_ne _ _ hk]
        exact hsame

/-- **No lost updates.** In every interleaving, from any moment on: as long as the session of a key
is not expired it stays the session of the key. The later session has the
tuple and the time of creation of the earlier one, its history continues the earlier history, and
its last access is not before the earlier one. -/
theorem session_kept (hashKey : ByteString → UInt64) (cfg : Config) {now : TimePoint}
    {earlier : List (Event ι)} {t : World hashKey ι}
    (ht : (machine hashKey cfg ι).run (.quiet ι (.init hashKey cfg) now) earlier = t)
    {key : ByteString} {entry : SessionEntry}
    (he : t.shared.engine.sessions.sessions[key]? = some entry) {evs : List (Event ι)}
    (hlive : (machine hashKey cfg ι).Along (fun u _ => Unexpired key u) t evs) :
    ∃ entry', ((machine hashKey cfg ι).run t evs).shared.engine.sessions.sessions[key]? =
      some entry' ∧ entry.Extends entry' := by
  subst ht
  induction evs using List.reverseRecOn with
  | nil => exact ⟨entry, he, .refl entry⟩
  | append_singleton evs ev ih =>
    obtain ⟨hbefore, hlast⟩ := Machine.along_concat _ |>.mp hlive
    obtain ⟨entry', he', hext⟩ := ih hbefore
    have hguarded := guarded_run hashKey cfg now (earlier ++ evs)
    rw [Machine.run_append] at hguarded
    obtain ⟨entry'', hext', he''⟩ := hguarded.next he' hlast ev
    rw [Machine.run_concat]
    exact ⟨entry'', he'', hext.trans hext'⟩

end Runs

/-- A request and a forced reassignment of its session. -/
def storing : List (Event Bool) :=
  [.invoke true (.handleRequest ⟨.primary, clientTuple, bytes "hello"⟩),
    .invoke false (.forceReassign clientTuple.toKey)] ++ List.replicate 7 (go true)

/-- The first thread has just stored the session, the second waits for the lock. -/
def stored : World fnvHashKey Bool :=
  (machine fnvHashKey .pair Bool).run (.quiet Bool (.init fnvHashKey .pair) 0) storing

/-- The threads go on in turn, until the session has been moved. -/
def inTurn : List (Event Bool) := (List.range 10).map fun j => go (j % 2 == 1)

theorem recorded_run_stored : ∃ entry,
    stored.shared.engine.sessions.sessions[clientTuple.toKey]? = some entry ∧
      entry.Recorded stored.shared.now := by
  obtain ⟨entry, he⟩ := Option.isSome_iff_exists.mp
    (show stored.shared.engine.sessions.sessions[clientTuple.toKey]?.isSome = true by
      decide +kernel)
  exact ⟨entry, he, recorded_run fnvHashKey .pair 0 storing stored rfl he⟩

theorem session_kept_stored : ∃ entry entry',
    stored.shared.engine.sessions.sessions[clientTuple.toKey]? = some entry ∧
      ((machine fnvHashKey .pair Bool).run stored
        inTurn).shared.engine.sessions.sessions[clientTuple.toKey]? = some entry' ∧
      entry.Extends entry' := by
  have hlive : (machine fnvHashKey .pair Bool).Along
      (fun u _ => Unexpired clientTuple.toKey u) stored inTurn := by decide +kernel
  obtain ⟨entry, he⟩ := Option.isSome_iff_exists.mp
    (show stored.shared.engine.sessions.sessions[clientTuple.toKey]?.isSome = true by
      decide +kernel)
  obtain ⟨entry', he', hext⟩ :=
    session_kept fnvHashKey .pair (show _ = stored from rfl) he hlive
  exact ⟨entry, entry', he, he', hext⟩

end Concurrent

end SessionAffinity
