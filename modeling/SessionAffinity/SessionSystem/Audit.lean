import SessionAffinity.SessionSystem.Slot

/-!
# The path history as an audit trail

Every change of a session's backend is to be found in its path history. `watchPath` is an
observer that sees only which backend the session is on before and after each call, and
counts: `PathLog` records the backend the session was created on and the number of changes
since. `audit_trail` says that the history of every session agrees with the observer's log,
under every hash function and whatever ids the calls mention.

What makes consecutive entries differ is a fact about each way to move a session
(`SlotStep`): failover leaves a backend that is not active for one that is, the sweep and a
forced reassignment exclude the old backend by a test.
-/

namespace SessionAffinity

namespace SessionSystem

variable {hashKey : ByteString → UInt64}

/-- What an observer notes of a session: the backend it was created on, and how often its
backend has changed since. -/
structure PathLog where
  initial : ℤ
  changes : ℕ
  deriving DecidableEq

/-- Bring a log up to date, given the session's backend before and after a call. -/
def PathLog.note (fresh : Bool) (before after : Option ℤ) (log : Option PathLog) :
    Option PathLog :=
  match after with
  | none => none
  | some b =>
    if fresh then some ⟨b, 0⟩
    else if before = some b then log
    else log.map fun l => { l with changes := l.changes + 1 }

/-- The observer of the slot of `k`. -/
def watchPath (k : ByteString) (s : SessionSystem hashKey) (op : Op) (log : Option PathLog) :
    Option PathLog :=
  PathLog.note (s.startsOver k op) ((s.slot k).map SessionEntry.backendId)
    ((((machine hashKey).next s op).slot k).map SessionEntry.backendId) log

/-- The observer's log of the slot of `k` after a run from an empty table. -/
def pathLog (hashKey : ByteString → UInt64) (vnodesPerServer defaultTimeoutSec : ℤ)
    (ops : List Op) (k : ByteString) : Option PathLog :=
  (machine hashKey).watch (watchPath k) (init hashKey vnodesPerServer defaultTimeoutSec) none ops

/-- The path history of a session agrees with an observer's log. -/
structure Audited (entry : SessionEntry) (log : PathLog) : Prop where
  initial : ∃ timestamp later, entry.pathHistory =
    ⟨log.initial, timestamp, bytes "Initial assignment"⟩ :: later
  current : (entry.pathHistory.map PathHistoryEntry.backendId).getLast? = some entry.backendId
  distinct : (entry.pathHistory.map PathHistoryEntry.backendId).IsChain (· ≠ ·)
  length : entry.pathHistory.length = log.changes + 1

/-! ### One session -/

theorem audited_newEntry (ft : FiveTuple) (clk : Clock) (backend : ℤ) :
    Audited (SessionManager.newEntry ft clk backend) ⟨backend, 0⟩ where
  initial := ⟨clk.wall, [], rfl⟩
  current := rfl
  distinct := List.isChain_singleton _
  length := rfl

/-- A move to another backend is one more change. -/
theorem Audited.reassign {entry : SessionEntry} {log : PathLog} (h : Audited entry log)
    {backend : ℤ} (hne : backend ≠ entry.backendId) (clk : Clock) (reason : ByteString) :
    Audited (entry.reassign clk backend reason) { log with changes := log.changes + 1 } where
  initial := by
    obtain ⟨timestamp, later, hhist⟩ := h.initial
    exact ⟨timestamp, later ++ [⟨backend, clk.wall, reason⟩], by
      rw [SessionEntry.reassign, hhist, List.cons_append]⟩
  current := by simp [SessionEntry.reassign]
  distinct := by
    rw [SessionEntry.reassign, List.map_append]
    refine List.isChain_append.mpr ⟨h.distinct, List.isChain_singleton _, ?_⟩
    intro b hb c hc
    rw [h.current] at hb
    obtain rfl := Option.some.inj hb
    obtain rfl := Option.some.inj hc
    exact hne.symm
  length := by
    rw [SessionEntry.reassign, List.length_append, h.length]
    rfl

/-- The log of the slot of `k` is that of the session in it, if there is one. -/
def Logged (k : ByteString) (s : SessionSystem hashKey) (log : Option PathLog) : Prop :=
  ∀ entry, s.slot k = some entry → ∃ l, log = some l ∧ Audited entry l

/-- **Every call keeps the log and the history in step.** -/
theorem Logged.next {k : ByteString} {s : SessionSystem hashKey} {log : Option PathLog}
    (h : Logged k s log) (hring : s.ring.Sound) (op : Op) :
    Logged k ((machine hashKey).next s op) (watchPath k s op log) := by
  intro entry' hentry'
  have hstep := slotStep_next s k op
  rw [watchPath]
  rw [hentry'] at hstep ⊢
  generalize hslot : s.slot k = o at hstep
  -- a move to another backend is what the observer counts
  have hmoved {entry : SessionEntry} {clk : Clock} {backend : ℤ} {reason : ByteString}
      (ho : o = some entry) (hne : backend ≠ entry.backendId) :
      ∃ l, PathLog.note false (o.map SessionEntry.backendId) (some backend) log = some l ∧
        Audited (entry.reassign clk backend reason) l := by
    obtain ⟨l, rfl, hl⟩ := h entry (hslot.trans ho)
    refine ⟨{ l with changes := l.changes + 1 }, ?_, hl.reassign hne clk reason⟩
    simp [PathLog.note, ho, hne.symm]
  have hchoice {b : ℤ} (hs : 0 ≤ s.ring.getServer k) (hb : b ∉ s.ring.activeServers) :
      s.ring.getServer k ≠ b := by
    rintro rfl
    exact hb (hring.getServer_mem hs)
  cases hstep with
  | kept hop =>
    obtain ⟨l, rfl, hl⟩ := h entry' hslot
    exact ⟨l, by simp [PathLog.note, hop], hl⟩
  | created hk hx =>
    rw [(startsOver_routeRequest hk).mpr fun entry he => hx entry (hslot.symm.trans he)]
    exact ⟨_, rfl, audited_newEntry _ _ _⟩
  | refreshed hk hb hx =>
    obtain ⟨l, rfl, hl⟩ := h _ hslot
    rw [startsOver_of_live hslot hx]
    exact ⟨l, by simp [PathLog.note], hl.initial, hl.current, hl.distinct, hl.length⟩
  | failedOver hk hb hx ha hs =>
    rw [startsOver_of_live hslot hx]
    exact hmoved rfl (hchoice hs ha)
  | forced hf => exact hmoved rfl (SessionManager.forcedBackend_spec hring hf).2
  | redistributed hb hx hs hne => exact hmoved rfl (hb ▸ hne)
  | blockSet | expirySet =>
    obtain ⟨l, rfl, hl⟩ := h _ hslot
    exact ⟨l, by simp [PathLog.note, startsOver], hl.initial, hl.current, hl.distinct, hl.length⟩

/-! ### Whole runs -/

/-- **The path history is a faithful audit trail.** After any run from an empty table, the
history of every session begins with the initial assignment to the backend the session was
created on, ends with the backend it is on now, never names one backend twice in a row, and
has one entry more than the session has changed its backend. -/
theorem audit_trail (hashKey : ByteString → UInt64) (vnodesPerServer defaultTimeoutSec : ℤ)
    (ops : List Op) (k : ByteString) (entry : SessionEntry)
    (hentry : (afterOps hashKey vnodesPerServer defaultTimeoutSec ops).manager.sessions[k]? =
      some entry) :
    ∃ log, pathLog hashKey vnodesPerServer defaultTimeoutSec ops k = some log ∧
      (∃ timestamp later, entry.pathHistory =
        ⟨log.initial, timestamp, bytes "Initial assignment"⟩ :: later) ∧
      (entry.pathHistory.map PathHistoryEntry.backendId).getLast? = some entry.backendId ∧
      (entry.pathHistory.map PathHistoryEntry.backendId).IsChain (· ≠ ·) ∧
      entry.pathHistory.length = log.changes + 1 := by
  have hlogged := (machine hashKey).watch_invariant_of_forall (f := watchPath k)
    (I := fun s log => s.ring.Sound ∧ Logged k s log) (P := fun _ => True)
    (s := init hashKey vnodesPerServer defaultTimeoutSec) (g := none) ?_ ?_
    (show ∀ op ∈ ops, True from fun _ _ => trivial)
  · obtain ⟨l, hl, haudited⟩ := hlogged.2 entry hentry
    exact ⟨l, hl, haudited.initial, haudited.current, haudited.distinct, haudited.length⟩
  · rintro s log op ⟨hring, h⟩ -
    exact ⟨sound_run hring [op], h.next hring op⟩
  · refine ⟨ConsistentHashRing.sound_init vnodesPerServer, fun entry he => ?_⟩
    simp [slot, init, SessionManager.init] at he

/-- A session that is created on server `0` and forced over to server `1`. -/
theorem audit_trail_forced : ∃ log, pathLog fnvHashKey 1 300 [.addServer 0, .addServer 1,
      .routeRequest ⟨0, []⟩ clientTuple (-1), .forceReassign ⟨1, []⟩ clientTuple.toKey]
      clientTuple.toKey = some log ∧ log.changes = 1 := by
  have hentry : ((afterOps fnvHashKey 1 300 [.addServer 0, .addServer 1,
      .routeRequest ⟨0, []⟩ clientTuple (-1), .forceReassign ⟨1, []⟩ clientTuple.toKey]
      ).manager.sessions[clientTuple.toKey]?.map fun entry => entry.pathHistory.length) =
        some 2 := by
    decide +kernel
  obtain ⟨entry, he, hlen⟩ := Option.map_eq_some_iff.mp hentry
  obtain ⟨log, hlog, -, -, -, hlength⟩ := audit_trail fnvHashKey 1 300 _ _ entry he
  exact ⟨log, hlog, by omega⟩

end SessionSystem

end SessionAffinity
