import SessionAffinity.Foundations.Machine
import SessionAffinity.SessionManager

/-!
# Runs of the session manager and its ring

A `SessionSystem` is a session manager with the ring it consults, and `machine` its calls in
any order. Between them the calls do four things to the table, each to one entry at a time,
so a property of one entry over a run is proved call by call from `sessions_next_of_ne`
and the descriptions of the operations.
-/

namespace SessionAffinity

/-- A session manager together with the ring it refers to. -/
structure SessionSystem (hashKey : ByteString → UInt64) where
  ring : ConsistentHashRing hashKey
  manager : SessionManager

namespace SessionSystem

variable {hashKey : ByteString → UInt64}

/-- An empty table over a ring without servers. -/
def init (hashKey : ByteString → UInt64) (vnodesPerServer defaultTimeoutSec : ℤ) :
    SessionSystem hashKey :=
  ⟨.init hashKey vnodesPerServer, .init defaultTimeoutSec⟩

/-- The calls on the manager and on its ring. -/
inductive Op
  | routeRequest (clk : Clock) (ft : FiveTuple) (assigned : ℤ)
  | forceReassign (clk : Clock) (key : ByteString)
  | blockSession (key : ByteString) (block : Bool)
  | setSessionExpiry (key : ByteString) (timeoutSec : ℤ)
  | getPathHistory (key : ByteString)
  | activeSessionCount (clk : Clock)
  | getAllSessions (clk : Clock)
  | handleServerDown (clk : Clock) (serverId : ℤ)
  | cleanupExpired (clk : Clock)
  | addServer (serverId : ℤ)
  | removeServer (serverId : ℤ)

/-- What the calls return. -/
inductive Answer
  | routed (status : RequestStatus) (assigned : ℤ)
  | found (success : Bool)
  | history (entries : List PathHistoryEntry)
  | count (n : ℕ)
  | listed (sessions : List (ByteString × ℤ))
  | done
  deriving DecidableEq

/-- The clock readings of a call. -/
def Op.times : Op → List TimePoint
  | routeRequest clk _ _ => [clk.steady]
  | forceReassign clk _ => [clk.steady]
  | activeSessionCount clk => [clk.steady]
  | getAllSessions clk => [clk.steady]
  | handleServerDown clk _ => [clk.steady]
  | cleanupExpired clk => [clk.steady]
  | _ => []

/-- The clock readings of a run do not decrease. -/
def Nondecreasing (ops : List Op) : Prop := (ops.flatMap Op.times).Pairwise (· ≤ ·)

instance (ops : List Op) : Decidable (Nondecreasing ops) :=
  inferInstanceAs (Decidable (List.Pairwise _ _))

/-- The key of a call that is about one session. -/
def Op.key? : Op → Option ByteString
  | routeRequest _ ft _ => some ft.toKey
  | forceReassign _ key => some key
  | blockSession key _ => some key
  | setSessionExpiry key _ => some key
  | getPathHistory key => some key
  | _ => none

/-- The server a call puts on the ring or takes off it. -/
def Op.server? : Op → Option ℤ
  | addServer serverId => some serverId
  | removeServer serverId => some serverId
  | _ => none

/-- The session manager and its ring as a machine. -/
def machine (hashKey : ByteString → UInt64) : Machine (SessionSystem hashKey) Op Answer where
  step s
    | .routeRequest clk ft assigned =>
      let routed := s.manager.routeRequest s.ring clk ft assigned
      ({ s with manager := routed.1 }, .routed routed.2.1 routed.2.2)
    | .forceReassign clk key =>
      let r := s.manager.forceReassign s.ring clk key
      ({ s with manager := r.1 }, .found r.2)
    | .blockSession key block =>
      let r := s.manager.blockSession key block
      ({ s with manager := r.1 }, .found r.2)
    | .setSessionExpiry key timeoutSec =>
      let r := s.manager.setSessionExpiry key timeoutSec
      ({ s with manager := r.1 }, .found r.2)
    | .getPathHistory key => (s, .history (s.manager.getPathHistory key))
    | .activeSessionCount clk => (s, .count (s.manager.activeSessionCount clk))
    | .getAllSessions clk => (s, .listed (s.manager.getAllSessions clk))
    | .handleServerDown clk serverId =>
      ({ s with manager := s.manager.handleServerDown s.ring clk serverId }, .done)
    | .cleanupExpired clk =>
      let r := s.manager.cleanupExpired clk
      ({ s with manager := r.1 }, .count r.2)
    | .addServer serverId => ({ s with ring := s.ring.addServer serverId }, .done)
    | .removeServer serverId => ({ s with ring := s.ring.removeServer serverId }, .done)

/-- The system after a run from an empty table. -/
def afterOps (hashKey : ByteString → UInt64) (vnodesPerServer defaultTimeoutSec : ℤ)
    (ops : List Op) : SessionSystem hashKey :=
  (machine hashKey).run (init hashKey vnodesPerServer defaultTimeoutSec) ops

/-! ### What a call does -/

variable (s : SessionSystem hashKey)

@[simp]
theorem next_defaultTimeoutSec (op : Op) :
    ((machine hashKey).next s op).manager.defaultTimeoutSec = s.manager.defaultTimeoutSec := by
  cases op <;> simp [Machine.next, machine]

@[simp]
theorem run_defaultTimeoutSec (ops : List Op) :
    ((machine hashKey).run s ops).manager.defaultTimeoutSec = s.manager.defaultTimeoutSec :=
  (machine hashKey).run_invariant_of_forall
    (I := fun s' => s'.manager.defaultTimeoutSec = s.manager.defaultTimeoutSec)
    (P := fun _ => True) (fun s' op h _ => (next_defaultTimeoutSec s' op).trans h) rfl
    fun _ _ => trivial

/-- A call that is about one session touches its entry only. -/
theorem sessions_next_of_ne {op : Op} {key k : ByteString} (hop : op.key? = some key)
    (hk : key ≠ k) :
    ((machine hashKey).next s op).manager.sessions[k]? = s.manager.sessions[k]? := by
  cases op with
  | routeRequest clk ft assigned =>
    obtain rfl := Option.some.inj hop
    exact s.manager.sessions_routeRequest_of_ne s.ring clk ft assigned hk
  | forceReassign clk key' =>
    obtain rfl := Option.some.inj hop
    exact s.manager.sessions_forceReassign_of_ne s.ring clk hk
  | blockSession key' block =>
    obtain rfl := Option.some.inj hop
    exact s.manager.sessions_blockSession_of_ne hk block
  | setSessionExpiry key' timeoutSec =>
    obtain rfl := Option.some.inj hop
    exact s.manager.sessions_setSessionExpiry_of_ne hk timeoutSec
  | getPathHistory => rfl
  | _ => exact absurd hop (by simp [Op.key?])

/-- **Ring invariants.** What adding and removing the servers of `A` keeps is kept by every
run that mentions no other server on the ring. -/
theorem ring_invariant {I : ConsistentHashRing hashKey → Prop} {A : Set ℤ}
    (hadd : ∀ r, ∀ t ∈ A, I r → I (r.addServer t))
    (hremove : ∀ r, ∀ t ∈ A, I r → I (r.removeServer t))
    {s : SessionSystem hashKey} {ops : List Op}
    (hops : ∀ op ∈ ops, ∀ t, op.server? = some t → t ∈ A) (hs : I s.ring) :
    I ((machine hashKey).run s ops).ring := by
  refine (machine hashKey).run_invariant_of_forall (I := fun s => I s.ring)
    (P := fun op => ∀ t, op.server? = some t → t ∈ A) ?_ hs hops
  intro s op hs hop
  cases op with
  | addServer t => exact hadd s.ring t (hop t rfl) hs
  | removeServer t => exact hremove s.ring t (hop t rfl) hs
  | _ => exact hs

theorem sound_run {s : SessionSystem hashKey} (hs : s.ring.Sound) (ops : List Op) :
    ((machine hashKey).run s ops).ring.Sound :=
  ring_invariant (A := Set.univ) (fun _ t _ h => h.addServer t) (fun _ t _ h => h.removeServer t)
    (fun _ _ _ _ => Set.mem_univ _) hs

/-- A property of entries that no operation on an existing entry can break, and that new
entries have, holds of the table after every call. -/
theorem forall_next {P : ByteString → SessionEntry → Prop} {s : SessionSystem hashKey}
    (h : s.manager.Forall P) {op : Op}
    (hreassign : ∀ key entry, P key entry → ∀ clk backend reason,
      P key (entry.reassign clk backend reason))
    (hupdate : ∀ key entry, P key entry → ∀ lastAccess blocked customTimeout,
      P key { entry with lastAccess, blocked, customTimeout })
    (hnew : ∀ clk ft assigned backend, op = .routeRequest clk ft assigned →
      P ft.toKey (SessionManager.newEntry ft clk backend)) :
    ((machine hashKey).next s op).manager.Forall P := by
  cases op with
  | routeRequest clk ft assigned =>
    have hr := s.manager.routed_routeRequest s.ring clk ft assigned
    show (s.manager.routeRequest s.ring clk ft assigned).1.Forall P
    generalize s.manager.routeRequest s.ring clk ft assigned = r at hr
    cases hr with
    | blocked | stranded => exact h
    | sticky he => exact h.put (hupdate _ _ (h _ _ he) _ _ _)
    | failover he => exact h.put (hreassign _ _ (h _ _ he) _ _ _)
    | created => exact h.put (hnew _ _ _ _ rfl)
    | unplaced => exact h.drop _
  | forceReassign clk key =>
    show (s.manager.forceReassign s.ring clk key).1.Forall P
    rcases s.manager.forceReassign_cases s.ring clk key with hr | ⟨entry, b, reason, he, -, hr⟩
    · rwa [hr]
    · rw [hr]
      exact h.put (hreassign _ _ (h _ _ he) _ _ _)
  | blockSession key block =>
    show (s.manager.blockSession key block).1.Forall P
    rcases s.manager.blockSession_cases key block with ⟨-, hr⟩ | ⟨entry, he, hr⟩
    · rwa [hr]
    · rw [hr]
      exact h.put (hupdate _ _ (h _ _ he) _ _ _)
  | setSessionExpiry key timeoutSec =>
    show (s.manager.setSessionExpiry key timeoutSec).1.Forall P
    rcases s.manager.setSessionExpiry_cases key timeoutSec with ⟨-, hr⟩ | ⟨entry, he, hr⟩
    · rwa [hr]
    · rw [hr]
      exact h.put (hupdate _ _ (h _ _ he) _ _ _)
  | handleServerDown clk serverId =>
    exact h.handleServerDown fun key entry he => hreassign key entry he clk
  | cleanupExpired clk => exact h.cleanupExpired clk
  | getPathHistory | activeSessionCount | getAllSessions | addServer | removeServer => exact h

/-! ### A session left alone -/

/-- A call that neither handles the session of `k` by name, save to unblock it, nor takes its
backend `b` off the ring. -/
def Op.Spares (k : ByteString) (b : ℤ) : Op → Prop
  | routeRequest _ ft _ => ft.toKey ≠ k
  | forceReassign _ key => key ≠ k
  | blockSession key block => key = k → block = false
  | setSessionExpiry key _ => key ≠ k
  | handleServerDown _ serverId => serverId ≠ b
  | removeServer serverId => serverId ≠ b
  | _ => True

/-- **A spared session stays as it is**, unless it is expired when the table is cleaned up. -/
theorem sessions_next_of_spares {s : SessionSystem hashKey} {op : Op} {k : ByteString}
    {entry : SessionEntry} (he : s.manager.sessions[k]? = some entry)
    (hb : entry.blocked = false) (hop : op.Spares k entry.backendId)
    (hlive : ∀ t ∈ op.times, s.manager.isExpired t entry = false) :
    ((machine hashKey).next s op).manager.sessions[k]? = some entry := by
  cases op with
  | routeRequest clk ft assigned => exact (sessions_next_of_ne s rfl hop).trans he
  | forceReassign clk key => exact (sessions_next_of_ne s rfl hop).trans he
  | setSessionExpiry key timeoutSec => exact (sessions_next_of_ne s rfl hop).trans he
  | blockSession key block =>
    rcases eq_or_ne key k with rfl | hk
    · have hunblock : { entry with blocked := block } = entry := by rw [hop rfl, ← hb]
      show (s.manager.blockSession key block).1.sessions[key]? = _
      rw [SessionManager.blockSession, he, SessionManager.sessions_put_self, hunblock]
    · exact (sessions_next_of_ne s rfl hk).trans he
  | handleServerDown clk serverId =>
    show (s.manager.handleServerDown s.ring clk serverId).sessions[k]? = _
    rw [SessionManager.sessions_handleServerDown, he, Option.map_some,
      SessionManager.redistribute_of_ne _ _ _ _ fun h => hop h.symm]
  | cleanupExpired clk =>
    show (s.manager.cleanupExpired clk).1.sessions[k]? = _
    rw [SessionManager.sessions_cleanupExpired, he]
    simp [hlive clk.steady (List.mem_singleton_self _)]
  | getPathHistory | activeSessionCount | getAllSessions | addServer | removeServer => exact he

/-- A spared session keeps its backend on the ring. -/
theorem mem_activeServers_next_of_spares {s : SessionSystem hashKey} {op : Op} {k : ByteString}
    {b : ℤ} (hb : b ∈ s.ring.activeServers) (hop : op.Spares k b) :
    b ∈ ((machine hashKey).next s op).ring.activeServers := by
  cases op with
  | addServer serverId =>
    exact (ConsistentHashRing.mem_activeServers_addServer s.ring serverId).mpr (.inr hb)
  | removeServer serverId =>
    exact (ConsistentHashRing.mem_activeServers_removeServer s.ring serverId).mpr
      ⟨fun h => hop h.symm, hb⟩
  | _ => exact hb

/-- **A session left alone over a run** of calls made before it expires. -/
theorem kept_of_spares {s : SessionSystem hashKey} {ops : List Op} {k : ByteString}
    {entry : SessionEntry} (he : s.manager.sessions[k]? = some entry)
    (hb : entry.blocked = false) (hmem : entry.backendId ∈ s.ring.activeServers)
    (hops : ∀ op ∈ ops, op.Spares k entry.backendId ∧
      ∀ t ∈ op.times, s.manager.isExpired t entry = false) :
    ((machine hashKey).run s ops).manager.sessions[k]? = some entry ∧
      entry.backendId ∈ ((machine hashKey).run s ops).ring.activeServers := by
  refine ((machine hashKey).run_invariant_of_forall
    (I := fun s' => (s'.manager.sessions[k]? = some entry ∧
      entry.backendId ∈ s'.ring.activeServers) ∧
      s'.manager.defaultTimeoutSec = s.manager.defaultTimeoutSec)
    (P := fun op => op.Spares k entry.backendId ∧
      ∀ t ∈ op.times, s.manager.isExpired t entry = false) ?_ ⟨⟨he, hmem⟩, rfl⟩ hops).1
  rintro s' op ⟨⟨he', hmem'⟩, hdef⟩ ⟨hop, hlive⟩
  refine ⟨⟨sessions_next_of_spares he' hb hop fun t ht => ?_,
    mem_activeServers_next_of_spares hmem' hop⟩, (next_defaultTimeoutSec s' op).trans hdef⟩
  rw [SessionManager.isExpired_eq_false_iff, SessionManager.effectiveTimeout_congr hdef,
    ← SessionManager.isExpired_eq_false_iff]
  exact hlive t ht

end SessionSystem

end SessionAffinity
