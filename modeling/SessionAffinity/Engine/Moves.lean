import SessionAffinity.Engine.Invariants
import SessionAffinity.Foundations.Refinement
import SessionAffinity.SessionSystem.Slot

/-!
# What moves a session

A session changes its backend when its backend is gone, or when an administrator says so. The
changes are paid for one by one.

* **Disruptions.** A session is disrupted when its backend leaves the ring, or when it is
  reassigned by force (`disrupts`). A call of `forceReassign` that is refused disrupts nothing.
* **An account.** A session on the ring has at most one more entry in its history than it was
  disrupted, and a session whose backend is off the ring has a disruption to spare (`Paid`). The
  move to another backend spends it. The account is closed with the session: the next one for the
  key starts with an empty one (`charge`).
* **No free moves.** This needs that `handleServerDown` is called for servers that are off the
  ring (`Orderly`). The engine only calls it right after the removal.
* **The bound.** So over any run of the engine the history of a session has at most one entry more
  than the session was disrupted (`moves_le`). The outages of other backends, and the sessions that
  move because of them, do not count.
-/

namespace SessionAffinity

namespace SessionSystem

variable {hashKey : ByteString → UInt64} {k : ByteString} {s : SessionSystem hashKey}

/-- The call takes the backend of the session of `k` off the ring, or reassigns the session and
returns true. -/
def disrupts (k : ByteString) (s : SessionSystem hashKey) : Op → Bool
  | .removeServer serverId =>
    decide (serverId ∈ s.ring.activeServers) &&
      (s.slot k).any fun entry => entry.backendId = serverId
  | .forceReassign clk key => decide (key = k) && (s.manager.forceReassign s.ring clk key).2
  | _ => false

/-- The account of the session of `k` after a call. A new session starts at nothing. -/
def charge (k : ByteString) (s : SessionSystem hashKey) (op : Op) (n : ℕ) : ℕ :=
  if s.startsOver k op then 0 else n + if s.disrupts k op then 1 else 0

/-- How many calls of a run have disrupted the session of `k` since it was made. -/
def disruptions (k : ByteString) (s : SessionSystem hashKey) (ops : List Op) : ℕ :=
  (machine hashKey).watch (charge k) s 0 ops

/-- Sweeps are for servers that have left the ring. -/
def Orderly (s : SessionSystem hashKey) : Op → Prop
  | .handleServerDown _ serverId => serverId ∉ s.ring.activeServers
  | _ => True

/-! ### The account of a session -/

/-- The history of an entry is paid for by `n` disruptions, and with one to spare if its backend is
off the ring. -/
structure Paid (ring : ConsistentHashRing hashKey) (n : ℕ) (entry : SessionEntry) : Prop where
  history : entry.pathHistory.length ≤ n + 1
  spare : entry.backendId ∉ ring.activeServers → entry.pathHistory.length ≤ n

section Paid

variable {ring : ConsistentHashRing hashKey} {n : ℕ} {entry : SessionEntry}

theorem Paid.mono (h : Paid ring n entry) {m : ℕ} (hm : n ≤ m) : Paid ring m entry where
  history := h.history.trans (by omega)
  spare hoff := (h.spare hoff).trans hm

/-- A session is moved at the cost of one more disruption. -/
theorem Paid.reassign (h : Paid ring n entry) {backend : ℤ} (hb : backend ∈ ring.activeServers)
    (clk : Clock) (reason : ByteString) :
    Paid ring (n + 1) (entry.reassign clk backend reason) where
  history := by
    have := h.history
    rw [SessionEntry.reassign, List.length_append, List.length_singleton]
    omega
  spare hoff := absurd hb hoff

/-- A session whose backend is off the ring is moved for free. -/
theorem Paid.reassign_of_off (h : Paid ring n entry) (hoff : entry.backendId ∉ ring.activeServers)
    {backend : ℤ} (hb : backend ∈ ring.activeServers) (clk : Clock) (reason : ByteString) :
    Paid ring n (entry.reassign clk backend reason) where
  history := by
    have := h.spare hoff
    rw [SessionEntry.reassign, List.length_append, List.length_singleton]
    omega
  spare hgone := absurd hb hgone

/-- A backend that comes back takes nothing from the account. -/
theorem Paid.addServer (h : Paid ring n entry) (serverId : ℤ) :
    Paid (ring.addServer serverId) n entry where
  history := h.history
  spare hoff := h.spare fun hmem =>
    hoff ((ConsistentHashRing.mem_activeServers_addServer _ _).mpr (.inr hmem))

/-- The outage of another backend takes nothing from the account. -/
theorem Paid.removeServer (h : Paid ring n entry) {serverId : ℤ}
    (hother : serverId ∈ ring.activeServers → entry.backendId ≠ serverId) :
    Paid (ring.removeServer serverId) n entry where
  history := h.history
  spare hoff := h.spare fun hmem => hoff
    ((ConsistentHashRing.mem_activeServers_removeServer _ _).mpr
      ⟨fun heq => hother (heq ▸ hmem) heq, hmem⟩)

/-- The outage of its own backend is one disruption more, to be spent on the move. -/
theorem Paid.removeServer_self (h : Paid ring n entry) (serverId : ℤ) :
    Paid (ring.removeServer serverId) (n + 1) entry where
  history := h.history.trans (by omega)
  spare _ := h.history

end Paid

/-- The session of `k`, if there is one, is paid for by `n` disruptions. -/
def Accounted (k : ByteString) (n : ℕ) (s : SessionSystem hashKey) : Prop :=
  ∀ entry, s.slot k = some entry → Paid s.ring n entry

/-- **Every call keeps the account**, if sweeps are orderly. -/
theorem Accounted.next {n : ℕ} (h : s.Accounted k n) (hring : s.ring.Sound) {op : Op}
    (hop : s.Orderly op) : ((machine hashKey).next s op).Accounted k (charge k s op n) := by
  intro entry' he'
  have hstep := slotStep_next s k op
  rw [he'] at hstep
  generalize hslot : s.slot k = o at hstep
  cases op with
  | addServer serverId =>
    obtain rfl : o = some entry' := hslot.symm.trans he'
    exact ((h entry' hslot).addServer serverId).mono (Nat.le_add_right _ _)
  | removeServer serverId =>
    obtain rfl : o = some entry' := hslot.symm.trans he'
    show Paid (s.ring.removeServer serverId) (n + _) entry'
    cases hlost : s.disrupts k (.removeServer serverId) with
    | true => exact (h entry' hslot).removeServer_self serverId
    | false =>
      refine (h entry' hslot).removeServer fun hmem heq => ?_
      simp [disrupts, hmem, hslot, heq] at hlost
  | routeRequest clk ft assigned =>
    have hsame (hnot : s.startsOver k (.routeRequest clk ft assigned) = false) :
        charge k s (.routeRequest clk ft assigned) n = n := by
      rw [charge, hnot]
      rfl
    show Paid s.ring _ entry'
    cases hstep with
    | kept hnot =>
      rw [hsame hnot]
      exact h entry' hslot
    | created hk hx hs =>
      have hover : s.startsOver k (.routeRequest clk ft assigned) = true :=
        (startsOver_routeRequest hk).mpr fun entry he => hx entry (hslot.symm.trans he)
      rw [charge, if_pos hover]
      exact ⟨Nat.le_refl 1, fun hoff => absurd (hring.getServer_mem hs) hoff⟩
    | refreshed _ _ hx =>
      rw [hsame (startsOver_of_live hslot hx)]
      exact ⟨(h _ hslot).history, (h _ hslot).spare⟩
    | failedOver _ _ hx ha hs =>
      rw [hsame (startsOver_of_live hslot hx)]
      exact (h _ hslot).reassign_of_off ha (hring.getServer_mem hs) _ _
  | forceReassign clk key =>
    show Paid s.ring (n + _) entry'
    cases hstep with
    | kept => exact (h entry' hslot).mono (Nat.le_add_right _ _)
    | forced hf =>
      have hstored : s.manager.sessions[k]? = some _ := hslot
      have hdisrupts : s.disrupts k (.forceReassign clk k) = true := by
        simp [disrupts, SessionManager.forceReassign, hstored, hf]
      rw [if_pos hdisrupts]
      exact (h _ hslot).reassign (SessionManager.forcedBackend_spec hring hf).1 _ _
  | handleServerDown clk serverId =>
    show Paid s.ring n entry'
    cases hstep with
    | kept => exact h entry' hslot
    | redistributed hb hx hs =>
      exact (h _ hslot).reassign_of_off (hb ▸ hop) (hring.getServer_mem hs) _ _
  | blockSession key block =>
    show Paid s.ring n entry'
    cases hstep with
    | kept => exact h entry' hslot
    | blockSet => exact ⟨(h _ hslot).history, (h _ hslot).spare⟩
  | setSessionExpiry key timeoutSec =>
    show Paid s.ring n entry'
    cases hstep with
    | kept => exact h entry' hslot
    | expirySet => exact ⟨(h _ hslot).history, (h _ hslot).spare⟩
  | cleanupExpired | getPathHistory | activeSessionCount | getAllSessions =>
    show Paid s.ring n entry'
    cases hstep with
    | kept => exact h entry' hslot

/-- **The account over a run** of orderly calls. -/
theorem accounted_run {ops : List Op} (h : s.Accounted k 0) (hring : s.ring.Sound)
    (hops : (machine hashKey).Along Orderly s ops) :
    ((machine hashKey).run s ops).Accounted k (disruptions k s ops) := by
  have hboth := (machine hashKey).watch_invariant (f := charge k)
    (I := fun s n => s.ring.Sound ∧ s.Accounted k n)
    (fun _ _ op h hop => ⟨sound_run h.1 [op], h.2.next h.1 hop⟩) ⟨hring, h⟩ hops
  exact hboth.2

end SessionSystem

namespace Engine

variable {hashKey : ByteString → UInt64} {cfg : Config}

variable (hashKey cfg) in
/-- The calls on ring and table that a run of the engine makes. -/
def systemLog (ops : List Op) : List SessionSystem.Op :=
  (machine hashKey cfg).log (calls cfg) (init hashKey cfg) ops

theorem drives_system (hashKey : ByteString → UInt64) (cfg : Config) :
    Machine.Drives (machine hashKey cfg) (SessionSystem.machine hashKey) system (calls cfg) :=
  fun e op => e.system_next cfg op

/-- A removal and the sweep that follows it are orderly. -/
theorem orderly_evacuate (s : SessionSystem hashKey) (clk : Clock) (serverId : ℤ) :
    (SessionSystem.machine hashKey).Along SessionSystem.Orderly s
      [.removeServer serverId, .handleServerDown clk serverId] := by
  refine ⟨trivial, fun hmem => ?_, trivial⟩
  exact ((ConsistentHashRing.mem_activeServers_removeServer _ _).mp hmem).1 rfl

/-- **The engine sweeps after removals only.** -/
theorem orderly_calls (cfg : Config) (e : Engine hashKey) (op : Op) :
    (SessionSystem.machine hashKey).Along SessionSystem.Orderly e.system (e.calls cfg op) := by
  cases op with
  | request role rd ft payload =>
    rw [calls]
    split_ifs
    · rw [dispatchCalls]
      refine ⟨trivial, ?_⟩
      split_ifs
      · trivial
      · rw [forwardCalls]
        split_ifs
        · exact ⟨trivial, (orderly_evacuate _ _ _).2.1, trivial, trivial⟩
        · trivial
    · trivial
  | takeBackendOffline clk serverId =>
    rw [calls]
    split_ifs
    · exact orderly_evacuate _ clk serverId
    · trivial
  | bringBackendOnline serverId =>
    rw [calls]
    split_ifs <;> simp [SessionSystem.Orderly]
  | cleanupExpired | forceReassign | blockSession | setSessionExpiry => exact ⟨trivial, trivial⟩
  | setActive | crash => trivial

/-- **A session moves when it is disrupted.** After any run of the engine, under every hash
function, the history of a session has at most one entry more than there were calls, since it was
made, that took the backend it was on off the ring, or reassigned it by force; and not more entries
than that as long as its own backend is off the ring. -/
theorem moves_le (hashKey : ByteString → UInt64) (cfg : Config) (ops : List Op) (k : ByteString)
    (entry : SessionEntry) (he : (afterOps hashKey cfg ops).sessions.sessions[k]? = some entry) :
    entry.pathHistory.length ≤ SessionSystem.disruptions k (init hashKey cfg).system
        (systemLog hashKey cfg ops) + 1 ∧
      (entry.backendId ∉ (afterOps hashKey cfg ops).ring.getActiveServers →
        entry.pathHistory.length ≤ SessionSystem.disruptions k (init hashKey cfg).system
          (systemLog hashKey cfg ops)) := by
  have hinit : (init hashKey cfg).system.Accounted k 0 := fun entry he =>
    absurd he (by simp [SessionSystem.slot, system, init, SessionManager.init])
  have horderly : (SessionSystem.machine hashKey).Along SessionSystem.Orderly
      (init hashKey cfg).system (systemLog hashKey cfg ops) :=
    (drives_system hashKey cfg).along (Machine.along_iff_forall_prefix _ |>.mpr
      fun _ op _ => orderly_calls cfg _ op)
  have hpaid := SessionSystem.accounted_run hinit (sound_afterOps []) horderly
  rw [systemLog, ← (drives_system hashKey cfg).run] at hpaid
  obtain ⟨hhistory, hspare⟩ := hpaid entry he
  exact ⟨hhistory, hspare⟩

/-- A client on backend `0` is moved by an outage, and comes back after its session has expired.
Backend `1` is taken offline, so that a reassignment is refused, and brought back. Then backend
`0` goes. -/
def secondSession : List Op :=
  [.request .primary (.at ⟨0, []⟩) clientTuple (bytes "hello"),
    .takeBackendOffline ⟨seconds 1, []⟩ 0, .bringBackendOnline 0,
    .request .primary (.at ⟨seconds 400, []⟩) clientTuple (bytes "hello"),
    .takeBackendOffline ⟨seconds 401, []⟩ 1, .forceReassign ⟨seconds 402, []⟩ clientTuple.toKey,
    .bringBackendOnline 1, .takeBackendOffline ⟨seconds 403, []⟩ 0]

/-- The second session has moved once, for which there is one disruption. -/
theorem moves_le_secondSession :
    SessionSystem.disruptions clientTuple.toKey (init fnvHashKey .pair).system
      (systemLog fnvHashKey .pair secondSession) = 1 := by
  have hhistory : ((afterOps fnvHashKey .pair secondSession).sessions.sessions[
      clientTuple.toKey]?.map fun entry => entry.pathHistory.length) = some 2 := by
    decide +kernel
  have hle : SessionSystem.disruptions clientTuple.toKey (init fnvHashKey .pair).system
      (systemLog fnvHashKey .pair secondSession) ≤ 1 := by
    decide +kernel
  obtain ⟨entry, he, hlength⟩ := Option.map_eq_some_iff.mp hhistory
  have hmoves := (moves_le fnvHashKey .pair secondSession _ entry he).1
  omega

end Engine

end SessionAffinity
