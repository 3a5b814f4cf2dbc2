import SessionAffinity.SessionSystem

/-!
# What a call does to one session

The table maps a key to at most one session: the *slot* of the key. `SlotStep` lists all that
a call on the manager or the ring can do to a slot, each with the conditions under which it
happens, and `slotStep_next` says that the list is complete. Facts about the life of a session
over a run are proved by cases on it.
-/

namespace SessionAffinity

namespace SessionSystem

open ByteString (signedDecimal)

variable {hashKey : ByteString → UInt64}

/-- The session of a key, if there is one. -/
def slot (s : SessionSystem hashKey) (k : ByteString) : Option SessionEntry :=
  s.manager.sessions[k]?

/-- The call is a request for `k` that finds no session, or an expired one that is not
blocked: it ends what is in the slot, and makes a new session if the ring has a server. -/
def startsOver (s : SessionSystem hashKey) (k : ByteString) : Op → Bool
  | .routeRequest clk ft _ =>
    ft.toKey = k ∧ (s.slot k).all fun entry =>
      !entry.blocked && s.manager.isExpired clk.steady entry
  | _ => false

/-- **What a call can do to the slot of `k`**: from what it holds to what it holds then. -/
inductive SlotStep (s : SessionSystem hashKey) (k : ByteString) :
    Op → Option SessionEntry → Option SessionEntry → Prop
  /-- Nothing. -/
  | kept {op : Op} {o : Option SessionEntry} (hop : s.startsOver k op = false) :
      SlotStep s k op o o
  /-- A request without a live session makes one, with the ring's choice. -/
  | created {clk : Clock} {ft : FiveTuple} {assigned : ℤ} {o : Option SessionEntry}
      (hk : ft.toKey = k) (hx : ∀ entry, o = some entry →
        entry.blocked = false ∧ s.manager.isExpired clk.steady entry = true)
      (hs : 0 ≤ s.ring.getServer k) :
      SlotStep s k (.routeRequest clk ft assigned) o
        (some (SessionManager.newEntry ft clk (s.ring.getServer k)))
  /-- A request without a live session finds no server, and erases what it found. -/
  | unplaced {clk : Clock} {ft : FiveTuple} {assigned : ℤ} {o : Option SessionEntry}
      (hk : ft.toKey = k) (hx : ∀ entry, o = some entry →
        entry.blocked = false ∧ s.manager.isExpired clk.steady entry = true)
      (hs : s.ring.getServer k < 0) :
      SlotStep s k (.routeRequest clk ft assigned) o none
  /-- A request of a live session on an active backend refreshes it. -/
  | refreshed {clk : Clock} {ft : FiveTuple} {assigned : ℤ} {entry : SessionEntry}
      (hk : ft.toKey = k) (hb : entry.blocked = false)
      (hx : s.manager.isExpired clk.steady entry = false)
      (ha : entry.backendId ∈ s.ring.activeServers) :
      SlotStep s k (.routeRequest clk ft assigned) (some entry)
        (some { entry with lastAccess := clk.steady })
  /-- A request of a live session on an inactive backend moves it to the ring's choice. -/
  | failedOver {clk : Clock} {ft : FiveTuple} {assigned : ℤ} {entry : SessionEntry}
      (hk : ft.toKey = k) (hb : entry.blocked = false)
      (hx : s.manager.isExpired clk.steady entry = false)
      (ha : entry.backendId ∉ s.ring.activeServers) (hs : 0 ≤ s.ring.getServer k) :
      SlotStep s k (.routeRequest clk ft assigned) (some entry)
        (some (entry.reassign clk (s.ring.getServer k) (bytes "Failover from backend " ++
          signedDecimal entry.backendId ++ bytes " (server down)")))
  /-- An administrator moves the session. -/
  | forced {clk : Clock} {entry : SessionEntry} {backend : ℤ} {reason : ByteString}
      (hf : SessionManager.forcedBackend s.ring k entry.backendId = some backend) :
      SlotStep s k (.forceReassign clk k) (some entry)
        (some (entry.reassign clk backend reason))
  /-- The sweep moves a live session of the server to the ring's choice. -/
  | redistributed {clk : Clock} {serverId : ℤ} {entry : SessionEntry} {reason : ByteString}
      (hb : entry.backendId = serverId) (hx : s.manager.isExpired clk.steady entry = false)
      (hs : 0 ≤ s.ring.getServer k) (hne : s.ring.getServer k ≠ serverId) :
      SlotStep s k (.handleServerDown clk serverId) (some entry)
        (some (entry.reassign clk (s.ring.getServer k) reason))
  /-- An administrator blocks or unblocks the session. -/
  | blockSet {block : Bool} {entry : SessionEntry} :
      SlotStep s k (.blockSession k block) (some entry) (some { entry with blocked := block })
  /-- An administrator sets the timeout of the session. -/
  | expirySet {timeoutSec : ℤ} {entry : SessionEntry} :
      SlotStep s k (.setSessionExpiry k timeoutSec) (some entry)
        (some { entry with customTimeout := timeoutSec })
  /-- The cleanup drops the session, which is expired. -/
  | cleaned {clk : Clock} {entry : SessionEntry}
      (hx : s.manager.isExpired clk.steady entry = true) :
      SlotStep s k (.cleanupExpired clk) (some entry) none

theorem startsOver_routeRequest {s : SessionSystem hashKey} {k : ByteString} {clk : Clock}
    {ft : FiveTuple} {assigned : ℤ} (hk : ft.toKey = k) :
    s.startsOver k (.routeRequest clk ft assigned) = true ↔ ∀ entry, s.slot k = some entry →
      entry.blocked = false ∧ s.manager.isExpired clk.steady entry = true := by
  rw [startsOver, decide_eq_true_iff, and_iff_right hk]
  cases s.slot k <;> simp

/-- A request of a live session does not start over. -/
theorem startsOver_of_live {s : SessionSystem hashKey} {k : ByteString} {clk : Clock}
    {ft : FiveTuple} {assigned : ℤ} {entry : SessionEntry} (he : s.slot k = some entry)
    (hx : s.manager.isExpired clk.steady entry = false) :
    s.startsOver k (.routeRequest clk ft assigned) = false := by
  simp [startsOver, he, hx]

variable (s : SessionSystem hashKey) (k : ByteString)

private theorem slotStep_routeRequest (clk : Clock) (ft : FiveTuple) (assigned : ℤ) :
    SlotStep s k (.routeRequest clk ft assigned) (s.slot k)
      ((s.manager.routeRequest s.ring clk ft assigned).1.sessions[k]?) := by
  rcases eq_or_ne ft.toKey k with rfl | hk
  · have hr := s.manager.routed_routeRequest s.ring clk ft assigned
    generalize s.manager.routeRequest s.ring clk ft assigned = r at hr
    cases hr with
    | blocked he hb =>
      refine .kept ?_
      simp [startsOver, slot, he, hb]
    | sticky he hb hx ha =>
      rw [slot, he, SessionManager.sessions_put_self]
      exact .refreshed rfl hb hx ha
    | failover he hb hx ha hs =>
      rw [slot, he, SessionManager.sessions_put_self]
      exact .failedOver rfl hb hx ha hs
    | stranded he hb hx =>
      refine .kept ?_
      simp [startsOver, slot, he, hx]
    | created hx hs =>
      rw [SessionManager.sessions_put_self]
      exact .created rfl hx hs
    | unplaced hx hs =>
      rw [SessionManager.sessions_drop_self]
      exact .unplaced rfl hx hs
  · rw [s.manager.sessions_routeRequest_of_ne s.ring clk ft assigned hk]
    exact .kept (by simp [startsOver, hk])

/-- **Every call makes one of the slot steps.** -/
theorem slotStep_next (op : Op) :
    SlotStep s k op (s.slot k) (((machine hashKey).next s op).slot k) := by
  cases op with
  | routeRequest clk ft assigned => exact slotStep_routeRequest s k clk ft assigned
  | forceReassign clk key =>
    rcases eq_or_ne key k with rfl | hk
    · show SlotStep s key _ _ ((s.manager.forceReassign s.ring clk key).1.sessions[key]?)
      rcases s.manager.forceReassign_cases s.ring clk key with hr | ⟨entry, b, reason, he, hf, hr⟩
      · rw [hr]
        exact .kept rfl
      · rw [hr, slot, he, SessionManager.sessions_put_self]
        exact .forced hf
    · rw [slot, slot, sessions_next_of_ne s rfl hk]
      exact .kept rfl
  | blockSession key block =>
    rcases eq_or_ne key k with rfl | hk
    · show SlotStep s key _ _ ((s.manager.blockSession key block).1.sessions[key]?)
      rcases s.manager.blockSession_cases key block with ⟨-, hr⟩ | ⟨entry, he, hr⟩
      · rw [hr]
        exact .kept rfl
      · rw [hr, slot, he, SessionManager.sessions_put_self]
        exact .blockSet
    · rw [slot, slot, sessions_next_of_ne s rfl hk]
      exact .kept rfl
  | setSessionExpiry key timeoutSec =>
    rcases eq_or_ne key k with rfl | hk
    · show SlotStep s key _ _ ((s.manager.setSessionExpiry key timeoutSec).1.sessions[key]?)
      rcases s.manager.setSessionExpiry_cases key timeoutSec with ⟨-, hr⟩ | ⟨entry, he, hr⟩
      · rw [hr]
        exact .kept rfl
      · rw [hr, slot, he, SessionManager.sessions_put_self]
        exact .expirySet
    · rw [slot, slot, sessions_next_of_ne s rfl hk]
      exact .kept rfl
  | handleServerDown clk serverId =>
    show SlotStep s k _ _ ((s.manager.handleServerDown s.ring clk serverId).sessions[k]?)
    rw [SessionManager.sessions_handleServerDown, slot]
    cases s.manager.sessions[k]? with
    | none => exact .kept rfl
    | some entry =>
      rw [Option.map_some]
      rcases s.manager.redistribute_cases s.ring clk k serverId entry with
        hr | ⟨hb, hx, hs, hne, reason, hr⟩ <;> rw [hr]
      · exact .kept rfl
      · exact .redistributed hb hx hs hne
  | cleanupExpired clk =>
    show SlotStep s k _ _ ((s.manager.cleanupExpired clk).1.sessions[k]?)
    rw [SessionManager.sessions_cleanupExpired, slot]
    cases s.manager.sessions[k]? with
    | none => exact .kept rfl
    | some entry =>
      cases hx : s.manager.isExpired clk.steady entry with
      | false =>
        rw [Option.filter_some, hx]
        exact .kept rfl
      | true =>
        rw [Option.filter_some, hx]
        exact .cleaned hx
  | getPathHistory | activeSessionCount | getAllSessions | addServer | removeServer =>
    exact .kept rfl

end SessionSystem

end SessionAffinity
