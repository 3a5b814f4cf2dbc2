import SessionAffinity.Engine.Runs
import SessionAffinity.SessionSystem.Slot

/-!
# Blocked sessions

`blockSession` promises that all subsequent requests of a session will be rejected. The flag
lives in the session's entry, and of all calls only `cleanupExpired` drops an entry that is
blocked: routing looks at the flag before it looks at the expiry. So a block holds until it
is lifted exactly when no cleanup of that time finds the session expired
(`blocked_until_lifted_iff`), and `cleanup_lifts_block` is the run in which one does: the
next request makes a new session, unblocked.
-/

namespace SessionAffinity

namespace SessionSystem

variable {hashKey : ByteString → UInt64}

/-- The session of `k` is blocked. -/
def Blocked (s : SessionSystem hashKey) (k : ByteString) : Prop :=
  ∃ entry, s.manager.sessions[k]? = some entry ∧ entry.blocked = true

/-- Requests for `k` are turned away: routing refuses them as blocked, and in an engine with
this table and ring no backend processes one. -/
def TurnsAway (s : SessionSystem hashKey) (k : ByteString) : Prop :=
  (∀ clk ft assigned, ft.toKey = k →
    (machine hashKey).answer s (.routeRequest clk ft assigned) =
      .routed .sessionBlocked assigned) ∧
  ∀ cfg (e : Engine hashKey) role rd ft payload, e.system = s → ft.toKey = k →
    (e.handleRequest cfg role rd ft payload).1.backends = e.backends

/-- The call is a cleanup that finds the session of `k` expired. -/
def Op.Drops (k : ByteString) (s : SessionSystem hashKey) : Op → Prop
  | cleanupExpired clk => ∃ entry, s.manager.sessions[k]? = some entry ∧
      s.manager.isExpired clk.steady entry = true
  | _ => False

/-! ### One call -/

/-- A blocked session is what makes requests be turned away. -/
theorem turnsAway_iff_blocked {s : SessionSystem hashKey} (ft : FiveTuple) :
    s.TurnsAway ft.toKey ↔ s.Blocked ft.toKey := by
  constructor
  · intro h
    have hrouted := s.manager.routed_routeRequest s.ring ⟨0, []⟩ ft 0
    exact hrouted.exists_blocked (Answer.routed.inj (h.1 ⟨0, []⟩ ft 0 rfl)).1
  · rintro ⟨entry, hentry, hblocked⟩
    refine ⟨fun clk ft' assigned hk => ?_, fun cfg e role rd ft' payload hs hk => ?_⟩
    · rw [← hk] at hentry
      show Answer.routed _ _ = _
      rw [SessionManager.routeRequest_of_blocked s.ring clk assigned hentry hblocked]
    · subst hs
      rw [← hk] at hentry
      obtain ⟨security, limiter, ⟨response, -, hreq⟩ | ⟨-, hreq⟩⟩ :=
        e.handleRequest_cases cfg role rd ft' payload
      · rw [hreq]
      · have hrouted :=
          SessionManager.routeRequest_of_blocked e.ring rd.route (-1) hentry hblocked
        rw [hreq, Engine.dispatch_of_blocked (e := { e with security, limiter }) hrouted rfl]

/-- A call that neither lifts the block nor cleans up keeps the session blocked. -/
theorem blocked_next {s : SessionSystem hashKey} {k : ByteString} (h : s.Blocked k) {op : Op}
    (hop : op ≠ .blockSession k false) (hclean : ∀ clk, op ≠ .cleanupExpired clk) :
    ((machine hashKey).next s op).Blocked k := by
  obtain ⟨entry, hentry, hblocked⟩ := h
  have hstep : SlotStep s k op (some entry) (((machine hashKey).next s op).slot k) :=
    hentry ▸ slotStep_next s k op
  show ∃ entry', ((machine hashKey).next s op).slot k = some entry' ∧ entry'.blocked = true
  generalize ((machine hashKey).next s op).slot k = o at hstep ⊢
  cases hstep with
  | kept => exact ⟨entry, rfl, hblocked⟩
  | created _ hx | unplaced _ hx =>
    have hb : entry.blocked = false := (hx entry rfl).1
    exact absurd (hblocked.symm.trans hb) (by simp)
  | refreshed _ hb | failedOver _ hb => exact absurd (hblocked.symm.trans hb) (by simp)
  | forced | redistributed | expirySet => exact ⟨_, rfl, hblocked⟩
  | @blockSet block =>
    cases block with
    | false => exact absurd rfl hop
    | true => exact ⟨_, rfl, rfl⟩
  | @cleaned clk => exact absurd rfl (hclean clk)

/-- **Only a cleanup can end a block**, save for its being lifted. -/
theorem blocked_next_iff {s : SessionSystem hashKey} {k : ByteString} (h : s.Blocked k) {op : Op}
    (hop : op ≠ .blockSession k false) :
    ((machine hashKey).next s op).Blocked k ↔ ¬ op.Drops k s := by
  cases op with
  | cleanupExpired clk =>
    obtain ⟨entry, hentry, hblocked⟩ := h
    have hs : ((machine hashKey).next s (.cleanupExpired clk)).manager.sessions[k]? =
        (some entry).filter fun entry => !s.manager.isExpired clk.steady entry :=
      hentry ▸ s.manager.sessions_cleanupExpired clk k
    rw [Blocked, hs, Op.Drops, hentry]
    cases hx : s.manager.isExpired clk.steady entry <;> simp [hx, hblocked]
  | routeRequest | forceReassign | blockSession | setSessionExpiry | handleServerDown
  | getPathHistory | activeSessionCount | getAllSessions | addServer | removeServer =>
    exact iff_of_true (blocked_next h hop (by simp)) id

/-! ### Whole runs -/

/-- **When a block holds until it is lifted.** After any run, block a session that exists, and
continue with calls that do not lift the block. Requests for the session are turned away at
every point of the continuation exactly when no cleanup in it finds the session expired. -/
theorem blocked_until_lifted_iff (hashKey : ByteString → UInt64)
    (vnodesPerServer defaultTimeoutSec : ℤ) (pre mid : List Op) (ft : FiveTuple)
    (hblock : (machine hashKey).answer (afterOps hashKey vnodesPerServer defaultTimeoutSec pre)
      (.blockSession ft.toKey true) = .found true)
    (hmid : .blockSession ft.toKey false ∉ mid) :
    (∀ ops, ops <+: mid → ((machine hashKey).run (afterOps hashKey vnodesPerServer
        defaultTimeoutSec (pre ++ [.blockSession ft.toKey true])) ops).TurnsAway ft.toKey) ↔
      (machine hashKey).Along (fun s op => ¬ op.Drops ft.toKey s)
        (afterOps hashKey vnodesPerServer defaultTimeoutSec
          (pre ++ [.blockSession ft.toKey true])) mid := by
  have hstart : (afterOps hashKey vnodesPerServer defaultTimeoutSec
      (pre ++ [.blockSession ft.toKey true])).Blocked ft.toKey := by
    rw [afterOps, Machine.run_concat]
    rcases SessionManager.blockSession_cases
      (afterOps hashKey vnodesPerServer defaultTimeoutSec pre).manager ft.toKey true with
      ⟨-, hr⟩ | ⟨entry, -, hr⟩
    · have hfound := (congrArg Prod.snd hr).symm.trans (Answer.found.inj hblock)
      exact absurd hfound Bool.false_ne_true
    · refine ⟨{ entry with blocked := true }, ?_, rfl⟩
      show (SessionManager.blockSession _ ft.toKey true).1.sessions[ft.toKey]? = _
      rw [← afterOps, hr, SessionManager.sessions_put_self]
  simp only [turnsAway_iff_blocked]
  refine (machine hashKey).forall_prefix_iff_along (B := fun s => s.Blocked ft.toKey)
    (fun s op hop hs => ?_) hstart
  exact blocked_next_iff hs fun h => hmid (h ▸ hop)

/-- A client blocked at time zero stays blocked up to a cleanup at the end of its timeout. -/
theorem blocked_until_timeout :
    ((machine fnvHashKey).run (afterOps fnvHashKey 1 300 [.addServer 0,
        .routeRequest ⟨0, []⟩ clientTuple (-1), .blockSession clientTuple.toKey true])
      [.cleanupExpired ⟨seconds 300, []⟩]).TurnsAway clientTuple.toKey :=
  (blocked_until_lifted_iff fnvHashKey 1 300
    [.addServer 0, .routeRequest ⟨0, []⟩ clientTuple (-1)] [.cleanupExpired ⟨seconds 300, []⟩]
    clientTuple (by decide +kernel) (by simp)).mpr
    ⟨fun ⟨entry, hentry, hx⟩ => by
      have hsome : (afterOps fnvHashKey 1 300 ([.addServer 0,
        .routeRequest ⟨0, []⟩ clientTuple (-1)] ++ [.blockSession clientTuple.toKey true])
          ).manager.sessions[clientTuple.toKey]? = some
            { SessionManager.newEntry clientTuple ⟨0, []⟩ 0 with blocked := true } := by
        decide +kernel
      obtain rfl := Option.some.inj (hsome.symm.trans hentry)
      revert hx
      decide +kernel, trivial⟩ _ List.prefix_rfl

/-- **A cleanup lifts a block.** A session is made and blocked; a cleanup after its timeout drops
it with its flag; the next request of the same client makes a new session and is routed. -/
theorem cleanup_lifts_block :
    Nondecreasing [.addServer 0, .routeRequest ⟨0, []⟩ clientTuple (-1),
      .blockSession clientTuple.toKey true, .cleanupExpired ⟨seconds 301, []⟩,
      .routeRequest ⟨seconds 301, []⟩ clientTuple (-1)] ∧
    (machine fnvHashKey).answer (afterOps fnvHashKey 1 300
        [.addServer 0, .routeRequest ⟨0, []⟩ clientTuple (-1)])
      (.blockSession clientTuple.toKey true) = .found true ∧
    (machine fnvHashKey).answer (afterOps fnvHashKey 1 300 [.addServer 0,
        .routeRequest ⟨0, []⟩ clientTuple (-1), .blockSession clientTuple.toKey true,
        .cleanupExpired ⟨seconds 301, []⟩])
      (.routeRequest ⟨seconds 301, []⟩ clientTuple (-1)) = .routed .success 0 := by
  decide +kernel

end SessionSystem

end SessionAffinity
