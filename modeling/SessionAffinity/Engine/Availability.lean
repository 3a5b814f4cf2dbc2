import SessionAffinity.Engine.Invariants

/-!
# Availability

What clients can rely on in managed runs, for any pattern of backends taken offline and
brought back. `ring_matches_backends` holds under every hash function: the ring's servers
are the backends online, and a request that reaches forwarding has a backend that is both.
`served_iff_online` adds separated virtual nodes and gets that an unblocked request is
processed as long as one backend is online.
-/

namespace SessionAffinity

namespace Engine

variable {hashKey : ByteString → UInt64} {cfg : Config}

/-! ### Ring membership and liveness -/

/-- **Ring membership is liveness.** After every managed run, under every hash function, the
active list has no duplicates and consists of the backends online. A request that reaches
forwarding finds its backend in range, active and online, so that neither the range check
nor the failover is ever needed. -/
theorem ring_matches_backends (hashKey : ByteString → UInt64) (cfg : Config) (ops : List Op)
    (hops : ∀ op ∈ ops, op.isManaged = true) :
    (afterOps hashKey cfg ops).ring.getActiveServers.Nodup ∧
    (∀ s, s ∈ (afterOps hashKey cfg ops).ring.getActiveServers ↔
      (afterOps hashKey cfg ops).isOnline s = true) ∧
    ∀ (role : LBRole) (rd : Readings) (ft : FiveTuple) (payload : ByteString)
      (e : Engine hashKey), (afterOps hashKey cfg ops).precheck cfg role rd ft payload = (e, none) →
      (∀ sm status assigned,
        e.sessions.routeRequest e.ring rd.route ft (-1) = (sm, status, assigned) →
        status ≠ .sessionBlocked → status ≠ .serverDown →
        (0 ≤ assigned ∧ assigned < cfg.numBackendServers) ∧
          assigned ∈ e.ring.getActiveServers ∧ e.isOnline assigned = true) ∧
      ((afterOps hashKey cfg ops).handleRequest cfg role rd ft payload).2 ≠ .invalidBackend ∧
      ((afterOps hashKey cfg ops).handleRequest cfg role rd ft payload).2 ≠
        .noBackendsAfterFailover ∧
      ((afterOps hashKey cfg ops).handleRequest cfg role rd ft payload).2 ≠
        .failoverTargetUnavailable := by
  have hl : (afterOps hashKey cfg ops).Live := live_afterOps hops
  refine ⟨(sound_afterOps ops).nodup, hl, fun role rd ft payload e hpass => ?_⟩
  obtain ⟨security, limiter, he⟩ := (afterOps hashKey cfg ops).precheck_frame cfg role rd ft payload
  obtain rfl : e = { afterOps hashKey cfg ops with security, limiter } := by rw [← he, hpass]
  have hcases := dispatch_cases_of_live (e := { afterOps hashKey cfg ops with security, limiter })
    hl (sound_afterOps ops) (fun _ => inRange_of_active) rd ft rfl
  refine ⟨fun sm status assigned hrouted hb hd => ?_, ?_⟩
  · rw [hrouted] at hcases
    obtain ⟨h, -⟩ | ⟨h, -⟩ | ⟨hmem, -⟩ := hcases
    · exact absurd h hb
    · exact absurd h hd
    · exact ⟨inRange_of_mem_activeServers _ hmem, hmem, (hl _).mp hmem⟩
  · rw [handleRequest, hpass]
    obtain ⟨-, h⟩ | ⟨-, h⟩ | ⟨-, b, -, -, h⟩ := hcases <;> simp [h, process]

/-- A backend taken offline and brought back is on the ring again. -/
theorem ring_matches_backends_restore :
    (1 : ℤ) ∈ (afterOps fnvHashKey .default [.takeBackendOffline ⟨0, []⟩ 1,
        .bringBackendOnline 1]).ring.getActiveServers ↔
      (afterOps fnvHashKey .default [.takeBackendOffline ⟨0, []⟩ 1,
        .bringBackendOnline 1]).isOnline 1 = true :=
  (ring_matches_backends fnvHashKey .default [.takeBackendOffline ⟨0, []⟩ 1, .bringBackendOnline 1]
    (by decide)).2.1 1

/-! ### Service -/

section Service

variable {e : Engine hashKey} (hl : e.Live) (hs : e.ring.Sound)
  (hr : ∀ s ∈ e.ring.activeServers, e.InRange s) {rd : Readings} {ft : FiveTuple}
  (hunblocked : ∀ entry, e.sessions.sessions[ft.toKey]? = some entry → entry.blocked = false)
include hl hs hr hunblocked

/-- With a choice on the ring, an unblocked request is processed by an online backend. -/
theorem dispatch_of_choice (hid : ∀ s b, e.backend? s = some b → b.id = s)
    (hchoice : 0 ≤ e.ring.getServer ft.toKey) :
    ∃ status s n, e.isOnline s = true ∧
      (e.dispatch rd ft).2 = .served status s (.processed s n) := by
  have hrouted := e.sessions.routed_routeRequest e.ring rd.route ft (-1)
  obtain ⟨hb, -⟩ | ⟨hd, -⟩ | ⟨hmem, b, hb, hon, h⟩ :=
    dispatch_cases_of_live hl hs hr rd ft rfl
  · obtain ⟨entry, hentry, hbl⟩ := hrouted.exists_blocked hb
    exact absurd hbl (by simp [hunblocked entry hentry])
  · exact absurd hchoice (not_le.mpr (hrouted.getServer_neg hd))
  · refine ⟨(e.sessions.routeRequest e.ring rd.route ft (-1)).2.1, _, b.requestCount ft.toKey + 1,
      (hl _).mp hmem, ?_⟩
    rw [h, process_snd _ _ hon, hid _ b hb]

/-- With no backend online, an unblocked request is told so. -/
theorem dispatch_of_offline (hoff : ∀ s, e.isOnline s = false) :
    (e.dispatch rd ft).2 = .noBackends := by
  have hrouted := e.sessions.routed_routeRequest e.ring rd.route ft (-1)
  obtain ⟨hb, -⟩ | ⟨-, h⟩ | ⟨hmem, -⟩ :=
    dispatch_cases_of_live hl hs hr rd ft rfl
  · obtain ⟨entry, hentry, hbl⟩ := hrouted.exists_blocked hb
    exact absurd hbl (by simp [hunblocked entry hentry])
  · rw [h]
  · exact absurd ((hl _).mp hmem) (by simp [hoff])

end Service

/-- **Available while a backend is.** With a virtual node per server and no collisions between
backends, after every managed run: an admitted request whose session is not blocked is
processed by an online backend if there is one, and is told that there is none otherwise. -/
theorem served_iff_online (hashKey : ByteString → UInt64) (cfg : Config)
    (hV : 0 < cfg.consistentHashVnodes)
    (hsep : Separated hashKey cfg.consistentHashVnodes {s | 0 ≤ s ∧ s < cfg.numBackendServers})
    (ops : List Op) (hops : ∀ op ∈ ops, op.isManaged = true) (role : LBRole) (rd : Readings)
    (ft : FiveTuple) (payload : ByteString)
    (hpass : ((afterOps hashKey cfg ops).precheck cfg role rd ft payload).2 = none)
    (hunblocked : ∀ entry, (afterOps hashKey cfg ops).sessions.sessions[ft.toKey]? = some entry →
      entry.blocked = false) :
    ((∃ s, (afterOps hashKey cfg ops).isOnline s = true) →
      ∃ status s n, (afterOps hashKey cfg ops).isOnline s = true ∧
        ((afterOps hashKey cfg ops).handleRequest cfg role rd ft payload).2 =
          .served status s (.processed s n)) ∧
    ((∀ s, (afterOps hashKey cfg ops).isOnline s = false) →
      ((afterOps hashKey cfg ops).handleRequest cfg role rd ft payload).2 = .noBackends) := by
  have hl : (afterOps hashKey cfg ops).Live := live_afterOps hops
  have hs : (afterOps hashKey cfg ops).ring.Sound := sound_afterOps ops
  have hr : ∀ s ∈ (afterOps hashKey cfg ops).ring.activeServers,
      (afterOps hashKey cfg ops).InRange s := fun _ => inRange_of_active
  obtain ⟨security, limiter, hreq⟩ := handleRequest_of_admitted hpass
  rw [hreq]
  refine ⟨fun ⟨s, hon⟩ => ?_, fun hoff => ?_⟩
  · -- a backend online is on the ring, so the ring has a choice, which is a backend
    have hne := (full_afterOps hsep ops).ring_ne_empty (by rwa [vnodesPerServer_afterOps])
      ((hl s).mpr hon)
    obtain ⟨p, hp, -⟩ := ConsistentHashRing.exists_nearest hne ft.toKey
    exact dispatch_of_choice (e := { afterOps hashKey cfg ops with security, limiter }) hl hs hr
      hunblocked (fun _ _ => id_of_backend?) (inRange_of_mem_activeServers _ (hs.owned hp).1).1
  · exact dispatch_of_offline (e := { afterOps hashKey cfg ops with security, limiter }) hl hs hr
      hunblocked hoff

/-- The two backends of the small deployment are separated by the source's hash function. -/
theorem separated_pair :
    Separated fnvHashKey Config.pair.consistentHashVnodes
      {s | 0 ≤ s ∧ s < Config.pair.numBackendServers} := by
  refine separated_fnv.mono ?_
  rintro s ⟨hs0, hs⟩
  have hcases : s = 0 ∨ s = 1 := by
    simp only [Config.pair] at hs
    omega
  exact hcases

/-- A client on backend `0` is moved to `1`, which is the next to go, and only `0` comes back. -/
def totalOutage : List Op :=
  [.request .primary (.at ⟨0, []⟩) clientTuple (bytes "hello"), .takeBackendOffline ⟨1, []⟩ 0,
    .takeBackendOffline ⟨2, []⟩ 1, .bringBackendOnline 0]

/-- The session is stranded on backend `1`, and its next request is processed by `0`. -/
theorem served_after_outage :
    (afterOps fnvHashKey .pair totalOutage).sessions.sessions[clientTuple.toKey]?.map
        SessionEntry.backendId = some 1 ∧
      (afterOps fnvHashKey .pair totalOutage).isOnline 1 = false ∧
      ∃ status s n, (afterOps fnvHashKey .pair totalOutage).isOnline s = true ∧
        ((afterOps fnvHashKey .pair totalOutage).handleRequest .pair .primary (.at ⟨3, []⟩)
          clientTuple (bytes "hello")).2 = .served status s (.processed s n) := by
  have hunblocked : ∀ entry ∈ (afterOps fnvHashKey .pair totalOutage).sessions.sessions[
      clientTuple.toKey]?, entry.blocked = false := by decide +kernel
  exact ⟨by decide +kernel, by decide +kernel,
    (served_iff_online fnvHashKey .pair (by decide) separated_pair totalOutage (by decide) .primary
      (.at ⟨3, []⟩) clientTuple (bytes "hello") (by decide +kernel) hunblocked).1
        ⟨0, by decide +kernel⟩⟩

end Engine

end SessionAffinity
