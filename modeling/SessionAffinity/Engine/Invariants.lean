import SessionAffinity.Engine.Runs

/-!
# Invariants of engine runs

What holds of the engine after every run, one fact at a time: the backends keep their ids,
so that the range check is the range of ids; the ring is sound, and full when the virtual
nodes of the backends are separated; its servers are backends.

In a *managed* run backends stop only by being taken offline. There the ring is `Live`: its
active servers are the backends that are online. That closes the failover of a request,
and `dispatch_cases_of_live` says what is left.
-/

namespace SessionAffinity

namespace Engine

variable {hashKey : ByteString → UInt64} {cfg : Config}

/-! ### Backends -/

/-- The ids of the backends, as `main` gives them out. -/
theorem ids_afterOps (ops : List Op) : (afterOps hashKey cfg ops).flags.map Prod.fst =
    (List.range cfg.numBackendServers).map Int.ofNat := by
  refine (machine hashKey cfg).run_invariant_of_forall
    (I := fun e => e.flags.map Prod.fst = (List.range cfg.numBackendServers).map Int.ofNat)
    (P := fun _ => True) ?_ ?_ fun _ _ => trivial
  · rintro e op he -
    obtain h | ⟨serverId, f, hf, h⟩ := e.backends_next cfg op <;> rw [flags, h]
    · exact he
    · have hid : ∀ b, ((f b).id : ℤ) = b.id := by
        cases hf <;> simp [RequestHandler.start, RequestHandler.stop]
      rw [← he, flags, List.map_map, List.map_map]
      exact map_modifyBackend hid
  · simp [init, flags, RequestHandler.init, Function.comp_def]

theorem length_backends_afterOps (ops : List Op) :
    (afterOps hashKey cfg ops).backends.length = cfg.numBackendServers := by
  have h := congrArg List.length (@ids_afterOps hashKey cfg ops)
  simpa [flags] using h

/-- The range check passes the ids of backends. -/
theorem inRange_afterOps {ops : List Op} {s : ℤ} :
    (afterOps hashKey cfg ops).InRange s ↔ 0 ≤ s ∧ s < cfg.numBackendServers := by
  rw [InRange, length_backends_afterOps, toInt_of_lt cfg.numBackendServers_lt]

/-- A backend is found under its id. -/
theorem id_of_backend? {ops : List Op} {s : ℤ} {b : RequestHandler}
    (hb : (afterOps hashKey cfg ops).backend? s = some b) : b.id = s := by
  rw [backend?] at hb
  split_ifs at hb with hs
  have hid := congrArg (·[s.toNat]?) (@ids_afterOps hashKey cfg ops)
  simp only [flags, List.getElem?_map, hb, Option.map_some] at hid
  obtain ⟨i, hi, hib⟩ := Option.map_eq_some_iff.mp hid.symm
  obtain ⟨hlt, rfl⟩ := List.getElem?_eq_some_iff.mp hi
  rw [← hib, List.getElem_range]
  exact Int.toNat_of_nonneg hs

theorem inRange_of_isOnline {ops : List Op} {s : ℤ}
    (h : (afterOps hashKey cfg ops).isOnline s = true) : 0 ≤ s ∧ s < cfg.numBackendServers := by
  obtain ⟨b, hb, -⟩ := isOnline_eq_true_iff.mp h
  rw [backend?] at hb
  split_ifs at hb with hs
  have hlt := (List.getElem?_eq_some_iff.mp hb).1
  rw [length_backends_afterOps] at hlt
  exact ⟨hs, by omega⟩

/-! ### The session table -/

theorem defaultTimeoutSec_afterOps (ops : List Op) :
    (afterOps hashKey cfg ops).sessions.defaultTimeoutSec = cfg.sessionTimeoutSec := by
  refine (machine hashKey cfg).run_invariant_of_forall
    (I := fun e => e.system.manager.defaultTimeoutSec = cfg.sessionTimeoutSec)
    (P := fun _ => True) (fun e op he _ => ?_) rfl fun _ _ => trivial
  rw [system_next, SessionSystem.run_defaultTimeoutSec, he]

/-- The timeout of an entry is the same in every engine of the deployment. -/
theorem effectiveTimeout_afterOps (ops ops' : List Op) (entry : SessionEntry) :
    (afterOps hashKey cfg ops).sessions.effectiveTimeout entry =
      (afterOps hashKey cfg ops').sessions.effectiveTimeout entry :=
  SessionManager.effectiveTimeout_congr
    ((defaultTimeoutSec_afterOps ops).trans (defaultTimeoutSec_afterOps ops').symm) entry

/-! ### The ring -/

/-- **Ring invariants.** What adding and removing backends keeps holds of the ring of every
engine. -/
theorem ring_afterOps {I : ConsistentHashRing hashKey → Prop}
    (hinit : I (.init hashKey cfg.consistentHashVnodes))
    (hadd : ∀ r (s : ℤ), 0 ≤ s ∧ s < cfg.numBackendServers → I r → I (r.addServer s))
    (hremove : ∀ r (s : ℤ), 0 ≤ s ∧ s < cfg.numBackendServers → I r → I (r.removeServer s))
    (ops : List Op) : I (afterOps hashKey cfg ops).ring := by
  refine (machine hashKey cfg).run_history (C := fun _ e => I e.ring) ?_ ?_ ops
  · show I (List.foldl _ _ _)
    refine List.foldlRecOn _ _ hinit fun r hr s hs => hadd r s ?_ hr
    obtain ⟨i, hi, rfl⟩ := List.mem_map.mp hs
    exact ⟨Int.natCast_nonneg i, Int.ofNat_lt.mpr (List.mem_range.mp hi)⟩
  · intro is op hI
    have hring := congrArg SessionSystem.ring
      (system_next cfg ((machine hashKey cfg).run (init hashKey cfg) is) op)
    show I ((machine hashKey cfg).next _ op).system.ring
    rw [hring]
    refine SessionSystem.ring_invariant (A := {s | 0 ≤ s ∧ s < cfg.numBackendServers})
      hadd hremove (fun c hc t ht => ?_) hI
    exact inRange_afterOps.mp ((made_of_mem_calls _ _ hc).inRange ht)

theorem sound_afterOps (ops : List Op) : (afterOps hashKey cfg ops).ring.Sound :=
  ring_afterOps (ConsistentHashRing.sound_init _) (fun _ s _ h => h.addServer s)
    (fun _ s _ h => h.removeServer s) ops

theorem vnodesPerServer_afterOps (ops : List Op) :
    (afterOps hashKey cfg ops).ring.vnodesPerServer = cfg.consistentHashVnodes :=
  ring_afterOps (I := fun r => r.vnodesPerServer = cfg.consistentHashVnodes) rfl
    (fun r s _ h => (r.addServer_vnodesPerServer s).trans h) (fun _ _ _ h => h) ops

/-- The servers of the ring are backends. -/
theorem inRange_of_mem_activeServers {ops : List Op} :
    ∀ s ∈ (afterOps hashKey cfg ops).ring.activeServers, 0 ≤ s ∧ s < cfg.numBackendServers := by
  refine ring_afterOps (I := fun r => ∀ s ∈ r.activeServers, 0 ≤ s ∧ s < cfg.numBackendServers)
    (fun s hs => absurd hs List.not_mem_nil) (fun r t ht hr s hs => ?_) (fun r t ht hr s hs => ?_)
    ops
  · rcases (ConsistentHashRing.mem_activeServers_addServer r t).mp hs with rfl | hs
    · exact ht
    · exact hr s hs
  · exact hr s ((ConsistentHashRing.mem_activeServers_removeServer r t).mp hs).2

/-- A server of the ring passes the range check. -/
theorem inRange_of_active {ops : List Op} {s : ℤ}
    (h : s ∈ (afterOps hashKey cfg ops).ring.activeServers) :
    (afterOps hashKey cfg ops).InRange s :=
  inRange_afterOps.mpr (inRange_of_mem_activeServers s h)

/-- The virtual nodes of the ring are in place when those of the backends are separated. -/
theorem placed_afterOps (hsep : Separated hashKey cfg.consistentHashVnodes
    {s | 0 ≤ s ∧ s < cfg.numBackendServers}) (ops : List Op) :
    (afterOps hashKey cfg ops).ring.Placed {s | 0 ≤ s ∧ s < cfg.numBackendServers} :=
  ring_afterOps (ConsistentHashRing.placed_init hsep) (fun _ _ hs h => h.addServer hs)
    (fun _ _ hs h => h.removeServer hs) ops

/-- The ring is full when the virtual nodes of the backends are separated. -/
theorem full_afterOps (hsep : Separated hashKey cfg.consistentHashVnodes
    {s | 0 ≤ s ∧ s < cfg.numBackendServers}) (ops : List Op) :
    (afterOps hashKey cfg ops).ring.Full :=
  (placed_afterOps hsep ops).full

/-! ### Managed runs -/

/-- A call that stops no backend without taking it off the ring. -/
def Op.isManaged : Op → Bool
  | .crash _ => false
  | _ => true

/-- The active servers of the ring are the backends that are online. -/
def Live (e : Engine hashKey) : Prop :=
  ∀ s, s ∈ e.ring.activeServers ↔ e.isOnline s = true

/-- **Dispatching to live backends.** A request is refused as blocked, finds no server, or is
processed by the backend it is routed to, which is active and online. -/
theorem dispatch_cases_of_live {e : Engine hashKey} (hl : e.Live) (hs : e.ring.Sound)
    (hr : ∀ s ∈ e.ring.activeServers, e.InRange s) (rd : Readings) (ft : FiveTuple)
    {routed : SessionManager × RequestStatus × ℤ}
    (hrouted : e.sessions.routeRequest e.ring rd.route ft (-1) = routed) :
    (routed.2.1 = .sessionBlocked ∧
      e.dispatch rd ft = ({ e with sessions := routed.1 }, .blocked ft.toKey)) ∨
    (routed.2.1 = .serverDown ∧
      e.dispatch rd ft = ({ e with sessions := routed.1 }, .noBackends)) ∨
    (routed.2.2 ∈ e.ring.activeServers ∧ ∃ b, e.backend? routed.2.2 = some b ∧
      b.online = true ∧ e.dispatch rd ft =
        process { e with sessions := routed.1 } rd ft routed.2.1 routed.2.2 b) := by
  by_cases hb : routed.2.1 = .sessionBlocked
  · exact .inl ⟨hb, dispatch_of_blocked hrouted hb⟩
  by_cases hd : routed.2.1 = .serverDown
  · exact .inr (.inl ⟨hd, dispatch_of_serverDown hrouted hd⟩)
  have hmem : routed.2.2 ∈ e.ring.activeServers :=
    (hrouted ▸ e.sessions.routed_routeRequest e.ring rd.route ft (-1)).mem_activeServers hs hb hd
  exact .inr (.inr ⟨hmem, dispatch_of_isOnline hrouted hb hd (hr _ hmem) ((hl _).mp hmem)⟩)

/-- Managed calls keep the engine live. -/
theorem Live.next {e : Engine hashKey} (hl : e.Live) (hs : e.ring.Sound)
    (hr : ∀ s ∈ e.ring.activeServers, e.InRange s) {op : Op} (hop : op.isManaged = true) :
    ((machine hashKey cfg).next e op).Live := by
  cases op with
  | request role rd ft payload =>
    intro s
    show s ∈ (e.handleRequest cfg role rd ft payload).1.ring.activeServers ↔
      (e.handleRequest cfg role rd ft payload).1.isOnline s = true
    rw [isOnline_congr (e.flags_handleRequest cfg role rd ft payload) s, ← hl s]
    obtain ⟨security, limiter, ⟨response, -, hreq⟩ | ⟨-, hreq⟩⟩ :=
      e.handleRequest_cases cfg role rd ft payload
    · rw [hreq]
    · rw [hreq]
      obtain ⟨-, h⟩ | ⟨-, h⟩ | ⟨-, b, -, -, h⟩ :=
        dispatch_cases_of_live (e := { e with security, limiter }) hl hs hr rd ft rfl
      · rw [h]
      · rw [h]
      · rw [h]
        rfl
  | setActive role active => cases role <;> exact hl
  | takeBackendOffline clk serverId =>
    show (e.takeBackendOffline clk serverId).Live
    rw [takeBackendOffline]
    split_ifs with hin
    · intro s
      exact (ConsistentHashRing.mem_activeServers_removeServer e.ring serverId).trans
        ((and_congr_right' (hl s)).trans (isOnline_stop hin.1).symm)
    · exact hl
  | bringBackendOnline serverId =>
    show (e.bringBackendOnline serverId).Live
    rw [bringBackendOnline]
    split_ifs with hin
    · intro s
      exact (ConsistentHashRing.mem_activeServers_addServer e.ring serverId).trans
        ((or_congr_right (hl s)).trans (isOnline_start hin).symm)
    · exact hl
  | crash => exact absurd hop Bool.false_ne_true
  | cleanupExpired | forceReassign | blockSession | setSessionExpiry => exact hl

private theorem isOnline_init (s : ℤ) :
    (init hashKey cfg).isOnline s = true ↔ 0 ≤ s ∧ s < cfg.numBackendServers := by
  refine ⟨fun h => @inRange_of_isOnline hashKey cfg [] s h, fun h => ?_⟩
  have hlt : s.toNat < cfg.numBackendServers := by omega
  simp [isOnline, backend?, init, h.1, hlt, RequestHandler.init]

private theorem activeServers_init (s : ℤ) :
    s ∈ (init hashKey cfg).ring.activeServers ↔ 0 ≤ s ∧ s < cfg.numBackendServers := by
  have hfold (ids : List ℤ) (r : ConsistentHashRing hashKey) :
      s ∈ (ids.foldl ConsistentHashRing.addServer r).activeServers ↔
        s ∈ ids ∨ s ∈ r.activeServers := by
    induction ids generalizing r with
    | nil => simp
    | cons t ids ih =>
      rw [List.foldl_cons, ih, ConsistentHashRing.mem_activeServers_addServer, List.mem_cons]
      tauto
  rw [init, hfold, List.mem_map]
  simp only [ConsistentHashRing.init, List.mem_range, List.not_mem_nil, or_false]
  constructor
  · rintro ⟨i, hi, rfl⟩
    exact ⟨Int.natCast_nonneg i, Int.ofNat_lt.mpr hi⟩
  · rintro ⟨h0, hs⟩
    exact ⟨s.toNat, by omega, Int.toNat_of_nonneg h0⟩

/-- The engine `main` builds is live. -/
theorem live_init (hashKey : ByteString → UInt64) (cfg : Config) : (init hashKey cfg).Live :=
  fun s => (activeServers_init s).trans (isOnline_init s).symm

/-- **Managed runs are live.** -/
theorem live_afterOps {ops : List Op} (hops : ∀ op ∈ ops, op.isManaged = true) :
    (afterOps hashKey cfg ops).Live := by
  induction ops using List.reverseRecOn with
  | nil => exact live_init hashKey cfg
  | append_singleton ops op ih =>
    rw [afterOps_concat]
    exact Live.next (ih fun o ho => hops o (List.mem_append_left _ ho)) (sound_afterOps ops)
      (fun _ => inRange_of_active) (hops op (by simp))

end Engine

end SessionAffinity
