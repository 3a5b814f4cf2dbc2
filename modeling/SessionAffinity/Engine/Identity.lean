import SessionAffinity.Engine.Invariants

/-!
# Clients and session keys

Every policy of the engine (limit, block, stickiness, the data of a backend) is filed under
the session key, so a client is whatever shares a key. Two questions decide what that is
worth.

* Can two flows share one key? Not once they are valid: `flows_never_share`, with the table
  and the backends' data filed under the keys of the tuples they are about.
* Can one flow have two keys? `validateTuple` regards protocols up to letter case and
  `toKey` does not, so it can: `same_client_iff` says that a flow is one client exactly when
  its protocol is always spelled alike, and `respelling_evades_block` is a blocked client
  that is served under another spelling.
-/

namespace SessionAffinity

open Security (validateTuple upperProtocol)

namespace Engine

variable {hashKey : ByteString → UInt64} {cfg : Config}

/-! ### What is filed under a key -/

/-- A property of entries that holds of the new entries of valid tuples, and that no operation
on an existing entry can break, holds of the session table of every engine. -/
theorem forall_afterOps {P : ByteString → SessionEntry → Prop}
    (hreassign : ∀ key entry, P key entry → ∀ clk backend reason,
      P key (entry.reassign clk backend reason))
    (hupdate : ∀ key entry, P key entry → ∀ lastAccess blocked customTimeout,
      P key { entry with lastAccess, blocked, customTimeout })
    (hnew : ∀ clk ft backend, validateTuple ft = .ok () →
      P ft.toKey (SessionManager.newEntry ft clk backend))
    (ops : List Op) : (afterOps hashKey cfg ops).sessions.Forall P := by
  refine (machine hashKey cfg).run_invariant_of_forall (I := fun e => e.system.manager.Forall P)
    (P := fun _ => True) (fun e op he _ => ?_) (SessionManager.forall_init _) fun _ _ => trivial
  rw [system_next]
  refine (SessionSystem.machine hashKey).run_invariant_of_forall
    (I := fun s => s.manager.Forall P) (P := (· ∈ e.calls cfg op)) (fun s c hs hc => ?_) he
    fun _ h => h
  refine SessionSystem.forall_next hs hreassign hupdate fun clk ft assigned backend hroute => ?_
  subst hroute
  -- only an admitted request is routed, and its tuple is valid
  cases made_of_mem_calls cfg e hc with
  | route hpass => exact hnew clk ft backend (validateTuple_of_precheck _ _ _ _ _ _ hpass)

/-- Every session is filed under the key of its tuple, which is valid. -/
theorem tuple_of_session {ops : List Op} {k : ByteString} {entry : SessionEntry}
    (h : (afterOps hashKey cfg ops).sessions.sessions[k]? = some entry) :
    entry.tuple.toKey = k ∧ validateTuple entry.tuple = .ok () :=
  forall_afterOps (P := fun k entry => entry.tuple.toKey = k ∧ validateTuple entry.tuple = .ok ())
    (fun _ _ h _ _ _ => h) (fun _ _ h _ _ _ => h) (fun _ _ _ h => ⟨rfl, h⟩) ops k entry h

/-- Every backend files its data under the key they are about. -/
theorem keyed_afterOps (ops : List Op) : ∀ b ∈ (afterOps hashKey cfg ops).backends, b.Keyed := by
  refine (machine hashKey cfg).run_invariant_of_forall (I := fun e => ∀ b ∈ e.backends, b.Keyed)
    (P := fun _ => True) ?_ ?_ fun _ _ => trivial
  · rintro e op he -
    refine forall_backends_next he (fun f hf b hb => ?_) op
    cases hf with
    | process timestamp ft => exact hb.processRequest timestamp ft
    | start | stop => exact hb
  · intro b hb
    obtain ⟨i, -, rfl⟩ := List.mem_map.mp hb
    exact RequestHandler.keyed_init _

/-! ### Two flows -/

/-- **Distinct flows never share.** Valid tuples with one key are one tuple; every session is
filed under the key of its tuple, so that a session found for a valid tuple is a session of
that tuple; and the requests of one flow leave the rate-limit queue of another, and what the
backends keep for it, as they are. -/
theorem flows_never_share (hashKey : ByteString → UInt64) (cfg : Config) (ops : List Op)
    (t₁ t₂ : FiveTuple) (h₁ : validateTuple t₁ = .ok ()) (h₂ : validateTuple t₂ = .ok ()) :
    (t₁.toKey = t₂.toKey → t₁ = t₂) ∧
    (∀ (k : ByteString) (entry : SessionEntry),
      (afterOps hashKey cfg ops).sessions.sessions[k]? = some entry → entry.tuple.toKey = k) ∧
    (∀ entry, (afterOps hashKey cfg ops).sessions.sessions[t₁.toKey]? = some entry →
      entry.tuple = t₁) ∧
    (∀ b ∈ (afterOps hashKey cfg ops).backends, b.Keyed) ∧
    (t₁ ≠ t₂ → ∀ role rd payload,
      ((afterOps hashKey cfg ops).handleRequest cfg role rd t₁ payload).1.limiter.queue t₂.toKey =
          (afterOps hashKey cfg ops).limiter.queue t₂.toKey ∧
        ((afterOps hashKey cfg ops).handleRequest cfg role rd t₁ payload).1.backends.map
            (·.localData[t₂.toKey]?) =
          (afterOps hashKey cfg ops).backends.map (·.localData[t₂.toKey]?)) := by
  refine ⟨toKey_injective h₁ h₂, fun k entry h => (tuple_of_session h).1, fun entry h => ?_,
    keyed_afterOps ops, fun hne role rd payload => ?_⟩
  · obtain ⟨hkey, hvalid⟩ := tuple_of_session h
    exact toKey_injective hvalid h₁ hkey
  · have hkey : t₁.toKey ≠ t₂.toKey := fun h => hne (toKey_injective h₁ h₂ h)
    constructor
    · obtain h | h := (afterOps hashKey cfg ops).limiter_handleRequest cfg role rd t₁ payload <;>
        rw [h]
      exact RateLimiter.queue_allowRequest_of_ne _ _ _ hkey
    · exact map_backends_handleRequest _ _ _ _ _ _ fun b =>
        b.localData_processRequest_of_ne rd.timestamp t₁ hkey

/-- Two connections of one client: a request of the first leaves the queue of the second. -/
theorem flows_never_share_neighbours :
    ((afterOps fnvHashKey .default []).handleRequest .default .primary (.at ⟨0, []⟩) clientTuple
        (bytes "hello")).1.limiter.queue ({ clientTuple with srcPort := 4001 } : FiveTuple).toKey =
      (afterOps fnvHashKey .default []).limiter.queue
        ({ clientTuple with srcPort := 4001 } : FiveTuple).toKey :=
  ((flows_never_share fnvHashKey .default [] clientTuple { clientTuple with srcPort := 4001 }
    (by decide) (by decide)).2.2.2.2 (by decide) .primary (.at ⟨0, []⟩) (bytes "hello")).1

/-! ### One flow -/

/-- The tuples are of one flow: they have the same endpoints and protocols that the validator
does not tell apart. -/
structure SameFlow (t₁ t₂ : FiveTuple) : Prop where
  srcIp : t₁.srcIp = t₂.srcIp
  srcPort : t₁.srcPort = t₂.srcPort
  dstIp : t₁.dstIp = t₂.dstIp
  dstPort : t₁.dstPort = t₂.dstPort
  protocol : upperProtocol t₁.protocol = upperProtocol t₂.protocol

/-- The tuples are one client: in every run they have one rate-limit queue, one session, with its
blocked flag, and one assignment of a backend. -/
def SameClient (t₁ t₂ : FiveTuple) : Prop :=
  ∀ (hashKey : ByteString → UInt64) (cfg : Config) (ops : List Op),
    (afterOps hashKey cfg ops).limiter.queue t₁.toKey =
        (afterOps hashKey cfg ops).limiter.queue t₂.toKey ∧
      (afterOps hashKey cfg ops).sessions.sessions[t₁.toKey]? =
        (afterOps hashKey cfg ops).sessions.sessions[t₂.toKey]? ∧
      ∀ clk assigned, ((afterOps hashKey cfg ops).sessions.routeRequest
          (afterOps hashKey cfg ops).ring clk t₁ assigned).2 =
        ((afterOps hashKey cfg ops).sessions.routeRequest
          (afterOps hashKey cfg ops).ring clk t₂ assigned).2

/-- A fresh engine finds a first request of a valid tuple valid. -/
theorem fullValidation_init {ft : FiveTuple} (h : validateTuple ft = .ok ()) (clk : Clock) :
    (Security.fullValidation .pair .init clk ft (bytes "hello")).2 = .ok () := by
  have hsize :
      Security.validatePayloadSize (bytes "hello") Config.pair.maxPayloadSize = .ok () := by
    decide
  have hspoof : (Security.checkSpoofing .pair .init clk ft.srcIp).2 = .ok () := by
    simp [Security.checkSpoofing, Security.init, Security.tracker, SlidingWindow.evict, toInt,
      Config.pair, Config.default]
  rw [Security.fullValidation, hsize, h]
  exact hspoof

/-- **When a flow is one client.** Valid tuples of one flow have one key, and are one client,
exactly when they spell the protocol alike: the validator upper-cases a copy of it, the key
takes it as it is. -/
theorem same_client_iff (t₁ t₂ : FiveTuple) (h₁ : validateTuple t₁ = .ok ())
    (h₂ : validateTuple t₂ = .ok ()) (hflow : SameFlow t₁ t₂) :
    (t₁.toKey = t₂.toKey ↔ t₁.protocol = t₂.protocol) ∧
      (SameClient t₁ t₂ ↔ t₁.protocol = t₂.protocol) := by
  have hkey := toKey_eq_iff_protocol_eq hflow.srcIp hflow.srcPort hflow.dstIp hflow.dstPort
  refine ⟨hkey, fun h => ?_, fun hprotocol => ?_⟩
  · by_contra hprotocol
    -- after the first request of one of them, only that one has a record
    have hqueue := (h fnvHashKey .pair [.request .primary (.at ⟨0, []⟩) t₁ (bytes "hello")]).1
    have hlimiter : (afterOps fnvHashKey .pair [.request .primary (.at ⟨0, []⟩) t₁
        (bytes "hello")]).limiter =
          ((init fnvHashKey .pair).limiter.allowRequest ⟨0, []⟩ t₁.toKey).1 :=
      limiter_handleRequest_of_valid rfl (fullValidation_init h₁ ⟨0, []⟩)
    rw [hlimiter, RateLimiter.queue_allowRequest_of_ne _ _ _ (mt hkey.mp hprotocol)] at hqueue
    exact RateLimiter.queue_allowRequest_ne_nil _ _ _ hqueue
  · obtain rfl := toKey_injective h₁ h₂ (hkey.mpr hprotocol)
    exact fun _ _ _ => ⟨rfl, rfl, fun _ _ => rfl⟩

/-- The client tuple with its protocol in lower case. -/
def respelledTuple : FiveTuple := { clientTuple with protocol := bytes "tcp" }

theorem sameFlow_respelled : SameFlow clientTuple respelledTuple :=
  ⟨rfl, rfl, rfl, rfl, by decide⟩

/-- In another spelling the flow is another client. -/
theorem not_same_client_respelled : ¬ SameClient clientTuple respelledTuple := fun h =>
  absurd ((same_client_iff clientTuple respelledTuple (by decide) (by decide)
    sameFlow_respelled).2.mp h) (by decide)

/-- **Re-spelling evades a block.** The client's session is blocked and its requests are refused;
the same flow with its protocol in lower case passes validation and is served. -/
theorem respelling_evades_block :
    validateTuple clientTuple = .ok () ∧ validateTuple respelledTuple = .ok () ∧
    SameFlow clientTuple respelledTuple ∧ clientTuple.toKey ≠ respelledTuple.toKey ∧
    ((afterOps fnvHashKey .pair [.request .primary (.at ⟨0, []⟩) clientTuple (bytes "hello"),
        .blockSession clientTuple.toKey true]).handleRequest .pair .primary (.at ⟨0, []⟩)
      clientTuple (bytes "hello")).2 = .blocked clientTuple.toKey ∧
    ((afterOps fnvHashKey .pair [.request .primary (.at ⟨0, []⟩) clientTuple (bytes "hello"),
        .blockSession clientTuple.toKey true]).handleRequest .pair .primary (.at ⟨0, []⟩)
      respelledTuple (bytes "hello")).2 = .served .success 0 (.processed 0 1) :=
  ⟨by decide, by decide, sameFlow_respelled, by decide, by decide +kernel, by decide +kernel⟩

end Engine

end SessionAffinity
