import SessionAffinity.Concurrent.Affinity
import SessionAffinity.Engine.Invariants

/-!
# Concurrent requests alone

Threads that make requests, and no other calls, through either balancer. The backends are those
of the start then, and what has to be excluded is that the threads get into each other's way.

* **Nothing to fail over.** The ring is the one that `main` builds and its servers are online
  (`Intact`), so no thread ever comes to the failover of `routeRequest` or of step 5 (`Pc.AtHome`).
* **What is read stays true.** A thread that has read the session of its key acts on the copy, and
  the copy names the owner of the key, as the session does. So this needs no lock, although two
  threads may make the session of a key anew one after the other.
* **Owners.** In every interleaving a client is therefore served by the owner of its key, or is
  refused before it is routed, and its session has never moved (`requests_at_home`).

This is about who serves, not about what the owner has stored: `processRequest` is one step here,
while the source leaves the data of a backend without a lock.
-/

namespace SessionAffinity

namespace Concurrent

variable {hashKey : ByteString → UInt64} {ι : Type*} {cfg : Config}

/-- The session is on the backend it was created on, which is the owner of its key. -/
structure StaysHome (owner : ByteString → ℤ) (key : ByteString) (entry : SessionEntry) : Prop where
  unblocked : entry.blocked = false
  backend : entry.backendId = owner key
  nonneg : 0 ≤ owner key
  history : entry.pathHistory.map PathHistoryEntry.backendId = [owner key]

/-- The engine has lost no backend, and all sessions are with their owners. -/
structure Intact (ring : ConsistentHashRing hashKey) (e : Engine hashKey) : Prop where
  unchanged : e.ring = ring
  online : ∀ s ∈ ring.activeServers, e.InRange s ∧ e.isOnline s = true
  ids : ∀ s b, e.backend? s = some b → b.id = s
  sessions : e.sessions.Forall (StaysHome ring.getServer)

/-- `routeRequest` is on its way to the owner of the key. -/
def Routing.AtHome (owner : ByteString → ℤ) (key : ByteString) : Routing → Prop
  | enter | find _ | create _ => True
  | checkAlive _ entry | storeSticky _ entry => StaysHome owner key entry
  | storeNew _ backend => backend = owner key ∧ 0 ≤ owner key
  | failover _ _ | storeFailover _ _ _ => False

/-- The thread is idle, or on its way to the owner of the key of its request. -/
def Pc.AtHome (owner : ByteString → ℤ) : Pc → Prop
  | idle | checkActive _ | validate _ | limit _ => True
  | routeRequest r again _ s => again = false ∧ s.AtHome owner r.ft.toKey
  | checkOnline r again status assigned =>
    again = false ∧ status = .success ∧ assigned = owner r.ft.toKey ∧ 0 ≤ owner r.ft.toKey
  | process r status assigned =>
    status = .success ∧ assigned = owner r.ft.toKey ∧ 0 ≤ owner r.ft.toKey
  | _ => False

/-- A refusal by steps 1 to 3, or what the owner `b` of the key answers if there is one. -/
def AnsweredAtHome (b : ℤ) : Engine.Answer → Prop
  | .response (.notActive _) | .response (.securityFailed _) | .response (.rateLimited _) => True
  | .response .noBackends => b < 0
  | .response (.served status assigned (.processed serverId _)) =>
    0 ≤ b ∧ status = .success ∧ assigned = b ∧ serverId = b
  | _ => False

/-- The call is a request. -/
def RequestsOnly : Event ι → Prop
  | .invoke _ (.handleRequest _) | .resume _ _ | .tick _ => True
  | .invoke _ _ => False

instance : DecidablePred (RequestsOnly : Event ι → Prop)
  | .invoke _ (.handleRequest _) | .resume _ _ | .tick _ => isTrue trivial
  | .invoke _ (.takeBackendOffline _) | .invoke _ (.bringBackendOnline _)
  | .invoke _ (.forceReassign _) => isFalse id

/-! ### One step -/

/-- What a routing leads to: the owner of the key, or nowhere. -/
def Routing.Leads (b : ℤ) (result : RequestStatus × ℤ) : Prop :=
  (result.1 = .serverDown ∧ b < 0) ∨ (result = (.success, b) ∧ 0 ≤ b)

/-- A step of `routeRequest` leaves the sessions at home. -/
theorem Routing.atHome_step {sm : SessionManager} {ring : ConsistentHashRing hashKey}
    (hring : ring.Sound) (hsm : sm.Forall (StaysHome ring.getServer)) (clk : Clock)
    (ft : FiveTuple) (assigned : ℤ) {s : Routing} (hs : s.AtHome ring.getServer ft.toKey) :
    (s.step sm ring clk ft assigned).1.Forall (StaysHome ring.getServer) ∧
      (∀ s', (s.step sm ring clk ft assigned).2 = .inl s' →
        s'.AtHome ring.getServer ft.toKey) ∧
      ∀ result, (s.step sm ring clk ft assigned).2 = .inr result →
        Leads (ring.getServer ft.toKey) result := by
  cases s with
  | enter => exact ⟨hsm, by rintro s' ⟨⟩; trivial, by rintro result ⟨⟩⟩
  | find now =>
    rw [step]
    cases he : sm.sessions[ft.toKey]? with
    | none => exact ⟨hsm, by rintro s' ⟨⟩; trivial, by rintro result ⟨⟩⟩
    | some entry =>
      have hhome := hsm _ _ he
      dsimp only
      rw [if_neg (by simp [hhome.unblocked])]
      split_ifs
      · exact ⟨hsm.drop _, by rintro s' ⟨⟩; trivial, by rintro result ⟨⟩⟩
      · exact ⟨hsm, by rintro s' ⟨⟩; exact hhome, by rintro result ⟨⟩⟩
  | checkAlive now entry =>
    have hactive : entry.backendId ∈ ring.getActiveServers :=
      hs.backend ▸ hring.getServer_mem hs.nonneg
    rw [step, if_pos hactive]
    exact ⟨hsm, by rintro s' ⟨⟩; exact hs, by rintro result ⟨⟩⟩
  | storeSticky now entry =>
    refine ⟨hsm.put ⟨hs.unblocked, hs.backend, hs.nonneg, hs.history⟩, by rintro s' ⟨⟩, ?_⟩
    rintro result ⟨⟩
    exact .inr ⟨by rw [hs.backend], hs.nonneg⟩
  | create now =>
    rw [step]
    split_ifs with hneg
    · exact ⟨hsm, by rintro s' ⟨⟩, by rintro result ⟨⟩; exact .inl ⟨rfl, hneg⟩⟩
    · exact ⟨hsm, by rintro s' ⟨⟩; exact ⟨rfl, not_lt.mp hneg⟩, by rintro result ⟨⟩⟩
  | storeNew now backend =>
    obtain ⟨rfl, hnonneg⟩ := hs
    refine ⟨hsm.put ⟨rfl, rfl, hnonneg, rfl⟩, by rintro s' ⟨⟩, ?_⟩
    rintro result ⟨⟩
    exact .inr ⟨rfl, hnonneg⟩
  | failover | storeFailover => exact hs.elim

namespace Pc

variable {ring : ConsistentHashRing hashKey} {e : Engine hashKey}

/-- Processing at a backend leaves the engine intact. -/
theorem intact_process (h : Intact ring e) {assigned : ℤ} (hassigned : 0 ≤ assigned)
    (rd : Readings) (ft : FiveTuple) (status : RequestStatus) (b : RequestHandler) :
    Intact ring (e.process rd ft status assigned b).1 where
  unchanged := h.unchanged
  online s hs := by
    obtain ⟨hrange, hon⟩ := h.online s hs
    refine ⟨?_, ?_⟩
    · rw [Engine.InRange] at hrange ⊢
      have hlen : (e.process rd ft status assigned b).1.backends.length = e.backends.length :=
        List.length_modify _ _ _
      rwa [hlen]
    · rw [← hon]
      exact Engine.isOnline_congr (Engine.map_modifyBackend fun b => by simp) s
  ids s b' hb' := by
    rw [Engine.process, Engine.backend?_modifyBackend hassigned] at hb'
    split_ifs at hb'
    · obtain ⟨b'', hb'', rfl⟩ := Option.map_eq_some_iff.mp hb'
      rw [RequestHandler.processRequest_id]
      exact h.ids s b'' hb''
    · exact h.ids s b' hb'
  sessions := h.sessions

/-- **A step at home** leaves the engine intact and the thread at home, and what it answers comes
from the owner of the key. -/
theorem atHome_step (hring : ring.Sound) (h : Intact ring e) (clk : Clock)
    (order : List ByteString) {p : Pc} (hp : p.AtHome ring.getServer) :
    Intact ring (p.step cfg e clk order).1 ∧
      (p.step cfg e clk order).2.1.AtHome ring.getServer ∧
      ∀ r a, p.request? = some r → (p.step cfg e clk order).2.2 = some a →
        AnsweredAtHome (ring.getServer r.ft.toKey) a := by
  cases p with
  | idle => exact ⟨h, trivial, by rintro r a ⟨⟩⟩
  | checkActive r =>
    simp only [step]
    split_ifs
    · exact ⟨h, trivial, by rintro r' a - ⟨⟩⟩
    · exact ⟨h, trivial, by rintro r' a - ⟨⟩; trivial⟩
  | validate r =>
    refine ⟨⟨h.unchanged, h.online, h.ids, h.sessions⟩, ?_⟩
    simp only [step]
    split
    · exact ⟨trivial, by rintro r' a - ⟨⟩; trivial⟩
    · exact ⟨trivial, by rintro r' a - ⟨⟩⟩
  | limit r =>
    refine ⟨⟨h.unchanged, h.online, h.ids, h.sessions⟩, ?_⟩
    simp only [step]
    split_ifs
    · exact ⟨⟨rfl, trivial⟩, by rintro r' a - ⟨⟩⟩
    · exact ⟨trivial, by rintro r' a - ⟨⟩; trivial⟩
  | routeRequest r again assigned s =>
    obtain ⟨rfl, hs⟩ := hp
    obtain ⟨hsessions, hnext, hresult⟩ :=
      Routing.atHome_step hring h.sessions clk r.ft assigned hs
    rw [← h.unchanged] at hsessions hnext hresult
    simp only [step]
    refine ⟨⟨h.unchanged, h.online, h.ids, h.unchanged ▸ hsessions⟩, ?_⟩
    cases hstep : (s.step e.sessions e.ring clk r.ft assigned).2 with
    | inl s' => exact ⟨⟨rfl, h.unchanged ▸ hnext s' hstep⟩, by rintro r' a - ⟨⟩⟩
    | inr result =>
      rcases h.unchanged ▸ hresult result hstep with ⟨hdown, hneg⟩ | ⟨rfl, hnonneg⟩
      · simp only [afterRouting, hdown]
        exact ⟨trivial, by rintro r' a ⟨⟩ ⟨⟩; exact hneg⟩
      · exact ⟨⟨rfl, rfl, rfl, hnonneg⟩, by rintro r' a - ⟨⟩⟩
  | checkOnline r again status assigned =>
    obtain ⟨rfl, rfl, rfl, hnonneg⟩ := hp
    obtain ⟨hrange, hon⟩ := h.online _ (hring.getServer_mem hnonneg)
    simp only [step, hrange, hon]
    exact ⟨h, ⟨rfl, rfl, hnonneg⟩, by rintro r' a - ⟨⟩⟩
  | process r status assigned =>
    obtain ⟨rfl, rfl, hnonneg⟩ := hp
    obtain ⟨-, hon⟩ := h.online _ (hring.getServer_mem hnonneg)
    obtain ⟨b, hb, hbon⟩ := Engine.isOnline_eq_true_iff.mp hon
    simp only [step, hb]
    refine ⟨intact_process h hnonneg _ _ _ _, trivial, ?_⟩
    rintro r' a ⟨⟩ ⟨⟩
    rw [Engine.process_snd _ _ hbon, h.ids _ _ hb]
    exact ⟨hnonneg, rfl, rfl, rfl⟩
  | evict | stop | retire | start | restore | handleServerDown | forceReassign => exact hp.elim

end Pc

/-! ### Runs -/

section Runs

variable [DecidableEq ι]

/-- All threads are at home around an intact engine. -/
structure AllAtHome (ring : ConsistentHashRing hashKey) (t : World hashKey ι) : Prop where
  engine : Intact ring t.shared.engine
  threads : ∀ i, (t.pc i).AtHome ring.getServer

omit [DecidableEq ι] in
theorem allAtHome_quiet (hashKey : ByteString → UInt64) (cfg : Config) (now : TimePoint) :
    AllAtHome (Engine.init hashKey cfg).ring (World.quiet ι (.init hashKey cfg) now) where
  engine := ⟨rfl, fun s hs => ⟨@Engine.inRange_of_active hashKey cfg [] s hs,
    (Engine.live_init hashKey cfg s).mp hs⟩, fun _ _ => @Engine.id_of_backend? hashKey cfg [] _ _,
    SessionManager.forall_init _⟩
  threads _ := trivial

/-- Threads that only make requests stay at home. -/
theorem allAtHome_run (cfg : Config) {ring : ConsistentHashRing hashKey} (hring : ring.Sound)
    {t : World hashKey ι} (h : AllAtHome ring t) {evs : List (Event ι)}
    (hevs : ∀ ev ∈ evs, RequestsOnly ev) : AllAtHome ring ((machine hashKey cfg ι).run t evs) := by
  refine (machine hashKey cfg ι).run_invariant_of_forall (I := AllAtHome ring)
    (P := RequestsOnly) (fun t ev h hev => ?_) h hevs
  cases ev with
  | tick d => exact ⟨h.engine, h.threads⟩
  | invoke i call =>
    rw [Script.next_invoke]
    split_ifs
    · refine ⟨h.engine, Threads.forall_advance (Q := Pc.AtHome _) h.threads ?_⟩
      cases call with
      | handleRequest r => trivial
      | takeBackendOffline | bringBackendOnline | forceReassign => exact hev.elim
    · exact h
  | resume i x =>
    rw [Script.next_resume]
    split_ifs
    · exact h
    · obtain ⟨hengine, hpc, -⟩ := Pc.atHome_step hring h.engine ⟨t.shared.now, x.wall⟩ x.order
        (h.threads i)
      exact ⟨hengine, Threads.forall_advance (Q := Pc.AtHome _) h.threads hpc⟩

/-- **Concurrent requests do not get into each other's way.** In every interleaving of threads
that only make requests: every session is on the owner of its key and has never moved, and a
thread that answers a request refuses it in steps 1 to 3, or has it processed by the owner of its
key with status `success`, or says that there are no backends if the ring has never had any. -/
theorem requests_at_home (hashKey : ByteString → UInt64) (cfg : Config) {now : TimePoint}
    {evs : List (Event ι)} {t : World hashKey ι}
    (ht : (machine hashKey cfg ι).run (.quiet ι (.init hashKey cfg) now) evs = t)
    (hevs : ∀ ev ∈ evs, RequestsOnly ev) :
    (∀ key entry, t.shared.engine.sessions.sessions[key]? = some entry →
      StaysHome (Engine.init hashKey cfg).ring.getServer key entry) ∧
    ∀ i x r a, (t.pc i).request? = some r →
      (machine hashKey cfg ι).answer t (.resume i x) = some a →
        AnsweredAtHome ((Engine.init hashKey cfg).ring.getServer r.ft.toKey) a := by
  have hring : (Engine.init hashKey cfg).ring.Sound := @Engine.sound_afterOps hashKey cfg []
  have hhome := allAtHome_run cfg hring (allAtHome_quiet hashKey cfg now) hevs
  rw [ht] at hhome
  refine ⟨hhome.engine.sessions, fun i x r a hr ha => ?_⟩
  rw [Script.answer_resume] at ha
  split_ifs at ha
  exact (Pc.atHome_step hring hhome.engine ⟨t.shared.now, x.wall⟩ x.order
    (hhome.threads i)).2.2 r a hr ha

end Runs

/-- Two threads make a request of the same client each, their steps in turn. -/
def sameClient (n : ℕ) : List (Event Bool) :=
  [.invoke true (.handleRequest ⟨.primary, clientTuple, bytes "hello"⟩),
    .invoke false (.handleRequest ⟨.primary, clientTuple, bytes "hello"⟩)] ++
    (List.range n).map fun j => go (j % 2 == 0)

/-- The threads after `n` steps. -/
def sameClientWorld (n : ℕ) : World fnvHashKey Bool :=
  (machine fnvHashKey .pair Bool).run (.quiet Bool (.init fnvHashKey .pair) 0) (sameClient n)

/-- One of the threads answers while the other has the session lock. -/
theorem requests_at_home_sameClient : ∃ a,
    (machine fnvHashKey .pair Bool).answer (sameClientWorld 16) (go true) = some a ∧
      AnsweredAtHome ((Engine.init fnvHashKey .pair).ring.getServer clientTuple.toKey) a := by
  have hanswers :
      ((machine fnvHashKey .pair Bool).answer (sameClientWorld 16) (go true)).isSome = true := by
    decide +kernel
  obtain ⟨a, ha⟩ := Option.isSome_iff_exists.mp hanswers
  refine ⟨a, ha, (requests_at_home fnvHashKey .pair (t := sameClientWorld 16) rfl ?_).2 true
    ⟨[], []⟩ ⟨.primary, clientTuple, bytes "hello"⟩ a ?_ ha⟩
  · decide
  · decide +kernel

end Concurrent

end SessionAffinity
