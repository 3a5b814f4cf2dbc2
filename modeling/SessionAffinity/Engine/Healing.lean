import SessionAffinity.Engine.Accounting
import SessionAffinity.Engine.Availability

/-!
# Healing after crashes

A backend that crashes stays on the ring, and sessions stay on it, until a request runs into
it: the failover takes it off, sweeps its sessions and tries once more, perhaps on another
crashed backend. `self_healing` bounds what clients notice. As long as one backend of the ring
is online, each admitted request for an unblocked session is served, or lowers the number of
crashed backends on the ring and leaves at least one there; so of `m` crashes at most `m - 1`
such requests fail.

The second half is what makes the bound `m - 1` rather than `m`: the request that removes the
last crashed backend finds a live one at its second try, since the ring without it is still
full and not empty (`ConsistentHashRing.Serving`).
-/

namespace SessionAffinity

namespace Engine

variable {hashKey : ByteString → UInt64} {cfg : Config}

/-- The number of backends on the ring that are offline. -/
def offlineOnRing (e : Engine hashKey) : ℕ :=
  e.ring.getActiveServers.countP fun s => !e.isOnline s

/-- The call is a request that passes admission and whose session is not blocked. -/
def accepts (cfg : Config) (e : Engine hashKey) : Op → Bool
  | .request role rd ft payload =>
    (e.precheck cfg role rd ft payload).2 = none ∧
      (e.sessions.sessions[ft.toKey]?).all fun entry => !entry.blocked
  | _ => false

/-- The call is such a request, and it fails. -/
def fails (cfg : Config) (e : Engine hashKey) (op : Op) : Bool :=
  e.accepts cfg op && !((machine hashKey cfg).answer e op).isSuccess

/-- How many requests of a run fail. -/
def failures (cfg : Config) (e : Engine hashKey) (ops : List Op) : ℕ :=
  (machine hashKey cfg).watch (fun e op n => n + (e.fails cfg op).toNat) e 0 ops

/-- The calls of `handleRequest`. -/
def Op.isRequest : Op → Bool
  | request _ _ _ _ => true
  | _ => false

/-- **What healing asks of a call**: it takes no backend off the ring that is online, and if
it is a request that should be served, then it is, or one crashed backend fewer is left. -/
structure Heals (cfg : Config) (e : Engine hashKey) (op : Op) : Prop where
  keeps : ∀ s ∈ e.ring.getActiveServers, e.isOnline s = true →
    s ∈ ((machine hashKey cfg).next e op).ring.getActiveServers
  heals : e.accepts cfg op = true →
    (∃ status s n, e.isOnline s = true ∧
      (machine hashKey cfg).answer e op = .response (.served status s (.processed s n))) ∨
    ((machine hashKey cfg).next e op).offlineOnRing < e.offlineOnRing

/-! ### Crashed backends on the ring -/

/-- A removal cannot raise the number of crashed backends on the ring. -/
theorem offlineOnRing_le {e e' : Engine hashKey} (hflags : e'.flags = e.flags) {s : ℤ}
    (hring : e'.ring = e.ring.removeServer s) : e'.offlineOnRing ≤ e.offlineOnRing := by
  simp only [offlineOnRing, isOnline_congr hflags, hring]
  exact (List.filter_sublist).countP_le

/-- The removal of a crashed backend lowers it. -/
theorem offlineOnRing_lt {e e' : Engine hashKey} (hflags : e'.flags = e.flags) {s : ℤ}
    (hring : e'.ring = e.ring.removeServer s) (hs : s ∈ e.ring.activeServers)
    (hoff : e.isOnline s = false) : e'.offlineOnRing < e.offlineOnRing := by
  simp only [offlineOnRing, isOnline_congr hflags, hring]
  have hsplit := List.countP_eq_countP_filter_add e.ring.activeServers
    (fun t => !e.isOnline t) (fun t => decide (t ≠ s))
  have hpos : 0 < (e.ring.activeServers.filter fun t => !decide (t ≠ s)).countP
      fun t => !e.isOnline t := by
    refine List.countP_pos_iff.mpr ⟨s, ?_, by simp [hoff]⟩
    exact List.mem_filter.mpr ⟨hs, by simp⟩
  show (e.ring.activeServers.filter (· ≠ s)).countP _ < e.ring.activeServers.countP _
  omega

variable (cfg) in
/-- A request leaves the ring as it is, or takes a backend off it that is offline. -/
theorem ring_next_of_isRequest (e : Engine hashKey) {op : Op} (hop : op.isRequest = true) :
    ((machine hashKey cfg).next e op).ring = e.ring ∨
    ∃ s, e.isOnline s = false ∧
      ((machine hashKey cfg).next e op).ring = e.ring.removeServer s := by
  cases op with
  | request role rd ft payload =>
    have hring : ((machine hashKey cfg).next e (.request role rd ft payload)).ring = _ :=
      congrArg SessionSystem.ring (system_next cfg e (.request role rd ft payload))
    rw [hring, calls, dispatchCalls, forwardCalls]
    split_ifs with _ _ hf
    · exact .inl rfl
    · exact .inr ⟨_, hf.2, rfl⟩
    · exact .inl rfl
    · exact .inl rfl
  | _ => exact absurd hop (by simp [Op.isRequest])

/-! ### One request -/

/-- An engine that requests can heal: it has a backend online on its ring, and the ring would
still serve without any one server. -/
structure Healable (e : Engine hashKey) : Prop where
  serving : e.ring.Serving
  serving_removeServer : ∀ s ∈ e.ring.activeServers, (e.ring.removeServer s).Serving
  inRange : ∀ s ∈ e.ring.activeServers, e.InRange s
  id : ∀ s b, e.backend? s = some b → b.id = s
  online : ∃ s ∈ e.ring.activeServers, e.isOnline s = true

section Request

variable {e e' : Engine hashKey} {rd : Readings} {ft : FiveTuple} {status status' : RequestStatus}
  {s s' : ℤ}

/-- **The second try finds a server.** The failover from a crashed backend assigns another one
of the ring. -/
theorem Healable.failover (he : e.Healable) (hs : s ∈ e.ring.activeServers)
    (hoff : e.isOnline s = false) (hrecorded : ∃ entry,
      e.sessions.sessions[ft.toKey]? = some entry ∧ entry.blocked = false)
    (hf : e.failover rd ft s = (e', status', s')) :
    status' ≠ .serverDown ∧ s' ∈ (e.ring.removeServer s).activeServers := by
  obtain ⟨-, -, hrouted⟩ := routed_failover hf
  have hserving := he.serving_removeServer s hs
  have hdown : status' ≠ .serverDown := by
    rintro rfl
    obtain ⟨t, ht, hon⟩ := he.online
    have hne : t ≠ s := by
      rintro rfl
      exact absurd (hoff.symm.trans hon) (by simp)
    have hmem := (ConsistentHashRing.mem_activeServers_removeServer e.ring s).mpr ⟨hne, ht⟩
    exact absurd (hserving.getServer_nonneg hmem ft.toKey) (not_le.mpr (hrouted.getServer_neg rfl))
  have hblocked : status' ≠ .sessionBlocked := by
    rintro rfl
    obtain ⟨entry, hentry, hopen⟩ := hrecorded
    obtain ⟨entry', hentry', hbl⟩ := hrouted.exists_blocked rfl
    -- the sweep has not blocked the session
    have hswept : (e.evacuate rd.redistribute s).sessions.sessions[ft.toKey]? = _ :=
      e.sessions.sessions_handleServerDown (e.ring.removeServer s) rd.redistribute ft.toKey s
    rw [hentry, hentry', Option.map_some] at hswept
    rw [Option.some.inj hswept, SessionManager.redistribute_blocked, hopen] at hbl
    exact Bool.noConfusion hbl
  exact ⟨hdown, hrouted.mem_activeServers hserving.sound hblocked hdown⟩

/-- A request processed by the backend `s` is served by it. -/
theorem Healable.process_eq (he : e.Healable) {b : RequestHandler} (hb : e.backend? s = some b)
    (hon : b.online = true) {e₀ : Engine hashKey} :
    ∃ status' t n, e.isOnline t = true ∧
      (e₀.process rd ft status s b).2 = .served status' t (.processed t n) := by
  refine ⟨status, s, b.requestCount ft.toKey + 1, isOnline_eq_true_iff.mpr ⟨b, hb, hon⟩, ?_⟩
  rw [process_snd e₀ s hon, he.id s b hb]

/-- **Forwarding heals.** -/
theorem Forwarded.heals (he : e.Healable) {r : Engine hashKey × Response}
    (h : Forwarded e rd ft status s r) (hs : s ∈ e.ring.activeServers)
    (hrecorded : ∃ entry, e.sessions.sessions[ft.toKey]? = some entry ∧ entry.blocked = false) :
    (∃ status t n, e.isOnline t = true ∧ r.2 = .served status t (.processed t n)) ∨
    r.2.isSuccess = false ∧ 0 < r.1.offlineOnRing ∧ r.1.offlineOnRing < e.offlineOnRing := by
  cases h with
  | invalid hr => exact absurd (he.inRange s hs) hr
  | direct hr hb hon => exact .inl (he.process_eq hb hon)
  | lost hr hoff hf hlost =>
    obtain ⟨hdown, hmem⟩ := he.failover hs hoff hrecorded hf
    rcases hlost with hlost | hneg
    · exact absurd hlost hdown
    · exact absurd ((he.serving_removeServer s hs).nonneg _ hmem) (not_le.mpr hneg)
  | unavailable hr hoff hf hne hoff' =>
    obtain ⟨-, hmem⟩ := he.failover hs hoff hrecorded hf
    obtain ⟨hback, hring, -⟩ := routed_failover hf
    have hflags : flags _ = e.flags := congrArg (List.map _) hback
    refine .inr ⟨rfl, ?_, offlineOnRing_lt hflags hring hs hoff⟩
    rw [← hring] at hmem
    exact List.countP_pos_iff.mpr ⟨_, hmem, by simp [hoff']⟩
  | moved hr hoff hf hne hb hon =>
    obtain ⟨hback, -, -⟩ := routed_failover hf
    rw [backend?, hback] at hb
    exact .inl (he.process_eq hb hon)

end Request

/-- **Requests heal.** A request that should be served is served by a backend that is online,
or fails and leaves fewer crashed backends on the ring, but not none. -/
theorem Healable.request {e : Engine hashKey} (he : e.Healable) {op : Op}
    (hop : e.accepts cfg op = true) :
    (∃ status s n, e.isOnline s = true ∧
      (machine hashKey cfg).answer e op = .response (.served status s (.processed s n))) ∨
    0 < ((machine hashKey cfg).next e op).offlineOnRing ∧
      ((machine hashKey cfg).next e op).offlineOnRing < e.offlineOnRing := by
  cases op with
  | request role rd ft payload =>
    obtain ⟨hpass, hopen⟩ := of_decide_eq_true hop
    obtain ⟨security, limiter, hreq⟩ := handleRequest_of_admitted hpass
    have hrouted := e.sessions.routed_routeRequest e.ring rd.route ft (-1)
    have h := dispatched_dispatch { e with security, limiter } rd ft
    simp only [Machine.next, Machine.answer, machine, hreq]
    dsimp only at h
    generalize e.sessions.routeRequest e.ring rd.route ft (-1) = routed at h hrouted
    generalize dispatch { e with security, limiter } rd ft = r at h ⊢
    cases h with
    | blocked hb =>
      obtain ⟨entry, hentry, hbl⟩ := hrouted.exists_blocked hb
      rw [hentry] at hopen
      simp [hbl] at hopen
    | serverDown hd =>
      obtain ⟨t, ht, -⟩ := he.online
      have hchoice := he.serving.getServer_nonneg ht ft.toKey
      exact absurd hchoice (not_le.mpr (hrouted.getServer_neg hd))
    | forwarded hb hd hf =>
      obtain ⟨entry, hentry, hbl, -⟩ := hrouted.exists_entry hb hd
      have hactive := hrouted.mem_activeServers he.serving.sound hb hd
      have he' : Healable { e with security, limiter, sessions := routed.1 } :=
        ⟨he.serving, he.serving_removeServer, he.inRange, he.id, he.online⟩
      rcases Forwarded.heals he' hf hactive ⟨entry, hentry, hbl⟩ with
        ⟨status, t, n, hon, hserved⟩ | ⟨-, hpos, hlt⟩
      · exact .inl ⟨status, t, n, hon, congrArg Answer.response hserved⟩
      · exact .inr ⟨hpos, hlt⟩
  | _ => exact absurd hop (by simp [accepts])

variable (cfg) in
/-- No request makes matters worse. -/
theorem online_next_of_isRequest {e : Engine hashKey} {op : Op} (hop : op.isRequest = true) :
    (∀ s, ((machine hashKey cfg).next e op).isOnline s = e.isOnline s) ∧
    (∀ s ∈ e.ring.getActiveServers, e.isOnline s = true →
      s ∈ ((machine hashKey cfg).next e op).ring.getActiveServers) ∧
    ((machine hashKey cfg).next e op).offlineOnRing ≤ e.offlineOnRing := by
  have hflags : ((machine hashKey cfg).next e op).flags = e.flags := by
    cases op with
    | request role rd ft payload => exact e.flags_handleRequest cfg role rd ft payload
    | _ => exact absurd hop (by simp [Op.isRequest])
  refine ⟨isOnline_congr hflags, ?_⟩
  rcases e.ring_next_of_isRequest cfg hop with hring | ⟨a, hoff, hring⟩
  · refine ⟨fun s hs _ => hring ▸ hs, ?_⟩
    simp only [offlineOnRing, isOnline_congr hflags, hring, le_refl]
  · refine ⟨fun s hs hon => ?_, offlineOnRing_le hflags hring⟩
    rw [hring]
    refine (ConsistentHashRing.mem_activeServers_removeServer e.ring a).mpr ⟨?_, hs⟩
    rintro rfl
    exact absurd (hoff.symm.trans hon) (by simp)

/-! ### Runs of requests -/

theorem healable_afterOps (hV : 0 < cfg.consistentHashVnodes)
    (hsep : Separated hashKey cfg.consistentHashVnodes {s | 0 ≤ s ∧ s < cfg.numBackendServers})
    {ops : List Op} (honline : ∃ s ∈ (afterOps hashKey cfg ops).ring.getActiveServers,
      (afterOps hashKey cfg ops).isOnline s = true) :
    (afterOps hashKey cfg ops).Healable where
  serving := (placed_afterOps hsep ops).serving (by rwa [vnodesPerServer_afterOps])
    fun _ hs => hs.1
  serving_removeServer s hs :=
    ((placed_afterOps hsep ops).removeServer (inRange_of_mem_activeServers s hs)).serving
      (by rwa [ConsistentHashRing.removeServer_vnodesPerServer, vnodesPerServer_afterOps])
      fun _ hs => hs.1
  inRange _ := inRange_of_active
  id _ _ := id_of_backend?
  online := honline

/-- **Self-healing after crashes.** With a virtual node per server and no collisions between
backends, take any reachable engine with a backend online on its ring, and any requests from
there on. No request takes a backend off the ring that is online. Each one that passes
admission and whose session is not blocked is served by a backend that is online, or lowers
the number of crashed backends on the ring. And if there are `m` of these at the start, then at
most `m - 1` such requests fail, so none does when `m` is one. -/
theorem self_healing (hashKey : ByteString → UInt64) (cfg : Config)
    (hV : 0 < cfg.consistentHashVnodes)
    (hsep : Separated hashKey cfg.consistentHashVnodes {s | 0 ≤ s ∧ s < cfg.numBackendServers})
    (ops : List Op) (honline : ∃ s ∈ (afterOps hashKey cfg ops).ring.getActiveServers,
      (afterOps hashKey cfg ops).isOnline s = true)
    (requests : List Op) (hrequests : ∀ op ∈ requests, op.isRequest = true) :
    (machine hashKey cfg).Along (Heals cfg) (afterOps hashKey cfg ops) requests ∧
      failures cfg (afterOps hashKey cfg ops) requests ≤
        (afterOps hashKey cfg ops).offlineOnRing - 1 := by
  -- the engines of the run are reachable, and keep a backend online on the ring
  have hstep : ∀ e op, ((∃ ops, e = afterOps hashKey cfg ops) ∧
      ∃ s ∈ e.ring.getActiveServers, e.isOnline s = true) → op.isRequest = true →
      (∃ ops, (machine hashKey cfg).next e op = afterOps hashKey cfg ops) ∧
      ∃ s ∈ ((machine hashKey cfg).next e op).ring.getActiveServers,
        ((machine hashKey cfg).next e op).isOnline s = true := by
    rintro e op ⟨⟨ops, rfl⟩, s, hs, hon⟩ hop
    obtain ⟨hflags, hkeeps, -⟩ :=
      online_next_of_isRequest cfg (e := afterOps hashKey cfg ops) hop
    exact ⟨⟨ops ++ [op], (afterOps_concat cfg ops op).symm⟩, s, hkeeps s hs hon,
      (hflags s).trans hon⟩
  constructor
  · rw [Machine.along_iff_forall_prefix]
    intro pre op hpre
    have hop : op.isRequest = true := hrequests op (hpre.subset (by simp))
    obtain ⟨⟨ops', he⟩, honline'⟩ := (machine hashKey cfg).run_invariant_of_forall hstep
      ⟨⟨ops, rfl⟩, honline⟩ fun o ho => hrequests o (hpre.subset (List.mem_append_left _ ho))
    rw [he] at honline' ⊢
    refine ⟨(online_next_of_isRequest cfg hop).2.1, fun haccepts => ?_⟩
    exact ((healable_afterOps hV hsep honline').request haccepts).imp_right And.right
  · have hcount := (machine hashKey cfg).watch_invariant_of_forall
      (f := fun e op n => n + (e.fails cfg op).toNat)
      (I := fun e n => ((∃ ops, e = afterOps hashKey cfg ops) ∧
        ∃ s ∈ e.ring.getActiveServers, e.isOnline s = true) ∧
        n + (e.offlineOnRing - 1) ≤ (afterOps hashKey cfg ops).offlineOnRing - 1)
      (P := fun op => op.isRequest = true) (fun e n op ⟨he, hn⟩ hop => ⟨hstep e op he hop, ?_⟩)
      (s := afterOps hashKey cfg ops) (g := 0) ⟨⟨⟨ops, rfl⟩, honline⟩, by omega⟩ hrequests
    · exact le_trans (Nat.le_add_right _ _) hcount.2
    · obtain ⟨⟨ops', rfl⟩, honline'⟩ := he
      have hle := (online_next_of_isRequest cfg (e := afterOps hashKey cfg ops') hop).2.2
      cases hfails : (afterOps hashKey cfg ops').fails cfg op with
      | false =>
        rw [Bool.toNat_false]
        omega
      | true =>
        obtain ⟨haccepts, hanswer⟩ := Bool.and_eq_true_iff.mp hfails
        rcases (healable_afterOps hV hsep honline').request haccepts with
          ⟨status, s, k, -, hserved⟩ | ⟨hpos, hlt⟩
        · rw [hserved] at hanswer
          exact absurd hanswer (by simp [Answer.isSuccess, Response.isSuccess])
        · rw [Bool.toNat_true]
          omega

/-- One of two backends has crashed, and no client fails. -/
theorem self_healing_pair :
    (afterOps fnvHashKey .pair [.crash 0]).offlineOnRing = 1 ∧
    failures .pair (afterOps fnvHashKey .pair [.crash 0])
      [.request .primary (.at ⟨0, []⟩) clientTuple (bytes "hello"),
        .request .primary (.at ⟨1, []⟩) clientTuple (bytes "again")] = 0 := by
  have honline : ∃ s ∈ (afterOps fnvHashKey .pair [.crash 0]).ring.getActiveServers,
      (afterOps fnvHashKey .pair [.crash 0]).isOnline s = true := ⟨1, by decide, by decide⟩
  have hone : (afterOps fnvHashKey .pair [.crash 0]).offlineOnRing = 1 := by decide
  have hbound := (self_healing fnvHashKey .pair (by decide) separated_pair [.crash 0] honline
    [.request .primary (.at ⟨0, []⟩) clientTuple (bytes "hello"),
      .request .primary (.at ⟨1, []⟩) clientTuple (bytes "again")] (by simp [Op.isRequest])).2
  rw [hone] at hbound
  exact ⟨hone, Nat.le_zero.mp hbound⟩

end Engine

end SessionAffinity
