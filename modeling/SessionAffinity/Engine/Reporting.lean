import SessionAffinity.Engine.Invariants

/-!
# Reported failovers

A response says that a session has been moved by its status, which is the answer of the last
routing call. There are two ways to move a session. The failover of `routeRequest` answers
`REASSIGNED`. The failover of `handleRequest` sweeps the sessions of the offline backend before
it routes a second time, so that this call finds the session where the sweep has put it, or
makes a new one there, and answers `SUCCESS` (`failover_snd`): whenever the second try finds a
backend online, the move goes unreported (`reported_iff`).
-/

namespace SessionAffinity

namespace SessionManager

variable {hashKey : ByteString → UInt64}

/-- The backend that routing looks for first: that of a live session, while it is active, and
else the ring's choice. -/
def firstChoice (sm : SessionManager) (ring : ConsistentHashRing hashKey) (now : TimePoint)
    (key : ByteString) (entry : SessionEntry) : ℤ :=
  if sm.isExpired now entry = false ∧ entry.backendId ∈ ring.activeServers then entry.backendId
  else ring.getServer key

section Routing

variable {sm : SessionManager} {ring : ConsistentHashRing hashKey}
  (hnonneg : ∀ s ∈ ring.activeServers, 0 ≤ s) (clk : Clock) {ft : FiveTuple} (assigned : ℤ)
  {entry : SessionEntry} (he : sm.sessions[ft.toKey]? = some entry) (hb : entry.blocked = false)
include hnonneg he hb

/-- The answer of routing on an unblocked session. -/
theorem routeRequest_snd : (sm.routeRequest ring clk ft assigned).2 =
    if sm.firstChoice ring clk.steady ft.toKey entry < 0 then (.serverDown, assigned)
    else
      (if sm.isExpired clk.steady entry = false ∧ entry.backendId ∉ ring.activeServers then
        .reassigned else .success,
      sm.firstChoice ring clk.steady ft.toKey entry) := by
  cases hx : sm.isExpired clk.steady entry with
  | true =>
    rw [routeRequest_of_expired assigned he hb hx, routeRequest, sessions_drop_self]
    simp only [createSession, firstChoice, hx]
    split_ifs <;> simp_all
  | false =>
    by_cases ha : entry.backendId ∈ ring.activeServers
    · have hbackend := hnonneg _ ha
      rw [routeRequest_of_sticky ring clk assigned he hb hx ha]
      simp [firstChoice, hx, ha, not_lt.mpr hbackend]
    · rw [routeRequest_of_inactive ring clk assigned he hb hx ha]
      simp only [firstChoice, hx, ha]
      split_ifs <;> simp_all

/-- A session on the ring's choice, or an expired one, is routed to it as a success. -/
theorem routeRequest_snd_of_settled (hring : ring.Sound) (hchoice : 0 ≤ ring.getServer ft.toKey)
    (h : sm.isExpired clk.steady entry = true ∨ entry.backendId = ring.getServer ft.toKey) :
    (sm.routeRequest ring clk ft assigned).2 = (.success, ring.getServer ft.toKey) := by
  have hactive := hring.getServer_mem hchoice
  rw [routeRequest_snd hnonneg clk assigned he hb]
  rcases h with h | h
  · simp [firstChoice, h, not_lt.mpr hchoice]
  · simp [firstChoice, h, hactive, not_lt.mpr hchoice]

/-- A session on an inactive backend finds no server while the ring has no choice. -/
theorem routeRequest_snd_of_stranded (hchoice : ring.getServer ft.toKey < 0)
    (hoff : entry.backendId ∉ ring.activeServers) :
    (sm.routeRequest ring clk ft assigned).2 = (.serverDown, assigned) := by
  rw [routeRequest_snd hnonneg clk assigned he hb]
  simp [firstChoice, hoff, hchoice]

end Routing

/-- A session that is swept off an inactive backend is on the ring's choice, or expired, from
then on. -/
theorem settled_redistribute (sm : SessionManager) {ring : ConsistentHashRing hashKey}
    (hring : ring.Sound) {clk : Clock} {now : TimePoint} (hnow : clk.steady ≤ now)
    {key : ByteString} {entry : SessionEntry} (hoff : entry.backendId ∉ ring.activeServers)
    (hchoice : 0 ≤ ring.getServer key) :
    sm.isExpired now (sm.redistribute ring clk entry.backendId key entry) = true ∨
      (sm.redistribute ring clk entry.backendId key entry).backendId = ring.getServer key := by
  cases hx : sm.isExpired clk.steady entry with
  | true =>
    have hstays : sm.redistribute ring clk entry.backendId key entry = entry := by
      simp [redistribute, hx]
    rw [hstays]
    exact .inl (isExpired_mono hnow hx)
  | false =>
    have hactive := hring.getServer_mem hchoice
    have hne : ring.getServer key ≠ entry.backendId := fun h => hoff (h ▸ hactive)
    rw [redistribute_of_live sm ring clk key hx hchoice hne]
    exact .inr rfl

end SessionManager

namespace Engine

open SessionManager (firstChoice routeRequest_snd)

variable {hashKey : ByteString → UInt64} {cfg : Config}

/-- If a backend other than `b` has processed the request, the response is marked as
reassigned. -/
def Reported (b : ℤ) (response : Response) : Prop :=
  ∀ status assigned s n, response = .served status assigned (.processed s n) → s ≠ b →
    status = .reassigned

/-- The backend that the second try looks for, once `s` is off the ring. -/
def secondChoice (e : Engine hashKey) (s : ℤ) (key : ByteString) : ℤ :=
  (e.ring.removeServer s).getServer key

/-- A request that finds the session `entry` makes no silent move, given the backend it looks for
first: there is none; or that is online, and is where the session is, or the session is live; or
that is offline, and so is the one it looks for next, unless that is where the session is. -/
def NoSilentMove (e : Engine hashKey) (now : TimePoint) (key : ByteString) (entry : SessionEntry)
    (first : ℤ) : Prop :=
  first < 0 ∨
  (e.isOnline first = true ∧
    (e.sessions.isExpired now entry = false ∨ first = entry.backendId)) ∨
  (e.isOnline first = false ∧
    (e.isOnline (e.secondChoice first key) = true → e.secondChoice first key = entry.backendId))

instance (e : Engine hashKey) (now : TimePoint) (key : ByteString) (entry : SessionEntry)
    (first : ℤ) : Decidable (e.NoSilentMove now key entry first) :=
  inferInstanceAs (Decidable (_ ∨ _ ∨ _))

theorem reported_served_iff {b assigned s : ℤ} {n : ℕ} {status : RequestStatus} :
    Reported b (.served status assigned (.processed s n)) ↔ status = .reassigned ∨ s = b := by
  constructor
  · intro h
    by_cases hs : s = b
    · exact .inr hs
    · exact .inl (h status assigned s n rfl hs)
  · rintro (rfl | rfl) status' assigned' s' n' heq hne
    · cases heq
      rfl
    · cases heq
      exact absurd rfl hne

section Failover

variable {e : Engine hashKey} (hs : e.ring.Sound) (hnonneg : ∀ s ∈ e.ring.activeServers, 0 ≤ s)
  {rd : Readings} (hrd : rd.redistribute.steady ≤ rd.reroute.steady) {ft : FiveTuple}
  {entry : SessionEntry} (he : e.sessions.sessions[ft.toKey]? = some entry)
  (hb : entry.blocked = false)
include hs hnonneg hrd he hb

/-- **The second routing does not report.** It finds the session on the new backend, where the
sweep has put it, or finds it expired and makes a new one there. -/
theorem failover_snd : (e.failover rd ft entry.backendId).2 =
    if e.secondChoice entry.backendId ft.toKey < 0 then (.serverDown, entry.backendId)
    else (.success, e.secondChoice entry.backendId ft.toKey) := by
  have hactive : ∀ s ∈ (e.ring.removeServer entry.backendId).activeServers, 0 ≤ s := fun s h =>
    hnonneg s ((ConsistentHashRing.mem_activeServers_removeServer _ _).mp h).2
  have hoff : entry.backendId ∉ (e.ring.removeServer entry.backendId).activeServers := fun h =>
    ((ConsistentHashRing.mem_activeServers_removeServer _ _).mp h).1 rfl
  have hswept : (e.evacuate rd.redistribute entry.backendId).sessions.sessions[ft.toKey]? =
      some (e.sessions.redistribute (e.ring.removeServer entry.backendId) rd.redistribute
        entry.backendId ft.toKey entry) := by
    have h := e.sessions.sessions_handleServerDown (e.ring.removeServer entry.backendId)
      rd.redistribute ft.toKey entry.backendId
    rwa [he, Option.map_some] at h
  have hopen := (SessionManager.redistribute_blocked e.sessions
    (e.ring.removeServer entry.backendId) rd.redistribute ft.toKey entry.backendId entry).trans hb
  show (SessionManager.routeRequest _ (e.ring.removeServer entry.backendId) rd.reroute ft _).2 = _
  rw [secondChoice]
  split_ifs with hchoice
  · -- nothing is left on the ring, and the sweep changes nothing
    refine SessionManager.routeRequest_snd_of_stranded hactive rd.reroute entry.backendId hswept
      hopen hchoice ?_
    rwa [SessionManager.redistribute_of_neg _ _ _ _ hchoice]
  · refine SessionManager.routeRequest_snd_of_settled hactive rd.reroute entry.backendId hswept
      hopen (hs.removeServer _) (not_lt.mp hchoice) ?_
    exact e.sessions.settled_redistribute (hs.removeServer _) hrd hoff (not_lt.mp hchoice)

/-- **When forwarding reports**: a backend online reports what routing did, a second try does
not report. -/
theorem reported_forward_iff (hr : ∀ s ∈ e.ring.activeServers, e.InRange s)
    (hid : ∀ s b, e.backend? s = some b → b.id = s)
    (hactive : entry.backendId ∈ e.ring.activeServers) (b : ℤ) (status : RequestStatus) :
    Reported b (e.forward rd ft status entry.backendId).2 ↔
      (e.isOnline entry.backendId = true ∧ (status = .reassigned ∨ entry.backendId = b)) ∨
      (e.isOnline entry.backendId = false ∧
        (e.isOnline (e.secondChoice entry.backendId ft.toKey) = true →
          e.secondChoice entry.backendId ft.toKey = b)) := by
  have hsecond := failover_snd hs hnonneg hrd he hb
  have h := forwarded_forward e rd ft status entry.backendId
  generalize e.forward rd ft status entry.backendId = r at h ⊢
  cases h with
  | invalid hout => exact absurd (hr _ hactive) hout
  | @direct b' _ hb' hon =>
    have hon' : e.isOnline entry.backendId = true := isOnline_eq_true_iff.mpr ⟨b', hb', hon⟩
    rw [process_snd e _ hon, reported_served_iff, hid _ _ hb', hon']
    simp
  | lost _ hoff hf hlost =>
    rw [hf] at hsecond
    split_ifs at hsecond with hneg
    · simp [Reported, hoff, isOnline_of_neg hneg]
    · obtain ⟨rfl, rfl⟩ := Prod.mk.inj hsecond
      simp [hneg] at hlost
  | unavailable _ hoff hf hfound hoff' =>
    rw [hf] at hsecond
    split_ifs at hsecond with hneg
    · exact absurd (.inl (congrArg Prod.fst hsecond)) hfound
    · obtain ⟨rfl, rfl⟩ := Prod.mk.inj hsecond
      rw [isOnline_congr_backends (routed_failover hf).1] at hoff'
      simp [Reported, hoff, hoff']
  | @moved _ hoff e' _ _ b' hf hfound hb' hon =>
    rw [hf] at hsecond
    split_ifs at hsecond with hneg
    · exact absurd (.inl (congrArg Prod.fst hsecond)) hfound
    · obtain ⟨rfl, rfl⟩ := Prod.mk.inj hsecond
      rw [backend?, (routed_failover hf).1] at hb'
      have hon' : e.isOnline (e.secondChoice entry.backendId ft.toKey) = true :=
        isOnline_eq_true_iff.mpr ⟨b', hb', hon⟩
      rw [process_snd e' _ hon, reported_served_iff, hid _ _ hb', hoff, hon']
      simp

end Failover

/-- **When a routed request reports** the move of the session it finds. -/
theorem reported_dispatch_iff {e : Engine hashKey} (hs : e.ring.Sound)
    (hr : ∀ s ∈ e.ring.activeServers, e.InRange s)
    (hid : ∀ s b, e.backend? s = some b → b.id = s) {rd : Readings}
    (hrd : rd.redistribute.steady ≤ rd.reroute.steady) {ft : FiveTuple} {entry : SessionEntry}
    (he : e.sessions.sessions[ft.toKey]? = some entry) (hb : entry.blocked = false) :
    Reported entry.backendId (e.dispatch rd ft).2 ↔
      e.NoSilentMove rd.route.steady ft.toKey entry
        (e.sessions.firstChoice e.ring rd.route.steady ft.toKey entry) := by
  have hnonneg : ∀ s ∈ e.ring.activeServers, 0 ≤ s := fun s h => (hr s h).1
  have hfirst := routeRequest_snd hnonneg rd.route (-1) he hb
  have hrouted := e.sessions.routed_routeRequest e.ring rd.route ft (-1)
  rw [dispatch]
  generalize e.sessions.routeRequest e.ring rd.route ft (-1) = routed at hrouted hfirst ⊢
  by_cases hneg : e.sessions.firstChoice e.ring rd.route.steady ft.toKey entry < 0
  · rw [if_pos hneg] at hfirst
    have hdown : routed.2.1 = .serverDown := by rw [hfirst]
    refine iff_of_true ?_ (.inl hneg)
    simp [hdown, Reported]
  · rw [if_neg hneg] at hfirst
    have hblocked : routed.2.1 ≠ .sessionBlocked := by
      rw [hfirst]
      dsimp only
      split_ifs <;> simp
    have hdown : routed.2.1 ≠ .serverDown := by
      rw [hfirst]
      dsimp only
      split_ifs <;> simp
    obtain ⟨entry', he', hb', hid'⟩ := hrouted.exists_entry hblocked hdown
    have hactive := hrouted.mem_activeServers hs hblocked hdown
    have hassigned : routed.2.2 = e.sessions.firstChoice e.ring rd.route.steady ft.toKey entry := by
      rw [hfirst]
    -- forwarding starts from the session where the first routing has put it
    have hforward := reported_forward_iff (e := { e with sessions := routed.1 }) hs hnonneg hrd he'
      hb' hr hid (hid' ▸ hactive) entry.backendId routed.2.1
    rw [if_neg hblocked, if_neg hdown, ← hid', hforward, hid', hassigned, NoSilentMove,
      or_iff_right hneg]
    refine or_congr (and_congr_right fun _ => ?_) Iff.rfl
    have hstatus : routed.2.1 = .reassigned ↔
        e.sessions.isExpired rd.route.steady entry = false ∧
          entry.backendId ∉ e.ring.activeServers := by
      rw [hfirst]
      simp
    constructor
    · rintro (hmoved | hstays)
      · exact .inl (hstatus.mp hmoved).1
      · exact .inr hstays
    · rintro (hlive | hstays)
      · -- a live session is looked for on its own backend, or moved
        by_cases hmem : entry.backendId ∈ e.ring.activeServers
        · exact .inr (if_pos ⟨hlive, hmem⟩)
        · exact .inl (hstatus.mpr ⟨hlive, hmem⟩)
      · exact .inr hstays

/-- A refusal reports nothing and has nothing to report. -/
theorem reported_of_precheck {e : Engine hashKey} {role : LBRole} {rd : Readings} {ft : FiveTuple}
    {payload : ByteString} {response : Response}
    (h : (e.precheck cfg role rd ft payload).2 = some response) (b : ℤ) :
    Reported b response := by
  rcases refusal_of_precheck h with ⟨_, rfl⟩ | ⟨_, rfl⟩ | ⟨_, rfl⟩ <;> simp [Reported]

/-- **When failovers are reported.** After every run, crashes included, take a request whose key
has an unblocked session, expired or not, on backend `b`. If it is answered by another backend,
the response says that the session was reassigned, exactly when the request is refused before it
is routed or makes no silent move: the first routing finds no server, or a backend online which
is `b` or to which it has failed over, or the second try does not find another one online. -/
theorem reported_iff (hashKey : ByteString → UInt64) (cfg : Config) (ops : List Op) (role : LBRole)
    (rd : Readings) (ft : FiveTuple) (payload : ByteString) (entry : SessionEntry)
    (hrd : rd.redistribute.steady ≤ rd.reroute.steady)
    (he : (afterOps hashKey cfg ops).sessions.sessions[ft.toKey]? = some entry)
    (hb : entry.blocked = false) :
    Reported entry.backendId
        ((afterOps hashKey cfg ops).handleRequest cfg role rd ft payload).2 ↔
      ((afterOps hashKey cfg ops).precheck cfg role rd ft payload).2 ≠ none ∨
      (afterOps hashKey cfg ops).NoSilentMove rd.route.steady ft.toKey entry
        ((afterOps hashKey cfg ops).sessions.firstChoice (afterOps hashKey cfg ops).ring
          rd.route.steady ft.toKey entry) := by
  obtain ⟨security, limiter, ⟨response, hpass, h⟩ | ⟨hpass, h⟩⟩ :=
    (afterOps hashKey cfg ops).handleRequest_cases cfg role rd ft payload
  · rw [h]
    exact iff_of_true (reported_of_precheck hpass _) (.inl (by simp [hpass]))
  · rw [h, or_iff_right (by simp [hpass])]
    exact reported_dispatch_iff (e := { afterOps hashKey cfg ops with security, limiter })
      (sound_afterOps ops) (fun _ => inRange_of_active) (fun _ _ => id_of_backend?) hrd he hb

/-- A session on backend `0`, an outage of both backends and the return of backend `1`. -/
def outage : List Op :=
  [.request .primary (.at ⟨0, []⟩) clientTuple (bytes "hello"), .takeBackendOffline ⟨0, []⟩ 1,
    .takeBackendOffline ⟨0, []⟩ 0, .bringBackendOnline 1]

/-- The outage leaves the session on backend `0`; the request that moves it reports the move. -/
theorem reported_after_outage : ∃ entry,
    (afterOps fnvHashKey .pair outage).sessions.sessions[clientTuple.toKey]? = some entry ∧
      entry.backendId = 0 ∧
      Reported entry.backendId ((afterOps fnvHashKey .pair outage).handleRequest .pair .primary
        (.at ⟨0, []⟩) clientTuple (bytes "again")).2 := by
  have hentry : ((afterOps fnvHashKey .pair outage).sessions.sessions[clientTuple.toKey]?).any
      (fun entry => entry.backendId = 0 ∧ entry.blocked = false ∧
        (afterOps fnvHashKey .pair outage).NoSilentMove 0 clientTuple.toKey entry
          ((afterOps fnvHashKey .pair outage).sessions.firstChoice
            (afterOps fnvHashKey .pair outage).ring 0 clientTuple.toKey entry)) = true := by
    decide +kernel
  obtain ⟨entry, he, hany⟩ := (Option.any_eq_true _ _).mp hentry
  obtain ⟨hbackend, hb, hmove⟩ := of_decide_eq_true hany
  exact ⟨entry, he, hbackend, (reported_iff fnvHashKey .pair outage .primary (.at ⟨0, []⟩)
    clientTuple (bytes "again") entry (le_refl _) he hb).mpr (.inr hmove)⟩

/-- A session on backend `0`, and the crash of that backend. -/
def crashed : List Op :=
  [.request .primary (.at ⟨0, []⟩) clientTuple (bytes "hello"), .crash 0]

/-- **The second try moves a session silently.** The live session of the next request is on the
crashed backend `0`; backend `1` answers, and the status is `SUCCESS`. -/
theorem second_try_unreported :
    ((afterOps fnvHashKey .pair crashed).sessions.sessions[clientTuple.toKey]?).any
      (fun entry => entry.backendId = 0 ∧ entry.blocked = false ∧
        (afterOps fnvHashKey .pair crashed).sessions.isExpired 1 entry = false) = true ∧
    ((afterOps fnvHashKey .pair crashed).handleRequest .pair .primary (.at ⟨1, []⟩) clientTuple
      (bytes "again")).2 = .served .success 1 (.processed 1 1) ∧
    ¬Reported 0 ((afterOps fnvHashKey .pair crashed).handleRequest .pair .primary (.at ⟨1, []⟩)
      clientTuple (bytes "again")).2 := by
  have hanswer : ((afterOps fnvHashKey .pair crashed).handleRequest .pair .primary (.at ⟨1, []⟩)
      clientTuple (bytes "again")).2 = .served .success 1 (.processed 1 1) := by
    decide +kernel
  refine ⟨by decide +kernel, hanswer, ?_⟩
  rw [hanswer, reported_served_iff]
  decide

end Engine

end SessionAffinity
