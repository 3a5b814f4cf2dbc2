import SessionAffinity.Concurrent.Updates

/-!
# Sessions stay under concurrent calls

A session that is on an online backend of the ring stays there as long as it does not expire and
nobody asks for it to be moved: whatever requests, failovers, outages and recoveries of other
backends the threads are in the middle of, and in whatever order they go on. `Pinned` is what
every event keeps, and `session_stays` says what the clients see of it: requests of the session are
answered by the backend, unless one of the first three steps refuses them.

A thread may be half way through a call when the session is looked at. Whether it leaves the session
alone is read off its position (`Pc.Calm`), which excludes three things: that it has decided to move
the session, that it is taking the backend off the ring, and that it carries a request of the
session which was routed before, to another backend. That one would still be answered from there,
or set off the failover of the other backend.
-/

namespace SessionAffinity

namespace Concurrent

variable {hashKey : ByteString → UInt64} {ι : Type*} {cfg : Config} {k : ByteString} {b : ℤ}

/-! ### Threads that leave the session alone -/

/-- `routeRequest` is not about to move the session, or to make a new one. -/
def Routing.Calm : Routing → Prop
  | failover _ _ | storeFailover _ _ _ | create _ | storeNew _ _ => False
  | _ => True

/-- `handleServerDown` is not about to move the session of the key. -/
def Sweep.Calm (k : ByteString) : Sweep → Prop
  | choose key _ _ | store key _ _ _ => key ≠ k
  | _ => True

/-- The thread does not go about moving the session of key `k`, nor about taking backend `b`
offline, and it holds no request of the session that has been routed to another backend. -/
def Pc.Calm (k : ByteString) (b : ℤ) : Pc → Prop
  | routeRequest r _ _ s => r.ft.toKey = k → s.Calm
  | checkOnline r _ _ assigned | process r _ assigned => r.ft.toKey = k → assigned = b
  | evict _ serverId | stop serverId | retire serverId => serverId ≠ b
  | handleServerDown serverId _ s => serverId ≠ b ∧ s.Calm k
  | forceReassign key _ => key ≠ k
  | _ => True

instance : DecidablePred Routing.Calm
  | .failover _ _ | .storeFailover _ _ _ | .create _ | .storeNew _ _ => isFalse id
  | .enter | .find _ | .checkAlive _ _ | .storeSticky _ _ => isTrue trivial

instance : DecidablePred (Sweep.Calm k)
  | .choose key _ _ | .store key _ _ _ => inferInstanceAs (Decidable (key ≠ k))
  | .enter | .scan _ => isTrue trivial

instance : DecidablePred (Pc.Calm k b)
  | .routeRequest r _ _ s => inferInstanceAs (Decidable (r.ft.toKey = k → s.Calm))
  | .checkOnline r _ _ assigned | .process r _ assigned =>
    inferInstanceAs (Decidable (r.ft.toKey = k → assigned = b))
  | .evict _ serverId | .stop serverId | .retire serverId =>
    inferInstanceAs (Decidable (serverId ≠ b))
  | .handleServerDown serverId _ s => inferInstanceAs (Decidable (serverId ≠ b ∧ s.Calm k))
  | .forceReassign key _ => inferInstanceAs (Decidable (key ≠ k))
  | .idle | .checkActive _ | .validate _ | .limit _ | .start _ | .restore _ => isTrue trivial

/-- The request that a thread handles. -/
def Pc.request? : Pc → Option Request
  | checkActive r | validate r | limit r | routeRequest r _ _ _ | checkOnline r _ _ _ | evict r _
  | process r _ _ | handleServerDown _ (some r) _ => some r
  | _ => none

/-- A refusal by steps 1 to 3, or an answer of the backend. -/
def AnsweredBy (b : ℤ) : Engine.Answer → Prop
  | .response (.notActive _) | .response (.securityFailed _) | .response (.rateLimited _) => True
  | .response (.served _ assigned (.processed _ _)) => assigned = b
  | _ => False

/-- The call does not ask for the session to be moved. -/
def Harmless (k : ByteString) (b : ℤ) : Event ι → Prop
  | .invoke _ (.takeBackendOffline serverId) => serverId ≠ b
  | .invoke _ (.forceReassign key) => key ≠ k
  | _ => True

instance : DecidablePred (Harmless k b : Event ι → Prop)
  | .invoke _ (.takeBackendOffline serverId) => inferInstanceAs (Decidable (serverId ≠ b))
  | .invoke _ (.forceReassign key) => inferInstanceAs (Decidable (key ≠ k))
  | .invoke _ (.handleRequest _) | .invoke _ (.bringBackendOnline _) | .resume _ _ | .tick _ =>
    isTrue trivial

/-! ### One step of a critical section -/

section Sections

variable {sm : SessionManager} {ring : ConsistentHashRing hashKey} {clk : Clock}
  {entry : SessionEntry}

/-- A calm `routeRequest` of a live session on an active backend finds that backend. -/
theorem Routing.calm_step {ft : FiveTuple} (assigned : ℤ) {s : Routing}
    (he : sm.sessions[ft.toKey]? = some entry) (hb : entry.blocked = false)
    (hx : sm.isExpired clk.steady entry = false) (ha : entry.backendId ∈ ring.activeServers)
    (hfresh : s.Fresh sm clk.steady ft.toKey) (hcalm : s.Calm) :
    (∃ s', s.step sm ring clk ft assigned = (sm, .inl s') ∧ s'.Calm) ∨
      ∃ now, s.step sm ring clk ft assigned =
        (sm.put ft.toKey { entry with lastAccess := now }, .inr (.success, entry.backendId)) := by
  cases s with
  | enter => exact .inl ⟨_, rfl, trivial⟩
  | find now =>
    refine .inl ⟨.checkAlive now entry, ?_, trivial⟩
    simp [step, he, hb, hx]
  | checkAlive now entry' =>
    obtain rfl := Option.some.inj (he.symm.trans hfresh.2.2)
    refine .inl ⟨.storeSticky now entry, ?_, trivial⟩
    simp [step, ConsistentHashRing.getActiveServers, ha]
  | storeSticky now entry' =>
    obtain rfl := Option.some.inj (he.symm.trans hfresh.2.2)
    exact .inr ⟨now, rfl⟩
  | failover | storeFailover | create | storeNew => exact absurd hcalm id

/-- `routeRequest` leaves the sessions of other tuples. -/
theorem Routing.sessions_step_of_ne {ft : FiveTuple} {assigned : ℤ} (s : Routing)
    (hk : ft.toKey ≠ k) : (s.step sm ring clk ft assigned).1.sessions[k]? = sm.sessions[k]? := by
  cases s with
  | find now =>
    rw [step]
    split
    · split_ifs
      · rfl
      · exact SessionManager.sessions_drop_of_ne sm _ hk
      · rfl
    · rfl
  | storeSticky | storeFailover | storeNew => exact SessionManager.sessions_put_of_ne sm _ hk _
  | checkAlive | failover | create =>
    simp only [step]
    split_ifs <;> rfl
  | enter => rfl

variable (ring clk) in
/-- A calm `handleServerDown` passes over a session on another backend. -/
theorem Sweep.calm_step (order : List ByteString) {serverId : ℤ} {s : Sweep}
    (he : sm.sessions[k]? = some entry) (hne : serverId ≠ entry.backendId) (hcalm : s.Calm k) :
    (s.step sm ring clk order serverId).1.sessions[k]? = some entry ∧
      ∀ s', (s.step sm ring clk order serverId).2 = some s' → s'.Calm k := by
  cases s with
  | enter =>
    simp only [step]
    refine ⟨he, fun s' hs' => ?_⟩
    split_ifs at hs' <;> obtain rfl := Option.some.inj hs' <;> trivial
  | scan todo =>
    cases todo with
    | nil => exact ⟨he, fun s' hs' => absurd hs' (by simp [step])⟩
    | cons key todo =>
      rw [step]
      split
      · rename_i entry' he'
        split_ifs with hmove <;> refine ⟨he, fun s' hs' => ?_⟩ <;> obtain rfl := Option.some.inj hs'
        · rintro rfl
          obtain rfl := Option.some.inj (he.symm.trans he')
          exact hne hmove.1.symm
        · trivial
      · refine ⟨he, fun s' hs' => ?_⟩
        obtain rfl := Option.some.inj hs'
        trivial
  | choose key entry' todo =>
    simp only [step]
    split_ifs <;> refine ⟨he, fun s' hs' => ?_⟩ <;> obtain rfl := Option.some.inj hs'
    · exact hcalm
    · trivial
  | store key entry' backend todo =>
    refine ⟨(SessionManager.sessions_put_of_ne sm _ hcalm _).trans he, fun s' hs' => ?_⟩
    obtain rfl := Option.some.inj hs'
    trivial

/-- `forceReassign` leaves the sessions of other keys. -/
theorem Forcing.sessions_step_of_ne {key : ByteString} (s : Forcing) (hk : key ≠ k) :
    (s.step sm ring clk key).1.sessions[k]? = sm.sessions[k]? := by
  cases s with
  | find =>
    rw [step]
    split <;> rfl
  | store => exact SessionManager.sessions_put_of_ne sm _ hk _
  | choose | pickOther =>
    simp only [step]
    split_ifs <;> rfl
  | enter => rfl

end Sections

/-! ### One step of a thread -/

/-- The session of key `k` is on backend `b`, which is online and on the ring. -/
structure OnBackend (e : Engine hashKey) (k : ByteString) (b : ℤ) (entry : SessionEntry) :
    Prop where
  inRange : e.InRange b
  online : e.isOnline b = true
  active : b ∈ e.ring.activeServers
  session : e.sessions.sessions[k]? = some entry
  blocked : entry.blocked = false
  backend : entry.backendId = b

namespace Pc

theorem calm_afterRouting {r : Request} (again : Bool) (status : RequestStatus) {assigned : ℤ}
    (h : r.ft.toKey = k → assigned = b) : (afterRouting r again status assigned).1.Calm k b := by
  rw [afterRouting]
  split_ifs
  · trivial
  · exact h
  · trivial
  · trivial
  · exact h

section Step

variable {e : Engine hashKey} (clk : Clock) {entry : SessionEntry} (h : OnBackend e k b entry)
  (hx : e.sessions.isExpired clk.steady entry = false) (cfg : Config) (order : List ByteString)
  {p : Pc} (hfresh : p.Fresh e.sessions clk.steady) (hcalm : p.Calm k b)
include h hcalm

/-- A calm thread outside the calls of the session manager stays calm: it finds the backend
online. -/
theorem calm_step_of_outside (hp : p.inSession = false) :
    (p.step cfg e clk order).2.1.Calm k b := by
  cases p with
  | idle | start | restore => trivial
  | checkActive r | validate r =>
    simp only [step]
    split <;> trivial
  | limit r =>
    simp only [step]
    split_ifs
    · exact fun _ => trivial
    · trivial
  | checkOnline r again status assigned =>
    simp only [step]
    split_ifs with hr hon
    · trivial
    · exact hcalm
    · trivial
    · rintro rfl
      exact hon h.online
  | evict r serverId | retire serverId => exact ⟨hcalm, trivial⟩
  | process r status assigned =>
    rw [step]
    cases e.backend? assigned <;> trivial
  | stop serverId => exact hcalm
  | routeRequest | handleServerDown | forceReassign => exact absurd hp (by simp [inSession])

include hx hfresh

/-- **A calm step** leaves the session on its backend and the thread calm. -/
theorem calm_step :
    (∃ entry', (p.step cfg e clk order).1.sessions.sessions[k]? = some entry' ∧
      entry'.blocked = false ∧ entry'.backendId = b ∧ entry'.pathHistory = entry.pathHistory) ∧
    (p.step cfg e clk order).2.1.Calm k b := by
  by_cases hp : p.inSession = false
  · rw [sessions_step cfg e clk order hp]
    exact ⟨⟨entry, h.session, h.blocked, h.backend, rfl⟩,
      calm_step_of_outside clk h cfg order hcalm hp⟩
  obtain ⟨-, -, ha, he, hb, rfl⟩ := h
  cases p with
  | routeRequest r again assigned s =>
    by_cases hk : r.ft.toKey = k
    · subst hk
      rcases Routing.calm_step assigned he hb hx ha hfresh (hcalm rfl) with
        ⟨s', hs', hcalm'⟩ | ⟨now, hs'⟩
      · simp only [step, hs']
        exact ⟨⟨entry, he, hb, rfl, rfl⟩, fun _ => hcalm'⟩
      · simp only [step, hs']
        exact ⟨⟨_, SessionManager.sessions_put_self _ _ _, hb, rfl, rfl⟩,
          calm_afterRouting again .success fun _ => rfl⟩
    · refine ⟨⟨entry, (s.sessions_step_of_ne hk).trans he, hb, rfl, rfl⟩, ?_⟩
      simp only [step]
      split
      · exact fun hk' => absurd hk' hk
      · exact calm_afterRouting again _ fun hk' => absurd hk' hk
  | handleServerDown serverId r s =>
    obtain ⟨he', hnext⟩ := Sweep.calm_step e.ring clk order he hcalm.1 hcalm.2
    refine ⟨⟨entry, he', hb, rfl, rfl⟩, ?_⟩
    simp only [step]
    cases hstep : (s.step e.sessions e.ring clk order serverId).2 with
    | some s' => exact ⟨hcalm.1, hnext s' hstep⟩
    | none =>
      cases r with
      | none => trivial
      | some r => exact fun _ => trivial
  | forceReassign key s =>
    refine ⟨⟨entry, (s.sessions_step_of_ne hcalm).trans he, hb, rfl, rfl⟩, ?_⟩
    simp only [step]
    split
    · exact hcalm
    · trivial
  | _ => exact absurd rfl hp

/-- **The answer of a calm thread** that handles a request of the session comes from the
backend. -/
theorem answered_step {r : Request} (hr : p.request? = some r) (hk : r.ft.toKey = k)
    {a : Engine.Answer} (ha : (p.step cfg e clk order).2.2 = some a) : AnsweredBy b a := by
  cases p with
  | checkActive r' | limit r' =>
    simp only [step] at ha
    split_ifs at ha
    obtain rfl := Option.some.inj ha
    trivial
  | validate r' =>
    simp only [step] at ha
    split at ha
    · obtain rfl := Option.some.inj ha
      trivial
    · exact absurd ha (by simp)
  | routeRequest r' again assigned s =>
    obtain rfl := Option.some.inj hr
    obtain ⟨hrange, -, hact, he, hb, rfl⟩ := h
    subst hk
    rcases Routing.calm_step assigned he hb hx hact hfresh (hcalm rfl) with
      ⟨s', hs', -⟩ | ⟨now, hs'⟩
    · exact absurd ha (by simp [step, hs'])
    · have hnonneg : ¬ entry.backendId < 0 := not_lt.mpr hrange.1
      cases again <;> exact absurd ha (by simp [step, hs', afterRouting, hnonneg])
  | checkOnline r' again status assigned =>
    obtain rfl := Option.some.inj hr
    obtain rfl := hcalm hk
    exact absurd ha (by simp [step, h.inRange, h.online])
  | process r' status assigned =>
    obtain rfl := Option.some.inj hr
    obtain rfl := hcalm hk
    obtain ⟨backend, hbackend, hon⟩ := Engine.isOnline_eq_true_iff.mp h.online
    simp only [step, hbackend, Engine.process_snd e assigned hon] at ha
    obtain rfl := Option.some.inj ha
    rfl
  | handleServerDown serverId r' s =>
    simp only [step] at ha
    cases r' with
    | none => exact absurd hr (by simp [request?])
    | some r' => split at ha <;> exact absurd ha (by simp_all)
  | evict r' serverId => exact absurd ha (by simp [step])
  | idle | stop | retire | start | restore | forceReassign =>
    exact absurd hr (by simp [request?])

omit hx hfresh

/-- A calm step leaves the backend on the ring. -/
theorem active_step : b ∈ (p.step cfg e clk order).1.ring.activeServers := by
  rw [ring_step]
  cases p with
  | evict r serverId | retire serverId =>
    exact (ConsistentHashRing.mem_activeServers_removeServer _ _).mpr ⟨Ne.symm hcalm, h.active⟩
  | restore serverId =>
    exact (ConsistentHashRing.mem_activeServers_addServer _ _).mpr (.inr h.active)
  | _ => exact h.active

/-- A calm step leaves the backend online. -/
theorem online_step (htarget : ∀ s, p.target? = some s → e.InRange s) :
    (p.step cfg e clk order).1.isOnline b = true := by
  by_cases hstop : ∃ y, p = stop y
  · obtain ⟨y, rfl⟩ := hstop
    rw [isOnline_step_stop cfg clk order (htarget y rfl), if_neg (Ne.symm hcalm)]
    exact h.online
  by_cases hstart : ∃ y, p = start y
  · obtain ⟨y, rfl⟩ := hstart
    rw [isOnline_step_start cfg clk order (htarget y rfl), h.online, ite_self]
  · rw [isOnline_step cfg e clk order (fun y hy => hstop ⟨y, hy⟩) fun y hy => hstart ⟨y, hy⟩]
    exact h.online

end Step

end Pc

/-! ### Runs -/

/-- **The session is pinned to the backend**: it is on it, with the history it had, and no thread
goes about moving it. -/
structure Pinned (k : ByteString) (b : ℤ) (history : List PathHistoryEntry) (t : World hashKey ι) :
    Prop where
  onBackend : ∃ entry, OnBackend t.shared.engine k b entry ∧ entry.pathHistory = history
  calm (i : ι) : (t.pc i).Calm k b

section Runs

variable [DecidableEq ι] {R : ℤ → Prop} {history : List PathHistoryEntry} {t : World hashKey ι}

/-- **Every harmless event keeps the session pinned.** -/
theorem Pinned.next (h : Pinned k b history t) (hguard : Guarded t) (haim : Aimed R t)
    (hlive : Unexpired k t) {ev : Event ι} (hev : Harmless k b ev) :
    Pinned k b history ((machine hashKey cfg ι).next t ev) := by
  obtain ⟨entry, hon, hhist⟩ := h.onBackend
  cases ev with
  | tick d => exact ⟨⟨entry, hon, hhist⟩, h.calm⟩
  | invoke i call =>
    rw [Script.next_invoke]
    split_ifs with hidle
    · refine ⟨⟨entry, hon, hhist⟩, Threads.forall_advance (Q := Pc.Calm k b) h.calm ?_⟩
      show (call.start t.shared.engine).1.Calm k b
      cases call with
      | handleRequest r => trivial
      | forceReassign key => exact hev
      | takeBackendOffline serverId =>
        rw [Call.start]
        split_ifs
        · exact hev
        · trivial
      | bringBackendOnline serverId =>
        rw [Call.start]
        split_ifs <;> trivial
    · exact h
  | resume i x =>
    rw [Script.next_resume]
    split_ifs
    · exact h
    obtain ⟨⟨entry', he', hb', rfl, hhist'⟩, hcalm⟩ := Pc.calm_step ⟨t.shared.now, x.wall⟩
      hon (hlive entry hon.session) cfg x.order (hguard.fresh i) (h.calm i)
    refine ⟨⟨entry', ⟨?_, ?_, ?_, he', hb', rfl⟩, hhist'.trans hhist⟩,
      Threads.forall_advance (Q := Pc.Calm k _) h.calm hcalm⟩
    · exact ((t.pc i).inRange_step ..).mpr hon.inRange
    · exact Pc.online_step _ hon cfg x.order (h.calm i) fun s hs =>
        (haim.inRange s).mpr (haim.target hs)
    · exact Pc.active_step _ hon cfg x.order (h.calm i)

/-- An answer to a request of the session is a refusal by steps 1 to 3, or the backend's. -/
def AnsweredHere (cfg : Config) (k : ByteString) (b : ℤ) (t : World hashKey ι) :
    Event ι → Prop
  | .resume i x => ∀ r, (t.pc i).request? = some r → r.ft.toKey = k →
    ∀ a, (machine hashKey cfg ι).answer t (.resume i x) = some a → AnsweredBy b a
  | _ => True

theorem Pinned.answered (h : Pinned k b history t) (hguard : Guarded t) (hlive : Unexpired k t)
    (ev : Event ι) : AnsweredHere cfg k b t ev := by
  obtain ⟨entry, hon, -⟩ := h.onBackend
  cases ev with
  | tick | invoke => trivial
  | resume i x =>
    intro r hr hk a ha
    rw [Script.answer_resume] at ha
    split_ifs at ha
    exact Pc.answered_step ⟨t.shared.now, x.wall⟩ hon (hlive entry hon.session) cfg x.order
      (hguard.fresh i) (h.calm i) hr hk ha

end Runs

/-- A request is about to be answered by backend 0 while backend 1 is being taken offline. -/
def onDuty : List (Event Bool) :=
  [.invoke true (.handleRequest ⟨.primary, clientTuple, bytes "hello"⟩),
    .invoke false (.takeBackendOffline 1)] ++ List.replicate 7 (go true) ++ [go false]

/-- The threads after that run. -/
def onDutyWorld : World fnvHashKey Bool :=
  (machine fnvHashKey .pair Bool).run (.quiet Bool (.init fnvHashKey .pair) 0) onDuty

/-- The outage goes on, and the client makes another request. -/
def oneMore : List (Event Bool) :=
  [go false, go true, .resume false ⟨[], [clientTuple.toKey]⟩, go true,
    .invoke true (.handleRequest ⟨.primary, clientTuple, bytes "again"⟩)] ++
    (List.range 16).map fun j => go (j % 2 == 1)

end Concurrent

end SessionAffinity
