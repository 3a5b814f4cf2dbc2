import SessionAffinity.Concurrent
import SessionAffinity.Engine.Availability

/-!
# No session is stranded under concurrent calls

Ring and session table have separate locks, so a critical section that has looked a backend up
may record it after the backend has left the ring. What saves the session is the sweep: the
thread that removed the backend has yet to run it, and cannot start it before the section is
over.

So the backend of every unexpired session is on the ring, or a sweep for that backend is still
to reach the session, and the backend that a section is about to record is on the ring, or a
sweep for it waits for the lock (`Covered`). Every step keeps that, as long as the lookups of
the sections find a backend, and `no_session_stranded` reads it off when no sweep is left.
-/

namespace SessionAffinity

namespace Concurrent

open ConsistentHashRing (mem_activeServers_addServer mem_activeServers_removeServer)

variable {hashKey : ByteString → UInt64} {ι : Type*} {cfg : Config}

/-! ### What a critical section is about to record -/

/-- The backend that `routeRequest` is about to record. -/
def Routing.chosen? : Routing → Option ℤ
  | storeSticky _ entry => some entry.backendId
  | storeFailover _ _ backend | storeNew _ backend => some backend
  | _ => none

/-- The backend that `handleServerDown` is about to record. -/
def Sweep.chosen? : Sweep → Option ℤ
  | store _ _ backend _ => some backend
  | _ => none

/-- The backend that `forceReassign` is about to record. -/
def Forcing.chosen? : Forcing → Option ℤ
  | pickOther _ backend | store _ backend => some backend
  | _ => none

/-- The sweep has yet to deal with the session of a key. -/
def Sweep.Todo (key : ByteString) : Sweep → Prop
  | enter => True
  | scan todo => key ∈ todo
  | choose k _ todo | store k _ _ todo => key ∈ k :: todo

namespace Pc

/-- The backend that a thread is about to record. -/
def chosen? : Pc → Option ℤ
  | routeRequest _ _ _ s => s.chosen?
  | handleServerDown _ _ s => s.chosen?
  | forceReassign _ s => s.chosen?
  | _ => none

/-- The thread has removed the backend and waits for the lock to sweep its sessions. -/
def Awaits (s : ℤ) (p : Pc) : Prop := ∃ r, p = handleServerDown s r .enter

/-- The thread has removed the backend, and its sweep has yet to deal with the session. -/
def Covers (s : ℤ) (key : ByteString) (p : Pc) : Prop :=
  ∃ r w, p = handleServerDown s r w ∧ w.Todo key

/-- The thread has removed a backend, and its sweep is not over. -/
def isSweeping : Pc → Bool
  | handleServerDown _ _ _ => true
  | _ => false

end Pc

/-! ### One step of a critical section -/

section Sections

variable {sm : SessionManager} {ring : ConsistentHashRing hashKey} {clk : Clock} {ft : FiveTuple}
  {assigned : ℤ}

/-- What a section leaves in the table was there, or has the backend it was to record. -/
structure Records (sm sm' : SessionManager) (chosen : Option ℤ) : Prop where
  timeout : sm'.defaultTimeoutSec = sm.defaultTimeoutSec
  recorded {key : ByteString} {entry : SessionEntry} : sm'.sessions[key]? = some entry →
    sm.sessions[key]? = some entry ∨ chosen = some entry.backendId

theorem records_self (sm : SessionManager) (chosen : Option ℤ) : Records sm sm chosen :=
  ⟨rfl, .inl⟩

theorem records_put (sm : SessionManager) (key : ByteString) (entry : SessionEntry) :
    Records sm (sm.put key entry) (some entry.backendId) := by
  refine ⟨rfl, fun {k entry'} h => ?_⟩
  rcases eq_or_ne key k with rfl | hk
  · rw [SessionManager.sessions_put_self] at h
    exact .inr (Option.some.inj h ▸ rfl)
  · rw [SessionManager.sessions_put_of_ne sm key hk] at h
    exact .inl h

theorem records_drop (sm : SessionManager) (key : ByteString) (chosen : Option ℤ) :
    Records sm (sm.drop key) chosen := by
  refine ⟨rfl, fun {k entry'} h => .inl ?_⟩
  rcases eq_or_ne key k with rfl | hk
  · exact absurd h (by simp)
  · rwa [SessionManager.sessions_drop_of_ne sm key hk] at h

theorem Routing.records_step (s : Routing) :
    Records sm (s.step sm ring clk ft assigned).1 s.chosen? := by
  cases s with
  | find now =>
    rw [step]
    split
    · split_ifs
      · exact records_self sm _
      · exact records_drop sm _ _
      · exact records_self sm _
    · exact records_self sm _
  | storeSticky | storeFailover | storeNew => exact records_put sm _ _
  | checkAlive | failover | create =>
    simp only [step]
    split_ifs <;> exact records_self sm _
  | enter => exact records_self sm _

theorem Sweep.records_step (s : Sweep) (order : List ByteString) (serverId : ℤ) :
    Records sm (s.step sm ring clk order serverId).1 s.chosen? := by
  cases s with
  | scan todo =>
    cases todo with
    | nil => exact records_self sm _
    | cons key todo =>
      rw [step]
      split
      · split_ifs <;> exact records_self sm _
      · exact records_self sm _
  | choose key entry todo =>
    simp only [step]
    split_ifs <;> exact records_self sm _
  | enter => exact records_self sm _
  | store => exact records_put sm _ _

theorem Forcing.records_step (s : Forcing) (key : ByteString) :
    Records sm (s.step sm ring clk key).1 s.chosen? := by
  cases s with
  | find =>
    rw [step]
    split <;> exact records_self sm _
  | store => exact records_put sm _ _
  | choose | pickOther =>
    simp only [step]
    split_ifs <;> exact records_self sm _
  | enter => exact records_self sm _

/-- Every lookup finds an active server. -/
def Finds (ring : ConsistentHashRing hashKey) : Prop :=
  ∀ key, 0 ≤ ring.getServer key ∧ ring.getServer key ∈ ring.activeServers

/-- `routeRequest` chooses active servers. -/
theorem Routing.chosen?_step (hfind : Finds ring) {s s' : Routing}
    (hs : (s.step sm ring clk ft assigned).2 = .inl s') {b : ℤ} (hb : s'.chosen? = some b) :
    s.chosen? = some b ∨ b ∈ ring.activeServers := by
  cases s with
  | enter =>
    obtain rfl := Sum.inl.inj hs
    exact absurd hb (by simp [chosen?])
  | find now =>
    rw [step] at hs
    split at hs
    · split_ifs at hs
      · obtain rfl := Sum.inl.inj hs
        exact absurd hb (by simp [chosen?])
      · obtain rfl := Sum.inl.inj hs
        exact absurd hb (by simp [chosen?])
    · obtain rfl := Sum.inl.inj hs
      exact absurd hb (by simp [chosen?])
  | checkAlive now entry =>
    simp only [step] at hs
    split_ifs at hs with hact
    · obtain rfl := Sum.inl.inj hs
      exact .inr (Option.some.inj hb ▸ hact)
    · obtain rfl := Sum.inl.inj hs
      exact absurd hb (by simp [chosen?])
  | failover now entry | create now =>
    simp only [step] at hs
    split_ifs at hs
    obtain rfl := Sum.inl.inj hs
    exact .inr (Option.some.inj hb ▸ (hfind ft.toKey).2)
  | storeSticky | storeFailover | storeNew => exact absurd hs (by simp [step])

/-- `handleServerDown` chooses active servers. -/
theorem Sweep.chosen?_step (hfind : Finds ring) {s s' : Sweep} {order : List ByteString}
    {serverId : ℤ} (hs : (s.step sm ring clk order serverId).2 = some s') {b : ℤ}
    (hb : s'.chosen? = some b) : b ∈ ring.activeServers := by
  cases s with
  | enter =>
    simp only [step] at hs
    split_ifs at hs <;> obtain rfl := Option.some.inj hs <;> exact absurd hb (by simp [chosen?])
  | scan todo =>
    cases todo with
    | nil => exact absurd hs (by simp [step])
    | cons key todo =>
      rw [step] at hs
      split at hs
      · split_ifs at hs <;> obtain rfl := Option.some.inj hs <;>
          exact absurd hb (by simp [chosen?])
      · obtain rfl := Option.some.inj hs
        exact absurd hb (by simp [chosen?])
  | choose key entry todo =>
    simp only [step] at hs
    split_ifs at hs
    · obtain rfl := Option.some.inj hs
      exact Option.some.inj hb ▸ (hfind key).2
    · obtain rfl := Option.some.inj hs
      exact absurd hb (by simp [chosen?])
  | store =>
    obtain rfl := Option.some.inj hs
    exact absurd hb (by simp [chosen?])

/-- `forceReassign` chooses active servers. -/
theorem Forcing.chosen?_step (hfind : Finds ring) {s s' : Forcing} {key : ByteString}
    (hs : (s.step sm ring clk key).2 = .inl s') {b : ℤ} (hb : s'.chosen? = some b) :
    s.chosen? = some b ∨ b ∈ ring.activeServers := by
  cases s with
  | enter =>
    obtain rfl := Sum.inl.inj hs
    exact absurd hb (by simp [chosen?])
  | find =>
    rw [step] at hs
    split at hs
    · obtain rfl := Sum.inl.inj hs
      exact absurd hb (by simp [chosen?])
    · exact absurd hs (by simp)
  | choose entry =>
    simp only [step] at hs
    split_ifs at hs <;> obtain rfl := Sum.inl.inj hs <;>
      exact .inr (Option.some.inj hb ▸ (hfind key).2)
  | pickOther entry newBackend =>
    simp only [step] at hs
    split_ifs at hs
    obtain rfl := Sum.inl.inj hs
    obtain rfl := Option.some.inj hb
    cases hother : ring.getActiveServers.find? (· ≠ entry.backendId) with
    | none => exact .inl rfl
    | some other => exact .inr (List.mem_of_find?_eq_some hother)
  | store => exact absurd hs (by simp [step])

/-- The sweep leaves a session behind when it is expired, or its backend is back on the ring,
or it has just been moved. -/
theorem Sweep.todo_step (hfind : Finds ring) {s : Sweep} {order : List ByteString} {serverId : ℤ}
    {key : ByteString} {entry : SessionEntry} (htodo : s.Todo key)
    (he : (s.step sm ring clk order serverId).1.sessions[key]? = some entry)
    (hb : entry.backendId = serverId) :
    (∃ s', (s.step sm ring clk order serverId).2 = some s' ∧ s'.Todo key) ∨
      sm.isExpired clk.steady entry = true ∨ serverId ∈ ring.activeServers ∨
      s.chosen? = some serverId := by
  cases s with
  | enter =>
    refine .inl ?_
    simp only [step] at he ⊢
    split_ifs with hperm
    · refine ⟨_, rfl, hperm.mem_iff.mpr (Std.ExtTreeMap.mem_keys.mpr ?_)⟩
      exact Std.ExtTreeMap.mem_iff_isSome_getElem?.mpr (he ▸ rfl)
    · exact ⟨_, rfl, trivial⟩
  | scan todo =>
    cases todo with
    | nil => exact absurd htodo List.not_mem_nil
    | cons k todo =>
      have hsm : (step sm ring clk order serverId (scan (k :: todo))).1 = sm := by
        rw [step]
        split
        · split_ifs <;> rfl
        · rfl
      rw [hsm] at he
      rcases List.mem_cons.mp htodo with rfl | htodo
      · -- the loop has come to the session, and moves it unless it is expired
        by_cases hx : sm.isExpired clk.steady entry = true
        · exact .inr (.inl hx)
        · refine .inl ⟨choose key entry todo, ?_, List.mem_cons_self⟩
          simp [step, he, hb, hx]
      · refine .inl ?_
        rw [step]
        split
        · split_ifs
          · exact ⟨_, rfl, List.mem_cons_of_mem k htodo⟩
          · exact ⟨_, rfl, htodo⟩
        · exact ⟨_, rfl, htodo⟩
  | choose k entry' todo =>
    simp only [step] at he ⊢
    split_ifs with hmove
    · exact .inl ⟨_, rfl, htodo⟩
    · rcases List.mem_cons.mp htodo with rfl | htodo
      · -- the lookup has found the server itself, which is back on the ring
        obtain ⟨hnonneg, hmem⟩ := hfind key
        rw [not_and, not_not] at hmove
        exact .inr (.inr (.inl (hmove hnonneg ▸ hmem)))
      · exact .inl ⟨_, rfl, htodo⟩
  | store k entry' backend todo =>
    rcases List.mem_cons.mp htodo with rfl | htodo
    · have hstored : entry'.reassign clk backend _ = entry :=
        Option.some.inj ((SessionManager.sessions_put_self _ _ _).symm.trans he)
      exact .inr (.inr (.inr (by rw [← hb, ← hstored]; rfl)))
    · exact .inl ⟨_, rfl, htodo⟩

end Sections

/-! ### Coverage -/

/-- What a section is about to record, and what is recorded, is on the ring or about to be
swept. -/
structure Covered (t : World hashKey ι) : Prop where
  chosen {i : ι} {s : ℤ} : (t.pc i).chosen? = some s →
    s ∈ t.shared.engine.ring.activeServers ∨ t.Any (Pc.Awaits s)
  entries {key : ByteString} {entry : SessionEntry} :
    t.shared.engine.sessions.sessions[key]? = some entry →
      t.shared.engine.sessions.isExpired t.shared.now entry = true ∨
      entry.backendId ∈ t.shared.engine.ring.activeServers ∨
      t.Any (Pc.Covers entry.backendId key)

theorem Pc.Awaits.covers {s : ℤ} {p : Pc} (h : p.Awaits s) (key : ByteString) :
    p.Covers s key := by
  obtain ⟨r, rfl⟩ := h
  exact ⟨r, .enter, rfl, trivial⟩

theorem Pc.Covers.isSweeping {s : ℤ} {key : ByteString} {p : Pc} (h : p.Covers s key) :
    p.isSweeping = true := by
  obtain ⟨r, w, rfl, -⟩ := h
  rfl

theorem Pc.Covers.inSession {s : ℤ} {key : ByteString} {p : Pc} (h : p.Covers s key) :
    p.inSession = true := by
  obtain ⟨r, w, rfl, -⟩ := h
  rfl

theorem Pc.chosen?_of_outside {p : Pc} (h : p.inside = false) : p.chosen? = none := by
  cases p with
  | routeRequest r again assigned s | handleServerDown s' r s | forceReassign key s =>
    obtain rfl : s = .enter := by simpa [inside] using h
    rfl
  | _ => rfl

section PcStep

variable (cfg : Config) {e : Engine hashKey} (clk : Clock) (order : List ByteString) {p : Pc}

theorem Pc.chosen?_eq_none_of_moved {p' : Pc} (h : Pc.Moved e p p') (hp : p.inSession = false) :
    p'.chosen? = none := by
  cases h with
  | outer hin => exact chosen?_of_outside hin
  | evict | stop | start | removed => rfl
  | within hp' => exact absurd (hp'.symm.trans hp) (by simp)

theorem Pc.records_step (hp : p.inSession = true) :
    Records e.sessions (p.step cfg e clk order).1.sessions p.chosen? := by
  cases p with
  | routeRequest r again assigned s => exact s.records_step
  | handleServerDown serverId r s => exact s.records_step order serverId
  | forceReassign key s => exact s.records_step key
  | _ => exact absurd hp (by simp [inSession])

theorem Pc.chosen?_step (hfind : Finds e.ring) {s : ℤ}
    (hs : (p.step cfg e clk order).2.1.chosen? = some s) :
    p.chosen? = some s ∨ s ∈ e.ring.activeServers := by
  by_cases hp : p.inSession = false
  · have hnone := chosen?_eq_none_of_moved (p.moved_step cfg e clk order) hp
    exact absurd hs (by simp [hnone])
  cases p with
  | routeRequest r again assigned position =>
    simp only [step] at hs
    split at hs
    · exact Routing.chosen?_step hfind ‹_› hs
    · have hnone (status : RequestStatus) (s : ℤ) :
          (afterRouting r again status s).1.chosen? = none :=
        chosen?_eq_none_of_moved (moved_afterRouting e idle r again status s) rfl
      exact absurd hs (by simp [hnone])
  | handleServerDown serverId r position =>
    simp only [step] at hs
    split at hs
    · exact .inr (Sweep.chosen?_step hfind ‹_› hs)
    · exact absurd hs (by simp [chosen?, Routing.chosen?])
    · exact absurd hs (by simp [chosen?])
  | forceReassign key position =>
    simp only [step] at hs
    split at hs
    · exact Forcing.chosen?_step hfind ‹_› hs
    · exact absurd hs (by simp [chosen?])
  | _ => exact absurd rfl hp

theorem Pc.covers_step (hfind : Finds e.ring) {key : ByteString} {entry : SessionEntry}
    (hc : p.Covers entry.backendId key)
    (he : (p.step cfg e clk order).1.sessions.sessions[key]? = some entry) :
    (p.step cfg e clk order).2.1.Covers entry.backendId key ∨
      e.sessions.isExpired clk.steady entry = true ∨ entry.backendId ∈ e.ring.activeServers ∨
      p.chosen? = some entry.backendId := by
  obtain ⟨r, w, rfl, htodo⟩ := hc
  refine (Sweep.todo_step hfind htodo he rfl).imp_left fun ⟨w', hw', htodo'⟩ => ?_
  simp only [step, hw']
  exact ⟨r, w', rfl, htodo'⟩

theorem Pc.awaits_step {s : ℤ} (ha : p.Awaits s) :
    (p.step cfg e clk order).2.1.Awaits s ∨ (p.step cfg e clk order).2.1.inside = true := by
  obtain ⟨r, rfl⟩ := ha
  simp only [step, Sweep.step]
  split_ifs
  · exact .inr rfl
  · exact .inl ⟨r, rfl⟩

theorem Pc.awaits_step_of_ringCall? {s : ℤ} (h : p.ringCall? = some (.removeServer s)) :
    (p.step cfg e clk order).2.1.Awaits s := by
  cases p with
  | evict | retire =>
    obtain rfl : _ = s := by simpa [ringCall?] using h
    exact ⟨_, rfl⟩
  | _ => exact absurd h (by simp [ringCall?])

end PcStep

/-- When all sweeps are over, every unexpired session is on the ring. -/
theorem Covered.mem_ring {t : World hashKey ι} (h : Covered t)
    (hquiet : ∀ i, (t.pc i).isSweeping = false) {key : ByteString} {entry : SessionEntry}
    (he : t.shared.engine.sessions.sessions[key]? = some entry)
    (hx : t.shared.engine.sessions.isExpired t.shared.now entry = false) :
    entry.backendId ∈ t.shared.engine.ring.activeServers := by
  rcases h.entries he with hexp | hact | ⟨i, hi⟩
  · exact absurd (hexp.symm.trans hx) (by simp)
  · exact hact
  · exact absurd (hi.isSweeping.symm.trans (hquiet i)) (by simp)

section Step

variable [DecidableEq ι] {t : World hashKey ι} {i : ι} {sh : Shared hashKey} {p : Pc}

/-- A step outside the calls of the session manager may change the ring, if it then waits to
sweep the sessions of the backend it removed. -/
theorem Covered.advance_outside (h : Covered t) (hi : (t.pc i).inSession = false)
    (hp : p.chosen? = none) (hsessions : sh.engine.sessions = t.shared.engine.sessions)
    (hnow : sh.now = t.shared.now)
    (hring : ∀ s ∈ t.shared.engine.ring.activeServers,
      s ∈ sh.engine.ring.activeServers ∨ p.Awaits s) :
    Covered (t.advance Pc.inside i sh p) where
  chosen {j s} hs := by
    have hj : (t.pc j).chosen? = some s := by
      by_cases hji : j = i
      · rw [hji, Threads.pc_advance_self, hp] at hs
        exact absurd hs (by simp)
      · rwa [Threads.pc_advance_of_ne hji] at hs
    rcases h.chosen hj with hact | hany
    · exact (hring s hact).imp_right Threads.any_advance_self
    · refine .inr (hany.advance fun ha => ?_)
      exact absurd ((ha.covers []).inSession.symm.trans hi) (by simp)
  entries {key entry} he := by
    rw [Threads.shared_advance, hsessions] at he ⊢
    rw [hnow]
    rcases h.entries he with hexp | hact | hany
    · exact .inl hexp
    · refine .inr ((hring _ hact).imp_right fun ha => Threads.any_advance_self (ha.covers key))
    · refine .inr (.inr (hany.advance fun hc => ?_))
      exact absurd (hc.inSession.symm.trans hi) (by simp)

/-- A step in a call of the session manager records a backend that is on the ring or about to
be swept, and leaves behind no session of a sweep that is not. -/
theorem Covered.advance_session (h : Covered t)
    (hring : sh.engine.ring = t.shared.engine.ring) (hnow : sh.now = t.shared.now)
    (hrec : Records t.shared.engine.sessions sh.engine.sessions (t.pc i).chosen?)
    (hchosen : ∀ s, p.chosen? = some s →
      (t.pc i).chosen? = some s ∨ s ∈ t.shared.engine.ring.activeServers)
    (hawaits : ∀ s, (t.pc i).Awaits s → p.Awaits s ∨ ∀ j, (t.pc j).chosen? = none)
    (hcovers : ∀ key entry, (t.pc i).Covers entry.backendId key →
      sh.engine.sessions.sessions[key]? = some entry → p.Covers entry.backendId key ∨
        t.shared.engine.sessions.isExpired t.shared.now entry = true ∨
        entry.backendId ∈ t.shared.engine.ring.activeServers ∨
        (t.pc i).chosen? = some entry.backendId) :
    Covered (t.advance Pc.inside i sh p) := by
  have hkeep {j : ι} {s : ℤ} (hs : (t.pc j).chosen? = some s) :
      s ∈ t.shared.engine.ring.activeServers ∨ (t.advance Pc.inside i sh p).Any (Pc.Awaits s) := by
    refine (h.chosen hs).imp_right fun hany => hany.advance fun ha => ?_
    refine (hawaits s ha).resolve_right fun hnone => ?_
    exact absurd hs (by simp [hnone j])
  refine ⟨fun {j s} hs => ?_, fun {key entry} he => ?_⟩
  · rw [Threads.shared_advance, hring]
    by_cases hji : j = i
    · rw [hji, Threads.pc_advance_self] at hs
      exact (hchosen s hs).elim hkeep .inl
    · rw [Threads.pc_advance_of_ne hji] at hs
      exact hkeep hs
  · rw [Threads.shared_advance, hring, hnow, SessionManager.isExpired_congr hrec.timeout]
    have hrecorded {s : ℤ} (hs : (t.pc i).chosen? = some s) :=
      (hkeep hs).imp_right fun ⟨j, hj⟩ => (⟨j, hj.covers key⟩ : Threads.Any (Pc.Covers s key) _)
    rcases hrec.recorded he with hold | hnew
    · rcases h.entries hold with hexp | hact | ⟨j, hj⟩
      · exact .inl hexp
      · exact .inr (.inl hact)
      · by_cases hji : j = i
        · rcases hcovers key entry (hji ▸ hj) he with hp | hexp | hact | hnew
          · exact .inr (.inr (Threads.any_advance_self hp))
          · exact .inl hexp
          · exact .inr (.inl hact)
          · exact .inr (hrecorded hnew)
        · exact .inr (.inr (Threads.any_advance.mpr (.inr ⟨j, hji, hj⟩)))
    · exact .inr (hrecorded hnew)

/-- **Coverage.** Every step of a thread keeps the sessions covered. -/
theorem Covered.resume (h : Covered t) (hlock : t.Locked Pc.inside)
    (hfind : Finds t.shared.engine.ring) {x : Surroundings}
    (hfree : ¬ (script hashKey cfg).blocked t i x = true) :
    Covered (t.advance Pc.inside i ((script hashKey cfg).step t.shared x (t.pc i)).1
      ((script hashKey cfg).step t.shared x (t.pc i)).2.1) := by
  have hring := (t.pc i).ring_step cfg t.shared.engine ⟨t.shared.now, x.wall⟩ x.order
  by_cases hi : (t.pc i).inSession = true
  · have hcall : (t.pc i).ringCall? = none := by
      by_contra hsome
      obtain ⟨op, hop⟩ := Option.ne_none_iff_exists'.mp hsome
      have ht := Pc.target?_of_ringCall? hop
      exact absurd ht (by simp [Pc.target?_of_inSession hi])
    rw [hcall] at hring
    refine h.advance_session hring rfl (Pc.records_step cfg _ _ hi)
      (fun s hs => Pc.chosen?_step cfg _ _ hfind hs) (fun s hs => ?_)
      fun key entry hc he => Pc.covers_step cfg _ _ hfind hc he
    -- a thread that starts to sweep has found the mutex free, so that nobody else is inside
    refine (Pc.awaits_step cfg _ _ hs).imp_right fun hin j => Pc.chosen?_of_outside ?_
    have hnone : t.holder = none := by
      refine (Script.free_of_not_blocked hfree hin).resolve_left ?_
      obtain ⟨r, hr⟩ := hs
      simp [hr, script, Pc.inside]
    by_contra hj
    exact absurd ((hlock j).mpr (by simpa using hj)) (by simp [hnone])
  · have hout := Bool.not_eq_true _ ▸ hi
    refine h.advance_outside hout (Pc.chosen?_eq_none_of_moved (Pc.moved_step ..) hout)
      (Pc.sessions_step cfg _ _ _ hout) rfl fun s hs => ?_
    show s ∈ ((t.pc i).step cfg t.shared.engine _ x.order).1.ring.activeServers ∨ _
    rw [hring]
    cases hop : (t.pc i).ringCall? with
    | none => exact .inl hs
    | some op =>
      cases op with
      | addServer y => exact .inl ((mem_activeServers_addServer _ y).mpr (.inr hs))
      | removeServer y =>
        by_cases hsy : s = y
        · subst hsy
          exact .inr (Pc.awaits_step_of_ringCall? cfg _ _ hop)
        · exact .inl ((mem_activeServers_removeServer _ y).mpr ⟨hsy, hs⟩)

end Step

/-! ### Runs -/

section Runs

variable [DecidableEq ι]

/-- What every lookup finding a server does for the sessions. -/
theorem covered_run {t : World hashKey ι} (ht : Covered t) (hlock : t.Locked Pc.inside)
    {evs : List (Event ι)}
    (hfind : (machine hashKey cfg ι).Along (fun t _ => Finds t.shared.engine.ring) t evs) :
    Covered ((machine hashKey cfg ι).run t evs) := by
  refine Script.run_invariant (S := script hashKey cfg) ?_ ?_ ?_ ht hlock hfind
  · intro t d ht _
    refine ⟨ht.chosen, fun {key entry} he => (ht.entries he).imp_left fun hx => ?_⟩
    exact SessionManager.isExpired_mono (Int.le_add_of_nonneg_right (Int.natCast_nonneg d)) hx
  · intro t i call ht _ hidle
    have hi : t.pc i = .idle := of_decide_eq_true hidle
    refine ht.advance_outside (by rw [hi]; rfl) (Pc.chosen?_of_outside ?_) rfl rfl
      fun s hs => .inl hs
    exact (script hashKey cfg).inside_start t.shared call
  · intro t i x ht hlock hfind hfree
    exact ht.resume hlock hfind hfree

omit [DecidableEq ι] in
theorem covered_quiet (cfg : Config) (now : TimePoint) :
    Covered (World.quiet ι (Engine.init hashKey cfg) now) where
  chosen hs := absurd hs (by simp [World.quiet, Pc.chosen?])
  entries he := absurd he (by simp [World.quiet, Engine.init, SessionManager.init])

/-- While the ring is not empty, every lookup finds a server. -/
theorem finds_run (hV : 0 < cfg.consistentHashVnodes)
    (hsep : Separated hashKey cfg.consistentHashVnodes {s | 0 ≤ s ∧ s < cfg.numBackendServers})
    {now : TimePoint} {evs : List (Event ι)}
    (hring : ((machine hashKey cfg ι).run (.quiet ι (.init hashKey cfg) now)
      evs).shared.engine.ring.getActiveServers ≠ []) :
    Finds ((machine hashKey cfg ι).run (.quiet ι (.init hashKey cfg) now)
      evs).shared.engine.ring := by
  have haim : Aimed (· ∈ {s : ℤ | 0 ≤ s ∧ s < cfg.numBackendServers})
      (World.quiet ι (Engine.init hashKey cfg) now) :=
    ⟨fun s => @Engine.inRange_afterOps hashKey cfg [] s,
      fun h => absurd h (by simp [World.quiet, Pc.target?])⟩
  obtain ⟨hplaced, hvnodes⟩ := ring_run cfg
    (I := fun r => r.Placed {s | 0 ≤ s ∧ s < cfg.numBackendServers} ∧ 0 < r.vnodesPerServer)
    (fun r s hs h => ⟨h.1.addServer hs,
      by rw [ConsistentHashRing.addServer_vnodesPerServer]; exact h.2⟩)
    (fun r s hs h => ⟨h.1.removeServer hs, h.2⟩)
    ⟨Engine.placed_afterOps hsep [], (Engine.vnodesPerServer_afterOps []).symm ▸ hV⟩ haim
    (locked_quiet _ now) evs
  have hserving := hplaced.serving hvnodes fun _ hs => hs.1
  obtain ⟨s, hs⟩ := List.exists_mem_of_ne_nil _ hring
  exact fun key => ⟨hserving.getServer_nonneg hs key, hserving.getServer_mem hs key⟩

/-- **No session is stranded under concurrency.** With a virtual node per server and no
collisions between backends, in every run from the state `main` builds in which the ring is
never empty: whenever no sweep is left, every unexpired session is on a backend of the ring. -/
theorem no_session_stranded (hV : 0 < cfg.consistentHashVnodes)
    (hsep : Separated hashKey cfg.consistentHashVnodes {s | 0 ≤ s ∧ s < cfg.numBackendServers})
    {now : TimePoint} {evs : List (Event ι)} (hring : (machine hashKey cfg ι).Along
      (fun t _ => t.shared.engine.ring.getActiveServers ≠ []) (.quiet ι (.init hashKey cfg) now)
      evs)
    {t : World hashKey ι}
    (ht : (machine hashKey cfg ι).run (.quiet ι (.init hashKey cfg) now) evs = t)
    (hquiet : ∀ i, (t.pc i).isSweeping = false) {key : ByteString} {entry : SessionEntry}
    (he : t.shared.engine.sessions.sessions[key]? = some entry)
    (hx : t.shared.engine.sessions.isExpired t.shared.now entry = false) :
    entry.backendId ∈ t.shared.engine.ring.getActiveServers := by
  have hfind : (machine hashKey cfg ι).Along (fun t _ => Finds t.shared.engine.ring)
      (.quiet ι (.init hashKey cfg) now) evs := by
    rw [Machine.along_iff_forall_prefix] at hring ⊢
    exact fun js ev hjs => finds_run hV hsep (hring js ev hjs)
  have hcovered := covered_run (covered_quiet cfg now) (locked_quiet _ now) hfind
  rw [ht] at hcovered
  exact hcovered.mem_ring hquiet he hx

end Runs

/-- A backend is taken offline while a request is about to record it for a new session. The
sweep waits for the request, and then moves the session. -/
def lateStore : List (Event Bool) :=
  [.invoke true (.handleRequest ⟨.primary, clientTuple, bytes "hello"⟩), go true, go true, go true,
    go true, go true, go true, .invoke false (.takeBackendOffline 0), go false, go false, go true,
    go true, .resume false ⟨[], [clientTuple.toKey]⟩, go false, go false, go false, go false]

/-- The threads after that run: the request is about to fail over, and no sweep is left. -/
def lateStoreWorld : World fnvHashKey Bool :=
  (machine fnvHashKey .pair Bool).run (.quiet Bool (.init fnvHashKey .pair) 0) lateStore

theorem no_session_stranded_lateStore : ∃ entry,
    lateStoreWorld.shared.engine.sessions.sessions[clientTuple.toKey]? = some entry ∧
      entry.backendId ∈ lateStoreWorld.shared.engine.ring.getActiveServers := by
  have hlive : (lateStoreWorld.shared.engine.sessions.sessions[clientTuple.toKey]?).any
      (fun entry => !lateStoreWorld.shared.engine.sessions.isExpired lateStoreWorld.shared.now
        entry) = true := by decide +kernel
  obtain ⟨entry, he, hx⟩ := (Option.any_eq_true ..).mp hlive
  rw [Bool.not_eq_true'] at hx
  exact ⟨entry, he, no_session_stranded (t := lateStoreWorld) (by decide) Engine.separated_pair
    (by decide +kernel) rfl (by decide +kernel) he hx⟩

end Concurrent

end SessionAffinity
