import SessionAffinity.Concurrent
import SessionAffinity.Engine.Invariants

/-!
# Ring and online flags under concurrent calls

`takeBackendOffline` and `bringBackendOnline` store the flag and then change the ring, and a
failover changes the ring after it has seen the flag. Between the two steps flag and ring
disagree about the backend, and the thread that is to settle it is on its way: that is
`Coherent`. When all calls have returned nobody is, so that flag and ring agree.

A step keeps the threads coherent exactly when it is `Safe` (`coherent_next_iff`): a backend
leaves the ring when it is offline, or when a thread is about to return it, and enters the
ring when it is online, or when a thread is about to remove it. The calls do not see to that.
A removal that comes late takes a backend off the ring that has been brought back in between,
after `addServer` has found it still listed and done nothing.
-/

namespace SessionAffinity

namespace Concurrent

open ConsistentHashRing (mem_activeServers_addServer mem_activeServers_removeServer)

variable {hashKey : ByteString → UInt64} {ι : Type*} {cfg : Config}

/-- Some thread is about to make this change to the ring. -/
def Pending (op : ConsistentHashRing.Op) (t : World hashKey ι) : Prop :=
  t.Any fun p => p.ringCall? = some op

instance [Fintype ι] (op : ConsistentHashRing.Op) (t : World hashKey ι) :
    Decidable (Pending op t) :=
  inferInstanceAs (Decidable (t.Any _))

/-- Where flag and ring disagree about a backend, a thread is about to change the ring. -/
structure Coherent (t : World hashKey ι) : Prop where
  restoring {s : ℤ} : t.shared.engine.isOnline s = true →
    s ∉ t.shared.engine.ring.activeServers → Pending (.addServer s) t
  removing {s : ℤ} : t.shared.engine.isOnline s = false →
    s ∈ t.shared.engine.ring.activeServers → Pending (.removeServer s) t

/-- A change of the ring does not go against the flag, unless another thread is to undo it. -/
def SafeCall (t : World hashKey ι) : ConsistentHashRing.Op → Prop
  | .addServer s => t.shared.engine.isOnline s = true ∨ Pending (.removeServer s) t
  | .removeServer s => t.shared.engine.isOnline s = false ∨ Pending (.addServer s) t

instance [Fintype ι] (t : World hashKey ι) : ∀ op, Decidable (SafeCall t op)
  | .addServer _ | .removeServer _ => inferInstanceAs (Decidable (_ ∨ _))

/-- If the event changes the ring, the change is safe. -/
def Safe (t : World hashKey ι) : Event ι → Prop
  | .resume i _ => ∀ op ∈ (t.pc i).ringCall?, SafeCall t op
  | _ => True

instance [Fintype ι] (t : World hashKey ι) : ∀ ev, Decidable (Safe t ev)
  | .resume i _ => inferInstanceAs (Decidable (∀ op ∈ (t.pc i).ringCall?, SafeCall t op))
  | .tick _ | .invoke _ _ => isTrue trivial

/-- Coherent threads that are all idle leave the engine live. -/
theorem Coherent.live {t : World hashKey ι} (h : Coherent t) (hidle : ∀ i, t.pc i = .idle) :
    t.shared.engine.Live := by
  have hnone (op : ConsistentHashRing.Op) : ¬ Pending op t := by
    rintro ⟨i, hi⟩
    rw [hidle i] at hi
    exact absurd hi (by simp [Pc.ringCall?])
  intro s
  constructor
  · intro hs
    by_contra hoff
    exact hnone _ (h.removing (Bool.not_eq_true _ ▸ hoff) hs)
  · intro hon
    by_contra hs
    exact hnone _ (h.restoring hon hs)

theorem coherent_quiet {e : Engine hashKey} (hl : e.Live) (now : TimePoint) :
    Coherent (World.quiet ι e now) :=
  ⟨fun hon hs => absurd ((hl _).mpr hon) hs, fun hoff hs => by
    have hon : e.isOnline _ = true := (hl _).mp hs
    exact absurd (hon.symm.trans hoff) (by simp)⟩

/-- The change of the ring that goes with a flag. -/
def settle (on : Bool) (s : ℤ) : ConsistentHashRing.Op :=
  if on then .addServer s else .removeServer s

theorem mem_activeServers_settle (ring : ConsistentHashRing hashKey) (on : Bool) (y s : ℤ) :
    s ∈ ((ConsistentHashRing.machine hashKey).next ring (settle on y)).activeServers ↔
      if s = y then on = true else s ∈ ring.activeServers := by
  cases on with
  | true =>
    show s ∈ (ring.addServer y).activeServers ↔ _
    rw [mem_activeServers_addServer]
    split_ifs with hsy <;> simp [hsy]
  | false =>
    show s ∈ (ring.removeServer y).activeServers ↔ _
    rw [mem_activeServers_removeServer]
    split_ifs with hsy <;> simp [hsy]

/-- Coherence with both directions in one: the pending change is the one the flag asks for. -/
theorem coherent_iff {t : World hashKey ι} : Coherent t ↔
    ∀ on s, t.shared.engine.isOnline s = on →
      ¬ (s ∈ t.shared.engine.ring.activeServers ↔ on = true) → Pending (settle on s) t := by
  constructor
  · intro h on s hs hdis
    cases on with
    | true => exact h.restoring hs fun hact => hdis (iff_of_true hact rfl)
    | false => exact h.removing hs (by simpa using hdis)
  · intro h
    exact ⟨fun {s} hs hnot => h true s hs (by simpa using hnot),
      fun {s} hs hact => h false s hs (by simpa using hact)⟩

section Step

variable [DecidableEq ι] {t : World hashKey ι} {i : ι} {sh : Shared hashKey} {p : Pc}

/-- A thread that makes another call, or none, does not end that a call is pending. -/
theorem Pending.advance {op : ConsistentHashRing.Op} (h : Pending op t)
    (hi : (t.pc i).ringCall? ≠ some op) : Pending op (t.advance Pc.inside i sh p) :=
  Threads.Any.advance h fun hop => absurd hop hi

/-- A thread that is done with its call of the ring leaves the calls of the others. -/
theorem pending_advance_iff {op : ConsistentHashRing.Op} (hi : (t.pc i).ringCall? ≠ some op)
    (hp : p.ringCall? = none) : Pending op (t.advance Pc.inside i sh p) ↔ Pending op t :=
  Threads.any_advance_congr ⟨fun hop => absurd hop (by simp [hp]), fun hop => absurd hop hi⟩

/-- A thread that changes the ring goes with the flag, or against it. -/
theorem coherent_advance_settle (h : Coherent t) (on : Bool) {y : ℤ}
    (hop : (t.pc i).ringCall? = some (settle on y)) (hp : p.ringCall? = none)
    (hring : sh.engine.ring =
      (ConsistentHashRing.machine hashKey).next t.shared.engine.ring (settle on y))
    (hon : ∀ s, sh.engine.isOnline s = t.shared.engine.isOnline s) :
    Coherent (t.advance Pc.inside i sh p) ↔
      t.shared.engine.isOnline y = on ∨ Pending (settle (!on) y) t := by
  have hmem (s : ℤ) : s ∈ sh.engine.ring.activeServers ↔
      if s = y then on = true else s ∈ t.shared.engine.ring.activeServers := by
    rw [hring, mem_activeServers_settle]
  have hopp : (t.pc i).ringCall? ≠ some (settle (!on) y) := by
    rw [hop]
    cases on <;> simp [settle]
  rw [coherent_iff] at h ⊢
  constructor
  · intro h'
    by_cases hy : t.shared.engine.isOnline y = on
    · exact .inl hy
    · have hy' : sh.engine.isOnline y = !on := (hon y).trans (Bool.eq_not.mpr hy)
      have hpend := h' (!on) y hy' (by simp [hmem])
      exact .inr ((pending_advance_iff hopp hp).mp hpend)
  · intro hsafe b s hs hdis
    have hs' : t.shared.engine.isOnline s = b := (hon s).symm.trans hs
    have hdis' : ¬ ((if s = y then on = true else s ∈ t.shared.engine.ring.activeServers) ↔
        b = true) := fun hiff => hdis ((hmem s).trans hiff)
    split_ifs at hdis' with hsy
    · -- the backend itself: its flag says otherwise, and another thread is to undo the change
      obtain rfl : b = !on := by cases b <;> cases on <;> simp at hdis' ⊢
      subst hsy
      exact (hsafe.resolve_left (by simp [hs'])).advance hopp
    · refine (h b s hs' hdis').advance ?_
      rw [hop]
      cases on <;> cases b <;> simp [settle, Ne.symm hsy]

/-- A thread that stores a flag is then about to change the ring. -/
theorem coherent_advance_flag (h : Coherent t) (on : Bool) {y : ℤ}
    (hi : (t.pc i).ringCall? = none) (hp : p.ringCall? = some (settle on y))
    (hring : sh.engine.ring = t.shared.engine.ring)
    (hon : ∀ s, sh.engine.isOnline s = if s = y then on else t.shared.engine.isOnline s) :
    Coherent (t.advance Pc.inside i sh p) := by
  rw [coherent_iff] at h ⊢
  intro b s hs hdis
  have hs' := (hon s).symm.trans hs
  split_ifs at hs' with hsy
  · refine Threads.any_advance_self ?_
    rw [hp, hs', hsy]
  · have hpend := h b s hs' (by rwa [← hring])
    exact hpend.advance (by simp [hi])

/-- A step that leaves flags and ring keeps the threads coherent. -/
theorem coherent_advance_quiet (h : Coherent t) (hi : (t.pc i).ringCall? = none)
    (hring : sh.engine.ring = t.shared.engine.ring)
    (hon : ∀ s, sh.engine.isOnline s = t.shared.engine.isOnline s) :
    Coherent (t.advance Pc.inside i sh p) :=
  ⟨fun {s} hs hnot => (h.restoring (hon s ▸ hs) (hring ▸ hnot)).advance (by simp [hi]),
    fun {s} hs hact => (h.removing (hon s ▸ hs) (hring ▸ hact)).advance (by simp [hi])⟩

/-- **Coherence.** A step keeps the threads coherent exactly if it is safe. -/
theorem coherent_next_iff {R : ℤ → Prop} (h : Coherent t) (haim : Aimed R t) (ev : Event ι) :
    Coherent ((machine hashKey cfg ι).next t ev) ↔ Safe t ev := by
  cases ev with
  | tick d => exact iff_of_true ⟨h.restoring, h.removing⟩ trivial
  | invoke i call =>
    refine iff_of_true ?_ trivial
    rw [Script.next_invoke]
    split_ifs with hidle
    · have hi : t.pc i = .idle := of_decide_eq_true hidle
      exact coherent_advance_quiet h (by rw [hi]; rfl) rfl fun _ => rfl
    · exact h
  | resume i x =>
    rw [Script.next_resume]
    have hring := (t.pc i).ring_step cfg t.shared.engine ⟨t.shared.now, x.wall⟩ x.order
    cases hop : (t.pc i).ringCall? with
    | some op =>
      obtain ⟨hp, hin, hbackends⟩ :=
        Pc.step_of_ringCall? cfg t.shared.engine ⟨t.shared.now, x.wall⟩ x.order hop
      have hfree : ¬ (script hashKey cfg).blocked t i x = true := by
        simp [Script.blocked, script, hin]
      have hon := Engine.isOnline_congr_backends hbackends
      rw [hop] at hring
      have hsafe : Safe t (.resume i x) ↔ SafeCall t op := by simp [Safe, hop]
      rw [if_neg hfree, hsafe]
      cases op with
      | addServer y => exact coherent_advance_settle h true hop hp hring hon
      | removeServer y => exact coherent_advance_settle h false hop hp hring hon
    | none =>
      rw [hop] at hring
      refine iff_of_true ?_ (by simp [Safe, hop])
      split_ifs
      · exact h
      · by_cases hstop : ∃ y, t.pc i = .stop y
        · obtain ⟨y, hy⟩ := hstop
          have hr := (haim.inRange y).mpr (haim.target (i := i) (by rw [hy]; rfl))
          refine coherent_advance_flag (y := y) h false hop ?_ hring fun s => ?_
          · show (Pc.step cfg t.shared.engine _ x.order (t.pc i)).2.1.ringCall? = _
            rw [hy]
            rfl
          · show (Pc.step cfg t.shared.engine _ x.order (t.pc i)).1.isOnline s = _
            rw [hy, Pc.isOnline_step_stop cfg _ _ hr]
        by_cases hstart : ∃ y, t.pc i = .start y
        · obtain ⟨y, hy⟩ := hstart
          have hr := (haim.inRange y).mpr (haim.target (i := i) (by rw [hy]; rfl))
          refine coherent_advance_flag (y := y) h true hop ?_ hring fun s => ?_
          · show (Pc.step cfg t.shared.engine _ x.order (t.pc i)).2.1.ringCall? = _
            rw [hy]
            rfl
          · show (Pc.step cfg t.shared.engine _ x.order (t.pc i)).1.isOnline s = _
            rw [hy, Pc.isOnline_step_start cfg _ _ hr]
        · exact coherent_advance_quiet h hop hring (Pc.isOnline_step cfg _ _ _
            (fun y hy => hstop ⟨y, hy⟩) fun y hy => hstart ⟨y, hy⟩)

end Step

/-! ### Runs -/

section Runs

variable [DecidableEq ι] {e : Engine hashKey}

/-- The threads stay coherent as long as their steps are safe, and no longer. -/
theorem coherent_iff_along_safe (hl : e.Live) (now : TimePoint) (evs : List (Event ι)) :
    (∀ js, js <+: evs → Coherent ((machine hashKey cfg ι).run (.quiet ι e now) js)) ↔
      (machine hashKey cfg ι).Along Safe (.quiet ι e now) evs := by
  have haim (js : List (Event ι)) :
      Aimed e.InRange ((machine hashKey cfg ι).run (.quiet ι e now) js) :=
    aimed_run cfg (aimed_quiet e now) (locked_quiet e now) js
  rw [Machine.along_iff_forall_prefix]
  constructor
  · intro h js ev hjs
    have hnext := h (js ++ [ev]) hjs
    rw [Machine.run_concat] at hnext
    exact (coherent_next_iff (h js ((List.prefix_append js [ev]).trans hjs)) (haim js) ev).mp hnext
  · intro h js
    induction js using List.reverseRecOn with
    | nil => exact fun _ => coherent_quiet hl now
    | append_singleton js ev ih =>
      intro hjs
      rw [Machine.run_concat]
      exact (coherent_next_iff (ih ((List.prefix_append js [ev]).trans hjs)) (haim js) ev).mpr
        (h js ev hjs)

/-- **Ring and flags agree after concurrent calls.** If no step goes against a flag without
another thread to undo it, then whenever all calls have returned the ring has exactly the
backends that are online. -/
theorem mem_ring_iff_isOnline_of_safe (hl : e.Live) {now : TimePoint} {evs : List (Event ι)}
    (hsafe : (machine hashKey cfg ι).Along Safe (.quiet ι e now) evs) {js : List (Event ι)}
    (hjs : js <+: evs)
    (hidle : ∀ i, ((machine hashKey cfg ι).run (.quiet ι e now) js).pc i = .idle) (s : ℤ) :
    s ∈ ((machine hashKey cfg ι).run (.quiet ι e now) js).shared.engine.ring.activeServers ↔
      ((machine hashKey cfg ι).run (.quiet ι e now) js).shared.engine.isOnline s = true :=
  ((coherent_iff_along_safe hl now evs).mpr hsafe js hjs).live hidle s

end Runs

/-- A backend is taken offline and, after that, brought back. -/
theorem mem_ring_iff_isOnline_takeBring :
    0 ∈ ((machine fnvHashKey .pair Bool).run (.quiet Bool (.init fnvHashKey .pair) 0)
        [.invoke true (.takeBackendOffline 0), go true, go true, go true, go true,
          .invoke false (.bringBackendOnline 0), go false, go false]
      ).shared.engine.ring.activeServers ↔
    ((machine fnvHashKey .pair Bool).run (.quiet Bool (.init fnvHashKey .pair) 0)
        [.invoke true (.takeBackendOffline 0), go true, go true, go true, go true,
          .invoke false (.bringBackendOnline 0), go false, go false]
      ).shared.engine.isOnline 0 = true :=
  mem_ring_iff_isOnline_of_safe (Engine.live_init fnvHashKey .pair) (by decide +kernel)
    List.prefix_rfl (by decide +kernel) 0

/-- The removal of a backend that is taken offline comes late: the backend has been brought
back in between. It is online and not on the ring. -/
theorem disagree_lateRemoval : ¬ ∀ (e : Engine fnvHashKey) (evs : List (Event Bool)), e.Live →
    (∀ i key, .invoke i (.forceReassign key) ∉ evs) →
    (∀ i, ((machine fnvHashKey .pair Bool).run (.quiet Bool e 0) evs).pc i = .idle) → ∀ s,
      s ∈ ((machine fnvHashKey .pair Bool).run
          (.quiet Bool e 0) evs).shared.engine.ring.activeServers ↔
        ((machine fnvHashKey .pair Bool).run
          (.quiet Bool e 0) evs).shared.engine.isOnline s = true := by
  intro h
  have hdisagree := h (.init fnvHashKey .pair)
    [.invoke true (.takeBackendOffline 0), go true,
      .invoke false (.bringBackendOnline 0), go false, go false, go true, go true, go true]
    (Engine.live_init fnvHashKey .pair) (by simp [go]) (by decide +kernel) 0
  revert hdisagree
  decide +kernel

end Concurrent

end SessionAffinity
