import SessionAffinity.Foundations.Machine

/-!
# Threads that interleave

Threads over a shared state with one mutex. A `Script` says what every thread does: at which
position a call starts, and what one step from a position does to the shared state. Its
`machine` takes these steps in any order, one event each: the environment moves, an idle
thread starts a call, or a thread takes its next step. Some positions are inside a critical
section. The mutex is taken by the step that enters one and given back by the step that
leaves it, and a step that would enter while it is taken does nothing.

That a thread is inside exactly while it holds the mutex is `Script.locked_run`, for every
script; `Script.run_invariant` is the invariant rule for one step of one thread.
-/

/-- A shared state, the holder of its mutex, and the position of every thread. -/
structure Threads (ι σ κ : Type*) where
  shared : σ
  holder : Option ι
  pc : ι → κ

/-- What a thread does. Calls `χ` start at a position, and a step may depend on choices `ε`
that are not the thread's. The environment moves by `τ`. -/
structure Script (σ κ τ χ ε ο : Type*) where
  /-- The thread is not in a call. -/
  isIdle : κ → Bool
  /-- The thread is in a critical section. -/
  inside : κ → Bool
  /-- A move of the environment. -/
  tick : σ → τ → σ
  /-- Where a call starts, or its answer when it returns at once. -/
  start : σ → χ → κ × Option ο
  /-- One step: the shared state and the position it leaves, and the answer of a call that
  returns. -/
  step : σ → ε → κ → σ × κ × Option ο
  inside_idle {p : κ} : isIdle p = true → inside p = false
  inside_start (s : σ) (c : χ) : inside (start s c).1 = false

namespace Threads

variable {ι σ κ : Type*}

/-- What can happen next. -/
inductive Event (ι τ χ ε : Type*)
  | tick (d : τ)
  | invoke (i : ι) (call : χ)
  | resume (i : ι) (x : ε)

/-- Some thread stands at a position with the property. -/
def Any (Q : κ → Prop) (t : Threads ι σ κ) : Prop := ∃ i, Q (t.pc i)

instance [Fintype ι] (Q : κ → Prop) [DecidablePred Q] (t : Threads ι σ κ) : Decidable (t.Any Q) :=
  inferInstanceAs (Decidable (∃ i, Q (t.pc i)))

/-- A thread holds the mutex exactly while it is inside. -/
def Locked (inside : κ → Bool) (t : Threads ι σ κ) : Prop :=
  ∀ i, t.holder = some i ↔ inside (t.pc i) = true

variable [DecidableEq ι]

/-- Thread `i` moves to position `p` and leaves the shared state `s`; the mutex follows. -/
def advance (inside : κ → Bool) (t : Threads ι σ κ) (i : ι) (s : σ) (p : κ) :
    Threads ι σ κ where
  shared := s
  holder := if inside p then some i else if inside (t.pc i) then none else t.holder
  pc := Function.update t.pc i p

section Advance

variable {inside : κ → Bool} {t : Threads ι σ κ} {i : ι} {s : σ} {p : κ} {Q : κ → Prop}

@[simp]
theorem shared_advance : (t.advance inside i s p).shared = s := rfl

@[simp]
theorem pc_advance_self : (t.advance inside i s p).pc i = p := by
  simp [advance]

theorem pc_advance_of_ne {j : ι} (h : j ≠ i) : (t.advance inside i s p).pc j = t.pc j := by
  simp [advance, h]

theorem forall_pc_advance :
    (∀ j, Q ((t.advance inside i s p).pc j)) ↔ Q p ∧ ∀ j, j ≠ i → Q (t.pc j) :=
  Function.forall_update_iff t.pc fun _ q => Q q

/-- What holds of all threads and of the new position holds after the step. -/
theorem forall_advance (h : ∀ j, Q (t.pc j)) (hp : Q p) (j : ι) :
    Q ((t.advance inside i s p).pc j) :=
  forall_pc_advance.mpr ⟨hp, fun j _ => h j⟩ j

theorem any_advance : (t.advance inside i s p).Any Q ↔ Q p ∨ ∃ j, j ≠ i ∧ Q (t.pc j) :=
  Function.exists_update_iff t.pc fun _ q => Q q

theorem any_advance_self (h : Q p) : (t.advance inside i s p).Any Q :=
  any_advance.mpr (.inl h)

/-- A thread that keeps the property does not end that some thread has it. -/
theorem Any.advance (h : t.Any Q) (hQ : Q (t.pc i) → Q p) : (t.advance inside i s p).Any Q := by
  obtain ⟨j, hj⟩ := h
  rw [any_advance]
  by_cases hji : j = i
  · exact .inl (hQ (hji ▸ hj))
  · exact .inr ⟨j, hji, hj⟩

/-- A step between positions that agree on the property is not seen by it. -/
theorem any_advance_congr (h : Q p ↔ Q (t.pc i)) : (t.advance inside i s p).Any Q ↔ t.Any Q := by
  refine ⟨fun hany => ?_, fun hany => hany.advance h.mpr⟩
  rcases any_advance.mp hany with hp | ⟨j, -, hj⟩
  · exact ⟨i, h.mp hp⟩
  · exact ⟨j, hj⟩

/-- The mutex stays with the thread inside. -/
theorem Locked.advance (h : t.Locked inside)
    (hfree : inside p = true → inside (t.pc i) = true ∨ t.holder = none) :
    (t.advance inside i s p).Locked inside := by
  intro j
  -- before the step nobody but thread `i` was inside, if it is inside now
  have hother (hne : j ≠ i) (hi : inside (t.pc i) = true) : ¬ inside (t.pc j) = true := by
    intro hj
    exact hne (Option.some.inj (((h j).mpr hj).symm.trans ((h i).mpr hi)))
  show (if inside p then some i else if inside (t.pc i) then none else t.holder) = some j ↔ _
  by_cases hji : j = i
  · subst hji
    rw [pc_advance_self]
    split_ifs with hp hj
    · simp [hp]
    · simp [hp]
    · simp [hp, h j, hj]
  · rw [pc_advance_of_ne hji]
    split_ifs with hp hi
    · have hj : ¬ inside (t.pc j) = true := by
        rcases hfree hp with hi | hnone
        · exact hother hji hi
        · rw [← h j, hnone]
          simp
      simp [hj, Ne.symm hji]
    · simp [hother hji hi]
    · exact h j

end Advance

end Threads

namespace Script

open Threads (Event)

variable {ι σ κ τ χ ε ο : Type*} [DecidableEq ι] (S : Script σ κ τ χ ε ο)

/-- A step of thread `i` that would enter a critical section while the mutex is taken. -/
def blocked (t : Threads ι σ κ) (i : ι) (x : ε) : Bool :=
  S.inside (S.step t.shared x (t.pc i)).2.1 && !S.inside (t.pc i) && t.holder.isSome

/-- The threads in any order. -/
def machine (ι : Type*) [DecidableEq ι] :
    Machine (Threads ι σ κ) (Event ι τ χ ε) (Option ο) where
  step t
    | .tick d => ({ t with shared := S.tick t.shared d }, none)
    | .invoke i c =>
      if S.isIdle (t.pc i) then
        (t.advance S.inside i t.shared (S.start t.shared c).1, (S.start t.shared c).2)
      else (t, none)
    | .resume i x =>
      if S.blocked t i x then (t, none)
      else
        let r := S.step t.shared x (t.pc i)
        (t.advance S.inside i r.1 r.2.1, r.2.2)

variable {S} {t : Threads ι σ κ}

theorem next_invoke (i : ι) (c : χ) : (S.machine ι).next t (.invoke i c) =
    if S.isIdle (t.pc i) then t.advance S.inside i t.shared (S.start t.shared c).1 else t := by
  show (if _ then (_, _) else (t, none) : _ × _).1 = _
  split_ifs <;> rfl

theorem next_resume (i : ι) (x : ε) : (S.machine ι).next t (.resume i x) =
    if S.blocked t i x then t
    else t.advance S.inside i (S.step t.shared x (t.pc i)).1 (S.step t.shared x (t.pc i)).2.1 := by
  show (if _ then (t, none) else _ : _ × _).1 = _
  split_ifs <;> rfl

theorem answer_invoke (i : ι) (c : χ) : (S.machine ι).answer t (.invoke i c) =
    if S.isIdle (t.pc i) then (S.start t.shared c).2 else none := by
  show (if _ then (_, _) else (t, none) : _ × _).2 = _
  split_ifs <;> rfl

theorem answer_resume (i : ι) (x : ε) : (S.machine ι).answer t (.resume i x) =
    if S.blocked t i x then none else (S.step t.shared x (t.pc i)).2.2 := by
  show (if _ then (t, none) else _ : _ × _).2 = _
  split_ifs <;> rfl

omit [DecidableEq ι] in
/-- A step that is not blocked enters a critical section from inside one, or finds the mutex
free. -/
theorem free_of_not_blocked {i : ι} {x : ε} (h : ¬ S.blocked t i x = true)
    (hp : S.inside (S.step t.shared x (t.pc i)).2.1 = true) :
    S.inside (t.pc i) = true ∨ t.holder = none := by
  rw [blocked, hp, Bool.true_and, Bool.and_eq_true, not_and_or] at h
  simpa using h

/-- **Mutual exclusion.** One event keeps the mutex with the thread inside. -/
theorem locked_next (h : t.Locked S.inside) (ev : Event ι τ χ ε) :
    ((S.machine ι).next t ev).Locked S.inside := by
  cases ev with
  | tick d => exact h
  | invoke i c =>
    rw [next_invoke]
    split_ifs
    · exact h.advance fun hp => absurd hp (by simp [S.inside_start])
    · exact h
  | resume i x =>
    rw [next_resume]
    split_ifs with hb
    · exact h
    · exact h.advance (free_of_not_blocked hb)

/-- **Mutual exclusion.** In every run a thread is inside exactly while it holds the mutex. -/
theorem locked_run (h : t.Locked S.inside) (evs : List (Event ι τ χ ε)) :
    ((S.machine ι).run t evs).Locked S.inside :=
  (S.machine ι).run_invariant_of_forall (I := Threads.Locked S.inside) (P := fun _ => True)
    (fun _ ev ht _ => locked_next ht ev) h fun _ _ => trivial

/-- **Invariant rule for threads.** What holds of the threads with their mutex is kept along a
run if the environment keeps it, a thread that starts a call keeps it, and a thread keeps it
by each step that is not blocked. -/
theorem run_invariant {I : Threads ι σ κ → Prop} {P : Threads ι σ κ → Event ι τ χ ε → Prop}
    (htick : ∀ (t : Threads ι σ κ) d, I t → P t (.tick d) →
      I { t with shared := S.tick t.shared d })
    (hinvoke : ∀ (t : Threads ι σ κ) i c, I t → P t (.invoke i c) → S.isIdle (t.pc i) = true →
      I (t.advance S.inside i t.shared (S.start t.shared c).1))
    (hresume : ∀ (t : Threads ι σ κ) i x, I t → t.Locked S.inside → P t (.resume i x) →
      ¬ S.blocked t i x = true →
      I (t.advance S.inside i (S.step t.shared x (t.pc i)).1 (S.step t.shared x (t.pc i)).2.1))
    {evs : List (Event ι τ χ ε)} (ht : I t) (hlock : t.Locked S.inside)
    (hevs : (S.machine ι).Along P t evs) : I ((S.machine ι).run t evs) := by
  refine ((S.machine ι).run_invariant (I := fun t => I t ∧ t.Locked S.inside) ?_ ⟨ht, hlock⟩
    hevs).1
  rintro t ev ⟨ht, hlock⟩ hP
  refine ⟨?_, locked_next hlock ev⟩
  cases ev with
  | tick d => exact htick t d ht hP
  | invoke i c =>
    rw [next_invoke]
    split_ifs with hidle
    · exact hinvoke t i c ht hP hidle
    · exact ht
  | resume i x =>
    rw [next_resume]
    split_ifs with hb
    · exact ht
    · exact hresume t i x ht hlock hP hb

/-- The mutex protects what a thread inside knows of the shared state: no step that is taken
outside, and no move of the environment, makes it wrong. `I` holds of the shared state at all
times, `K` is the knowledge that goes with a position. -/
structure Protects (S : Script σ κ τ χ ε ο) (I : σ → Prop) (K : σ → κ → Prop) : Prop where
  outside {s : σ} {p : κ} : S.inside p = false → K s p
  tick {s : σ} (d : τ) : I s → I (S.tick s d) ∧ ∀ p, K s p → K (S.tick s d) p
  own {s : σ} (x : ε) {p : κ} : I s → K s p →
    I (S.step s x p).1 ∧ K (S.step s x p).1 (S.step s x p).2.1
  other {s : σ} (x : ε) {p q : κ} : S.inside p = false → K s q → K (S.step s x p).1 q

/-- **Protection.** Every event keeps what the threads know. -/
theorem Protects.next {I : σ → Prop} {K : σ → κ → Prop} (h : S.Protects I K) (hI : I t.shared)
    (hK : ∀ j, K t.shared (t.pc j)) (hlock : t.Locked S.inside) (ev : Event ι τ χ ε) :
    I ((S.machine ι).next t ev).shared ∧
      ∀ j, K ((S.machine ι).next t ev).shared (((S.machine ι).next t ev).pc j) := by
  cases ev with
  | tick d =>
    obtain ⟨hI', hK'⟩ := h.tick d hI
    exact ⟨hI', fun j => hK' _ (hK j)⟩
  | invoke i c =>
    rw [next_invoke]
    split_ifs
    · exact ⟨hI, Threads.forall_advance (Q := K t.shared) hK (h.outside (S.inside_start _ c))⟩
    · exact ⟨hI, hK⟩
  | resume i x =>
    rw [next_resume]
    split_ifs
    · exact ⟨hI, hK⟩
    · obtain ⟨hI', hown⟩ := h.own x hI (hK i)
      refine ⟨hI', Threads.forall_pc_advance.mpr ⟨hown, fun j hj => ?_⟩⟩
      by_cases hi : S.inside (t.pc i) = true
      · -- the others are outside, and know nothing
        refine h.outside (Bool.not_eq_true _ ▸ fun hin => hj ?_)
        exact Option.some.inj (((hlock j).mpr hin).symm.trans ((hlock i).mpr hi))
      · exact h.other x (Bool.not_eq_true _ ▸ hi) (hK j)

/-- **Protection.** In every run the threads know what they know by their positions. -/
theorem Protects.run {I : σ → Prop} {K : σ → κ → Prop} (h : S.Protects I K) (hI : I t.shared)
    (hK : ∀ j, K t.shared (t.pc j)) (hlock : t.Locked S.inside) (evs : List (Event ι τ χ ε)) :
    I ((S.machine ι).run t evs).shared ∧
      ∀ j, K ((S.machine ι).run t evs).shared (((S.machine ι).run t evs).pc j) := by
  refine (S.machine ι).run_history
    (C := fun _ u => I u.shared ∧ ∀ j, K u.shared (u.pc j)) ⟨hI, hK⟩ (fun js ev hu => ?_) evs
  exact h.next hu.1 hu.2 (locked_run hlock js) ev

end Script
