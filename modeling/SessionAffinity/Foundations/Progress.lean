import SessionAffinity.Foundations.Interleaving

/-!
# Threads that get through

Two things can keep threads from finishing their calls: they may wait for each other, and they
may run in circles. The one mutex of a `Script` excludes the first, since the thread that holds
it is never blocked (`exists_moves`). The second is excluded by a rank of the positions that every
step lowers (`wellFounded_moves`): then every schedule comes to an end if no new calls are made,
whatever time passes between the steps. The rank may be in any well-founded order, so that a loop
need not be bounded before it is entered.

`Choices` says which of the choices that a step depends on can occur at all.
-/

namespace Script

open Threads (Event)

variable {ι σ κ τ χ ε ο : Type*} [DecidableEq ι] (S : Script σ κ τ χ ε ο)

/-- Time passes, and a thread that is in a call takes a step of it. -/
inductive Moves (Choices : σ → ε → Prop) : Threads ι σ κ → Threads ι σ κ → Prop
  | step {t : Threads ι σ κ} (d : τ) {i : ι} {x : ε} (hbusy : S.isIdle (t.pc i) = false)
      (hx : Choices (S.tick t.shared d) x)
      (hfree : ¬ S.blocked { t with shared := S.tick t.shared d } i x = true) :
      Moves Choices t ((S.machine ι).run t [.tick d, .resume i x])

variable {S} {Choices : σ → ε → Prop}

/-- **No call runs in circles.** If every step lowers the rank of the position it is taken from,
then no schedule without new calls goes on forever. -/
theorem wellFounded_moves [Finite ι] {β : Type*} [Preorder β] [WellFoundedLT β] (rank : κ → β)
    (hrank : ∀ s x p, S.isIdle p = false → Choices s x → rank (S.step s x p).2.1 < rank p) :
    WellFounded fun t' t : Threads ι σ κ => S.Moves Choices t t' := by
  refine Subrelation.wf (r := InvImage (· < ·) fun t : Threads ι σ κ => fun i => rank (t.pc i))
    ?_ (InvImage.wf _ wellFounded_lt)
  rintro t' t ⟨d, hbusy, hx, hfree⟩
  rename_i i x
  have hstep := hrank (S.tick t.shared d) x (t.pc i) hbusy hx
  have hpc : ((S.machine ι).run t [.tick d, .resume i x]).pc = Function.update t.pc i
      (S.step (S.tick t.shared d) x (t.pc i)).2.1 := by
    show ((S.machine ι).next { t with shared := S.tick t.shared d } (.resume i x)).pc = _
    rw [next_resume, if_neg hfree]
    rfl
  show (fun j => rank (((S.machine ι).run t [.tick d, .resume i x]).pc j)) < fun j => rank (t.pc j)
  rw [hpc, Pi.lt_def]
  constructor
  · intro j
    by_cases hj : j = i
    · subst hj
      simpa using hstep.le
    · simp [hj]
  · exact ⟨i, by simpa using hstep⟩

/-- **No deadlock.** While a thread is in a call, some thread can take a step. -/
theorem exists_moves {t : Threads ι σ κ} (hlock : t.Locked S.inside) (d : τ)
    (hchoice : ∀ s, ∃ x, Choices s x) {i : ι} (hbusy : S.isIdle (t.pc i) = false) :
    ∃ t', S.Moves Choices t t' := by
  obtain ⟨x, hx⟩ := hchoice (S.tick t.shared d)
  cases hholder : t.holder with
  | none => exact ⟨_, .step d hbusy hx (by simp [blocked, hholder])⟩
  | some j =>
    -- the holder of the mutex is inside, and so in a call that is not blocked
    have hinside : S.inside (t.pc j) = true := (hlock j).mp hholder
    have hbusy' : S.isIdle (t.pc j) = false := by
      by_contra hidle
      rw [S.inside_idle (Bool.not_eq_false _ ▸ hidle)] at hinside
      exact Bool.noConfusion hinside
    exact ⟨_, .step d hbusy' hx (by simp [blocked, hinside])⟩

end Script
