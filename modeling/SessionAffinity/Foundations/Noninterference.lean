import SessionAffinity.Foundations.Machine

/-!
# Noninterference

The calls on a machine may belong to owners, or to nobody. An owner sees its own calls and
their answers (`view`), and the other owners do not interfere with it if the run with their
calls deleted (`purge`) looks the same. Two states are alike to an owner if it cannot tell
them apart; `Unwinding` lists what one call has to do for this relation to decide the
matter. Then whole runs do not interfere (`Unwinding.run`, `Unwinding.view_trace`), and the calls of
different owners commute if states that are alike to everybody are equal
(`Unwinding.commute`).

`beside` puts two machines next to each other, and the conditions on the parts give those on
the whole (`Unwinding.beside`).
-/

namespace Machine

variable {σ τ ι ι' ο ο' κ : Type*}

/-- The calls of one owner with their effects on what another can tell apart. -/
structure Unwinding (M : Machine σ ι ο) (owner : ι → Option κ) (k : κ)
    (alike : σ → σ → Prop) : Prop where
  equiv : Equivalence alike
  /-- The calls of others change nothing that `k` can see. -/
  other {s : σ} {i : ι} : owner i ≠ none → owner i ≠ some k → alike (M.next s i) s
  /-- All other calls do the same to states that are alike. -/
  next {s u : σ} {i : ι} : owner i = none ∨ owner i = some k → alike s u →
    alike (M.next s i) (M.next u i)
  /-- Calls of `k` are answered alike in states that are alike. -/
  answer {s u : σ} {i : ι} : owner i = some k → alike s u → M.answer s i = M.answer u i

section Calls

variable {M : Machine σ ι ο} {owner : ι → Option κ} {k : κ} {alike : σ → σ → Prop}
  (h : M.Unwinding owner k alike)
include h

/-- A call of another owner that only one of two states takes keeps them alike. -/
theorem Unwinding.skip {s u : σ} {i : ι} (hi : ¬ (owner i = none ∨ owner i = some k))
    (hs : alike s u) : alike (M.next s i) u := by
  obtain ⟨hnone, hk⟩ := not_or.mp hi
  exact h.equiv.trans (h.other hnone hk) hs

/-- To `k`, a call of another owner may as well come after the next call. -/
theorem Unwinding.swap {i j : ι} (hnone : owner i ≠ none) (hk : owner i ≠ some k) (s : σ) :
    alike (M.next (M.next s i) j) (M.next (M.next s j) i) := by
  have hlate : alike (M.next (M.next s j) i) (M.next s j) := h.other hnone hk
  refine h.equiv.trans ?_ (h.equiv.symm hlate)
  by_cases hj : owner j = none ∨ owner j = some k
  · exact h.next hj (h.other hnone hk)
  · have hearly : alike (M.next s i) s := h.other hnone hk
    have hboth : alike (M.next (M.next s i) j) s := h.skip hj hearly
    have halone : alike (M.next s j) s := h.skip hj (h.equiv.refl s)
    exact h.equiv.trans hboth (h.equiv.symm halone)

/-- A call of `k` is answered alike before and after a call of another owner. -/
theorem Unwinding.answer_after {i j : ι} (hi : owner i = some k) (hnone : owner j ≠ none)
    (hj : owner j ≠ some k) (s : σ) : M.answer (M.next s j) i = M.answer s i :=
  h.answer hi (h.other hnone hj)

end Calls

/-- **Calls of different owners commute** when states that are alike to all owners are
equal. -/
theorem Unwinding.commute {M : Machine σ ι ο} {owner : ι → Option κ}
    {alike : κ → σ → σ → Prop} (h : ∀ k, M.Unwinding owner k (alike k))
    (hext : ∀ s u, (∀ k, alike k s u) → s = u) {i j : ι} {k k' : κ} (hi : owner i = some k)
    (hj : owner j = some k') (hne : k ≠ k') (s : σ) :
    M.next (M.next s i) j = M.next (M.next s j) i := by
  refine hext _ _ fun l => ?_
  by_cases hl : k = l
  · -- to the owner of `i` the other call is `j`
    have hother : owner j ≠ some l := by
      intro hjl
      have hkl : k' = l := Option.some.inj (hj.symm.trans hjl)
      exact hne (hl.trans hkl.symm)
    exact (h l).equiv.symm ((h l).swap (by simp [hj]) hother s)
  · have hother : owner i ≠ some l := fun hil => hl (Option.some.inj (hi.symm.trans hil))
    exact (h l).swap (by simp [hi]) hother s

/-! ### Runs -/

section Runs

variable [DecidableEq κ] (owner : ι → Option κ) (k : κ)

/-- A run without the calls of the other owners. -/
def purge (is : List ι) : List ι := is.filter fun i => owner i = none ∨ owner i = some k

/-- What an owner sees of a run. -/
def view (trace : List (ι × ο)) : List (ι × ο) := trace.filter fun c => owner c.1 = some k

theorem purge_cons (i : ι) (is : List ι) : purge owner k (i :: is) =
    if owner i = none ∨ owner i = some k then i :: purge owner k is else purge owner k is := by
  simp [purge, List.filter_cons]

theorem view_cons (i : ι) (a : ο) (trace : List (ι × ο)) : view owner k ((i, a) :: trace) =
    if owner i = some k then (i, a) :: view owner k trace else view owner k trace := by
  simp [view, List.filter_cons]

variable {owner k} {M : Machine σ ι ο} {alike : σ → σ → Prop} (h : M.Unwinding owner k alike)
include h

/-- **Runs do not interfere**: the states after them are alike. -/
theorem Unwinding.run {s u : σ} (hs : alike s u) (is : List ι) :
    alike (M.run s is) (M.run u (purge owner k is)) := by
  induction is generalizing s u with
  | nil => exact hs
  | cons i is ih =>
    rw [purge_cons]
    split_ifs with hi
    · exact ih (h.next hi hs)
    · exact ih (h.skip hi hs)

/-- **Runs do not interfere**: the owner sees the same. -/
theorem Unwinding.view_trace {s u : σ} (hs : alike s u) (is : List ι) :
    view owner k (M.trace s is) = view owner k (M.trace u (purge owner k is)) := by
  induction is generalizing s u with
  | nil => rfl
  | cons i is ih =>
    rw [purge_cons, trace_cons, view_cons]
    by_cases hi : owner i = none ∨ owner i = some k
    · have htail := ih (h.next hi hs)
      rw [if_pos hi, trace_cons, view_cons, htail]
      split_ifs with hk
      · rw [h.answer hk hs]
      · rfl
    · have hk : owner i ≠ some k := (not_or.mp hi).2
      rw [if_neg hi, if_neg hk]
      exact ih (h.skip hi hs)

end Runs

/-! ### Machines side by side -/

/-- Two machines next to each other: a call goes to one of them. -/
def beside (M : Machine σ ι ο) (N : Machine τ ι' ο') : Machine (σ × τ) (ι ⊕ ι') (ο ⊕ ο') where
  step s
    | .inl i => ((M.next s.1 i, s.2), .inl (M.answer s.1 i))
    | .inr j => ((s.1, N.next s.2 j), .inr (N.answer s.2 j))

/-- The parts do not interfere if neither does. -/
protected theorem Unwinding.beside {M : Machine σ ι ο} {N : Machine τ ι' ο'}
    {owner : ι → Option κ} {owner' : ι' → Option κ} {k : κ} {alike : σ → σ → Prop}
    {alike' : τ → τ → Prop} (h : M.Unwinding owner k alike) (h' : N.Unwinding owner' k alike') :
    (M.beside N).Unwinding (Sum.elim owner owner') k
      (fun s u => alike s.1 u.1 ∧ alike' s.2 u.2) where
  equiv :=
    ⟨fun s => ⟨h.equiv.refl s.1, h'.equiv.refl s.2⟩,
      fun hs => ⟨h.equiv.symm hs.1, h'.equiv.symm hs.2⟩,
      fun hs hu => ⟨h.equiv.trans hs.1 hu.1, h'.equiv.trans hs.2 hu.2⟩⟩
  other {s i} hnone hk := by
    rcases i with i | j
    · exact ⟨h.other hnone hk, h'.equiv.refl s.2⟩
    · exact ⟨h.equiv.refl s.1, h'.other hnone hk⟩
  next {s u i} hi hs := by
    rcases i with i | j
    · exact ⟨h.next hi hs.1, hs.2⟩
    · exact ⟨hs.1, h'.next hi hs.2⟩
  answer {s u i} hi hs := by
    rcases i with i | j
    · exact congrArg Sum.inl (h.answer hi hs.1)
    · exact congrArg Sum.inr (h'.answer hi hs.2)

end Machine
