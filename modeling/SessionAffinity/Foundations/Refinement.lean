import SessionAffinity.Foundations.Machine

/-!
# Machines made of machines

A call on one machine may come down to calls on another. `log` lists the calls that a run makes
in this way, and there are two ways to use it.

* **A part.** `Drives` says that what a machine keeps in one place moves by the listed calls of
  another machine. So it is, after every run, what a run of that machine leaves
  (`Drives.run`), and what is known of its runs holds inside the larger machine. For this the
  log has to be a run of the right kind: `sublist_log` and `pairwise_log` say when its calls
  come in the order of time.
* **A specification.** A `Refinement` also speaks of the answers: those given to the listed
  calls are the ones that the outside sees. Then all that is seen of a run is what the other
  machine answers to the log (`Refinement.run`).
-/

namespace Machine

variable {σ ι ο τ κ π : Type*}

section Log

variable (M : Machine σ ι ο) (calls : σ → ι → List κ)

/-- The calls that a run makes on another machine. -/
def log : σ → List ι → List κ
  | _, [] => []
  | s, i :: is => calls s i ++ log (M.next s i) is

@[simp]
theorem log_nil (s : σ) : M.log calls s [] = [] := rfl

@[simp]
theorem log_cons (s : σ) (i : ι) (is : List ι) :
    M.log calls s (i :: is) = calls s i ++ M.log calls (M.next s i) is := rfl

theorem log_append (s : σ) (is js : List ι) :
    M.log calls s (is ++ js) = M.log calls s is ++ M.log calls (M.run s is) js := by
  induction is generalizing s with
  | nil => rfl
  | cons i is ih => rw [List.cons_append, log_cons, ih, log_cons, List.append_assoc, run_cons]

theorem log_concat (s : σ) (is : List ι) (i : ι) :
    M.log calls s (is ++ [i]) = M.log calls s is ++ calls (M.run s is) i := by
  rw [log_append, log_cons, log_nil, List.append_nil]

/-- What every call makes, every call of the log is. -/
theorem forall_mem_log {P : κ → Prop} {s : σ} {is : List ι}
    (h : M.Along (fun s i => ∀ c ∈ calls s i, P c) s is) : ∀ c ∈ M.log calls s is, P c := by
  induction is generalizing s with
  | nil => exact fun c hc => absurd hc List.not_mem_nil
  | cons i is ih =>
    intro c hc
    rcases List.mem_append.mp hc with hc | hc
    · exact h.1 c hc
    · exact ih h.2 c hc

/-- The log reads the clocks of the run, if every call passes on clocks of its own. -/
theorem sublist_log {T : Type*} {f : ι → List T} {g : κ → List T}
    (h : ∀ s i, ((calls s i).flatMap g).Sublist (f i)) (s : σ) (is : List ι) :
    ((M.log calls s is).flatMap g).Sublist (is.flatMap f) := by
  induction is generalizing s with
  | nil => exact List.Sublist.slnil
  | cons i is ih =>
    rw [log_cons, List.flatMap_append, List.flatMap_cons]
    exact (h s i).append (ih _)

/-- **The log of a machine with a clock** is in the order of time, and in the past. -/
theorem pairwise_log {T : Type*} [Preorder T] (g : κ → List T) (clock : σ → T)
    (hmono : ∀ s i, clock s ≤ clock (M.next s i))
    (hcalls : ∀ s i, ((calls s i).flatMap g).Pairwise (· ≤ ·) ∧
      ∀ t ∈ (calls s i).flatMap g, clock s ≤ t ∧ t ≤ clock (M.next s i)) (s : σ) (is : List ι) :
    ((M.log calls s is).flatMap g).Pairwise (· ≤ ·) ∧
      ∀ t ∈ (M.log calls s is).flatMap g, t ≤ clock (M.run s is) := by
  induction is using List.reverseRecOn with
  | nil => exact ⟨List.Pairwise.nil, fun t ht => absurd ht List.not_mem_nil⟩
  | append_singleton is i ih =>
    obtain ⟨hsorted, hpast⟩ := ih
    obtain ⟨hnew, hnow⟩ := hcalls (M.run s is) i
    rw [log_concat, List.flatMap_append, run_concat]
    constructor
    · exact List.pairwise_append.mpr ⟨hsorted, hnew, fun t ht t' ht' =>
        (hpast t ht).trans (hnow t' ht').1⟩
    · intro t ht
      rcases List.mem_append.mp ht with ht | ht
      · exact (hpast t ht).trans (hmono _ i)
      · exact (hnow t ht).2

/-- What is kept of the answers of a run is a log as well. -/
theorem filterMap_trace (f : ι × ο → Option κ) (s : σ) (is : List ι) :
    (M.trace s is).filterMap f = M.log (fun s i => (f (i, M.answer s i)).toList) s is := by
  induction is generalizing s with
  | nil => rfl
  | cons i is ih =>
    rw [trace_cons, log_cons, ← ih, List.filterMap_cons]
    cases f (i, M.answer s i) <;> rfl

end Log

/-- What `view` shows of `M` moves by the calls listed on `N`. -/
def Drives (M : Machine σ ι ο) (N : Machine τ κ π) (view : σ → τ) (calls : σ → ι → List κ) :
    Prop :=
  ∀ s i, view (M.next s i) = N.run (view s) (calls s i)

/-- **A part of a machine** is after every run what the log of the run leaves. -/
theorem Drives.run {M : Machine σ ι ο} {N : Machine τ κ π} {view : σ → τ}
    {calls : σ → ι → List κ} (h : Drives M N view calls) (s : σ) (is : List ι) :
    view (M.run s is) = N.run (view s) (M.log calls s is) := by
  induction is generalizing s with
  | nil => rfl
  | cons i is ih => rw [run_cons, ih, h, log_cons, run_append]

/-- The log of a run is permitted if what every call of the run makes is. -/
theorem Drives.along {M : Machine σ ι ο} {N : Machine τ κ π} {view : σ → τ}
    {calls : σ → ι → List κ} (h : Drives M N view calls) {Q : τ → κ → Prop} {s : σ} {is : List ι}
    (his : M.Along (fun s i => N.Along Q (view s) (calls s i)) s is) :
    N.Along Q (view s) (M.log calls s is) := by
  induction is generalizing s with
  | nil => trivial
  | cons i is ih =>
    rw [log_cons, along_append, ← h s i]
    exact ⟨his.1, ih his.2⟩

/-- What every call logs by the calls it makes, the run logs by its own. -/
theorem Drives.log_log {ε : Type*} {M : Machine σ ι ο} {N : Machine τ κ π} {view : σ → τ}
    {calls : σ → ι → List κ} (h : Drives M N view calls) {lines : σ → ι → List ε}
    {lines' : τ → κ → List ε} (hlines : ∀ s i, lines s i = N.log lines' (view s) (calls s i))
    (s : σ) (is : List ι) : M.log lines s is = N.log lines' (view s) (M.log calls s is) := by
  induction is generalizing s with
  | nil => rfl
  | cons i is ih => rw [log_cons, log_cons, log_append, ih, hlines, ← h s i]

/-- `M` does what `N` does: its states are related to those of `N`, a call comes down to calls on
`N`, and the answers to these are what is seen of its own answer. -/
structure Refinement (M : Machine σ ι ο) (N : Machine τ κ π) where
  /-- The states of the two machines that go together. -/
  Rel : σ → τ → Prop
  /-- What a call comes down to. -/
  calls : σ → ι → List κ
  /-- What is seen of an answer. -/
  seen : ι → ο → List π
  next {s : σ} {u : τ} (i : ι) : Rel s u → Rel (M.next s i) (N.run u (calls s i))
  answers {s : σ} {u : τ} (i : ι) : Rel s u →
    (N.trace u (calls s i)).map Prod.snd = seen i (M.answer s i)

/-- **Refinement of runs.** Related states stay related, and what is seen of the answers is what
the specification answers to the log. -/
theorem Refinement.run {M : Machine σ ι ο} {N : Machine τ κ π} (ρ : Refinement M N) {s : σ}
    {u : τ} (h : ρ.Rel s u) (is : List ι) :
    ρ.Rel (M.run s is) (N.run u (M.log ρ.calls s is)) ∧
      (N.trace u (M.log ρ.calls s is)).map Prod.snd =
        (M.trace s is).flatMap fun c => ρ.seen c.1 c.2 := by
  induction is generalizing s u with
  | nil => exact ⟨h, rfl⟩
  | cons i is ih =>
    obtain ⟨hrel, hseen⟩ := ih (ρ.next i h)
    rw [run_cons, log_cons, run_append]
    refine ⟨hrel, ?_⟩
    rw [trace_append, List.map_append, ρ.answers i h, hseen, trace_cons, List.flatMap_cons]

/-- **Lockstep.** Machines that answer alike in related states, and stay related, have the same
traces. -/
theorem trace_eq_of_lockstep {M : Machine σ ι ο} {N : Machine τ ι ο} {R : σ → τ → Prop}
    (hstep : ∀ s u i, R s u → M.answer s i = N.answer u i ∧ R (M.next s i) (N.next u i)) {s : σ}
    {u : τ} (h : R s u) (is : List ι) : M.trace s is = N.trace u is := by
  induction is generalizing s u with
  | nil => rfl
  | cons i is ih =>
    obtain ⟨hanswer, hnext⟩ := hstep s u i h
    rw [trace_cons, trace_cons, hanswer, ih hnext]

end Machine
