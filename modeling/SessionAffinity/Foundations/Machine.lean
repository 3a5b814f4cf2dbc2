import Mathlib

/-!
# Deterministic machines and their runs

A `Machine σ ι ο` takes a state and an input to the next state and an output: the shape of
an object whose methods are called one after another. `run` is the state after a list of
calls, `trace` the list of the calls made with the answers they got, `watch` the account that
an observer of the run arrives at, and `Along P` says that every call of a run meets `P` at
the state it is made in.

The rules below are the only inductions over runs that the development needs: an invariant
that every permitted step keeps holds along every permitted run (`run_invariant`), and it
holds of the run together with the calls that led to it (`run_history`), or with what an
observer made of them (`watch_invariant`).
-/

/-- A deterministic machine: a state and an input give the next state and an output. -/
structure Machine (σ ι ο : Type*) where
  /-- One call: the state it leaves and the answer it gives. -/
  step : σ → ι → σ × ο

namespace Machine

variable {σ ι ο : Type*} (M : Machine σ ι ο)

/-- The state after one call. -/
def next (s : σ) (i : ι) : σ := (M.step s i).1

/-- The answer to one call. -/
def answer (s : σ) (i : ι) : ο := (M.step s i).2

/-- The state after a list of calls. -/
def run (s : σ) (is : List ι) : σ := is.foldl M.next s

/-- The calls of a run, each with its answer, in order. -/
def trace : σ → List ι → List (ι × ο)
  | _, [] => []
  | s, i :: is => (i, M.answer s i) :: trace (M.next s i) is

/-- The account of an observer: it starts with `g` and is brought up to date at every call. -/
def watch {γ : Type*} (f : σ → ι → γ → γ) : σ → γ → List ι → γ
  | _, g, [] => g
  | s, g, i :: is => watch f (M.next s i) (f s i g) is

/-- Every call of the run meets `P` at the state it is made in. -/
def Along (P : σ → ι → Prop) : σ → List ι → Prop
  | _, [] => True
  | s, i :: is => P s i ∧ Along P (M.next s i) is

/-! ### Runs -/

@[simp]
theorem run_nil (s : σ) : M.run s [] = s := rfl

@[simp]
theorem run_cons (s : σ) (i : ι) (is : List ι) : M.run s (i :: is) = M.run (M.next s i) is := rfl

theorem run_append (s : σ) (is js : List ι) : M.run s (is ++ js) = M.run (M.run s is) js :=
  List.foldl_append

theorem run_concat (s : σ) (is : List ι) (i : ι) :
    M.run s (is ++ [i]) = M.next (M.run s is) i := by
  rw [run_append, run_cons, run_nil]

@[simp]
theorem trace_nil (s : σ) : M.trace s [] = [] := rfl

@[simp]
theorem trace_cons (s : σ) (i : ι) (is : List ι) :
    M.trace s (i :: is) = (i, M.answer s i) :: M.trace (M.next s i) is := rfl

theorem map_fst_trace (s : σ) (is : List ι) : (M.trace s is).map Prod.fst = is := by
  induction is generalizing s with
  | nil => rfl
  | cons i is ih => rw [trace_cons, List.map_cons, ih]

theorem trace_append (s : σ) (is js : List ι) :
    M.trace s (is ++ js) = M.trace s is ++ M.trace (M.run s is) js := by
  induction is generalizing s with
  | nil => rfl
  | cons i is ih => rw [List.cons_append, trace_cons, trace_cons, List.cons_append, ih, run_cons]

theorem trace_concat (s : σ) (is : List ι) (i : ι) :
    M.trace s (is ++ [i]) = M.trace s is ++ [(i, M.answer (M.run s is) i)] := by
  rw [trace_append, trace_cons, trace_nil]

section Watch

variable {γ : Type*} (f : σ → ι → γ → γ)

@[simp]
theorem watch_nil (s : σ) (g : γ) : M.watch f s g [] = g := rfl

@[simp]
theorem watch_cons (s : σ) (g : γ) (i : ι) (is : List ι) :
    M.watch f s g (i :: is) = M.watch f (M.next s i) (f s i g) is := rfl

theorem watch_append (s : σ) (g : γ) (is js : List ι) :
    M.watch f s g (is ++ js) = M.watch f (M.run s is) (M.watch f s g is) js := by
  induction is generalizing s g with
  | nil => rfl
  | cons i is ih => rw [List.cons_append, watch_cons, ih, run_cons, watch_cons]

theorem watch_concat (s : σ) (g : γ) (is : List ι) (i : ι) :
    M.watch f s g (is ++ [i]) = f (M.run s is) i (M.watch f s g is) := by
  rw [watch_append, watch_cons, watch_nil]

end Watch

/-! ### Permitted runs -/

@[simp]
theorem along_nil (P : σ → ι → Prop) (s : σ) : M.Along P s [] := trivial

@[simp]
theorem along_cons {P : σ → ι → Prop} {s : σ} {i : ι} {is : List ι} :
    M.Along P s (i :: is) ↔ P s i ∧ M.Along P (M.next s i) is := Iff.rfl

theorem along_append {P : σ → ι → Prop} {s : σ} {is js : List ι} :
    M.Along P s (is ++ js) ↔ M.Along P s is ∧ M.Along P (M.run s is) js := by
  induction is generalizing s with
  | nil => simp
  | cons i is ih => rw [List.cons_append, along_cons, along_cons, ih, run_cons, and_assoc]

theorem along_concat {P : σ → ι → Prop} {s : σ} {is : List ι} {i : ι} :
    M.Along P s (is ++ [i]) ↔ M.Along P s is ∧ P (M.run s is) i := by
  rw [along_append, along_cons, and_iff_left (M.along_nil P _)]

/-- A condition on the calls alone holds along a run as soon as every call meets it. -/
theorem along_of_forall {P : ι → Prop} {s : σ} {is : List ι} (h : ∀ i ∈ is, P i) :
    M.Along (fun _ i => P i) s is := by
  induction is generalizing s with
  | nil => exact M.along_nil _ s
  | cons i is ih =>
    exact ⟨h i List.mem_cons_self, ih fun j hj => h j (List.mem_cons_of_mem i hj)⟩

theorem Along.of_prefix {P : σ → ι → Prop} {s : σ} {is js : List ι} (h : M.Along P s is)
    (hjs : js <+: is) : M.Along P s js := by
  obtain ⟨rest, rfl⟩ := hjs
  exact (M.along_append.mp h).1

/-- A run is permitted if each of its calls is, after the calls before it. -/
theorem along_iff_forall_prefix {P : σ → ι → Prop} {s : σ} {is : List ι} :
    M.Along P s is ↔ ∀ js i, js ++ [i] <+: is → P (M.run s js) i := by
  constructor
  · intro h js i hjs
    exact (M.along_concat.mp (Along.of_prefix M h hjs)).2
  · intro h
    induction is generalizing s with
    | nil => trivial
    | cons i is ih =>
      refine ⟨h [] i ((List.prefix_cons_inj i).mpr List.nil_prefix), ih fun js j hjs => ?_⟩
      exact h (i :: js) j ((List.prefix_cons_inj i).mpr hjs)

instance instDecidableAlong {P : σ → ι → Prop} [∀ s i, Decidable (P s i)] :
    ∀ (s : σ) (is : List ι), Decidable (M.Along P s is)
  | _, [] => isTrue trivial
  | s, i :: is =>
    haveI : Decidable (M.Along P (M.next s i) is) := instDecidableAlong (M.next s i) is
    inferInstanceAs (Decidable (P s i ∧ M.Along P (M.next s i) is))

/-! ### The invariant rules -/

/-- **Invariant rule.** What every permitted step keeps holds after every permitted run. -/
theorem run_invariant {I : σ → Prop} {P : σ → ι → Prop}
    (hstep : ∀ s i, I s → P s i → I (M.next s i)) {s : σ} {is : List ι} (hs : I s)
    (his : M.Along P s is) : I (M.run s is) := by
  induction is generalizing s with
  | nil => exact hs
  | cons i is ih => exact ih (hstep s i hs his.1) his.2

/-- **Invariant rule, all calls permitted.** -/
theorem run_invariant_of_forall {I : σ → Prop} {P : ι → Prop}
    (hstep : ∀ s i, I s → P i → I (M.next s i)) {s : σ} {is : List ι} (hs : I s)
    (his : ∀ i ∈ is, P i) : I (M.run s is) :=
  M.run_invariant hstep hs (M.along_of_forall his)

/-- **History rule.** An invariant of the calls made so far together with the state they
led to, kept by every further call, holds of every run. -/
theorem run_history {s : σ} {C : List ι → σ → Prop} (hnil : C [] s)
    (hsnoc : ∀ is i, C is (M.run s is) → C (is ++ [i]) (M.next (M.run s is) i))
    (is : List ι) : C is (M.run s is) := by
  induction is using List.reverseRecOn with
  | nil => exact hnil
  | append_singleton is i ih =>
    rw [run_concat]
    exact hsnoc is i ih

/-- **Observer rule.** What every permitted step keeps of the state together with the account
of an observer holds of every permitted run. -/
theorem watch_invariant {γ : Type*} {f : σ → ι → γ → γ} {I : σ → γ → Prop} {P : σ → ι → Prop}
    (hstep : ∀ s g i, I s g → P s i → I (M.next s i) (f s i g)) {s : σ} {g : γ} {is : List ι}
    (hs : I s g) (his : M.Along P s is) : I (M.run s is) (M.watch f s g is) := by
  induction is generalizing s g with
  | nil => exact hs
  | cons i is ih => exact ih (hstep s g i hs his.1) his.2

/-- **Observer rule, all calls permitted.** -/
theorem watch_invariant_of_forall {γ : Type*} {f : σ → ι → γ → γ} {I : σ → γ → Prop}
    {P : ι → Prop} (hstep : ∀ s g i, I s g → P i → I (M.next s i) (f s i g)) {s : σ} {g : γ}
    {is : List ι} (hs : I s g) (his : ∀ i ∈ is, P i) : I (M.run s is) (M.watch f s g is) :=
  M.watch_invariant hstep hs (M.along_of_forall his)

/-! ### Silent calls -/

/-- **Silent-call rule.** Relate two runs, of which one makes some silent calls more. If these
keep it related to the other, and the calls that both make are answered alike and keep them
related, then all that can be seen of the two runs is the same. The relation may speak of the
calls that are still to come. -/
theorem trace_filter_of_silent {silent : ι → Bool} {R : List ι → σ → σ → Prop}
    (hsilent : ∀ i is s u, silent i = true → R (i :: is) s u → R is (M.next s i) u)
    (hcall : ∀ i is s u, silent i = false → R (i :: is) s u →
      M.answer s i = M.answer u i ∧ R is (M.next s i) (M.next u i))
    {s u : σ} {is : List ι} (h : R is s u) :
    ((M.trace s is).filter fun c => !silent c.1) = M.trace u (is.filter fun i => !silent i) := by
  induction is generalizing s u with
  | nil => rfl
  | cons i is ih =>
    cases hi : silent i with
    | true =>
      have hnext := hsilent i is s u hi h
      rw [trace_cons, List.filter_cons_of_neg (by simp [hi]),
        List.filter_cons_of_neg (by simp [hi]), ih hnext]
    | false =>
      obtain ⟨hans, hnext⟩ := hcall i is s u hi h
      rw [trace_cons, List.filter_cons_of_pos (by simp [hi]),
        List.filter_cons_of_pos (by simp [hi]), trace_cons, ih hnext, hans]

/-- **Until rule.** If permitted steps are the ones that keep a condition, then it holds at
every point of a run exactly when every step of the run is permitted. -/
theorem forall_prefix_iff_along {B : σ → Prop} {P : σ → ι → Prop} {s : σ} {is : List ι}
    (hstep : ∀ s, ∀ i ∈ is, B s → (B (M.next s i) ↔ P s i)) (hs : B s) :
    (∀ js, js <+: is → B (M.run s js)) ↔ M.Along P s is := by
  induction is generalizing s with
  | nil =>
    refine ⟨fun _ => trivial, fun _ js hjs => ?_⟩
    rw [List.prefix_nil.mp hjs]
    exact hs
  | cons i is ih =>
    have htail : ∀ s, ∀ j ∈ is, B s → (B (M.next s j) ↔ P s j) := fun s j hj =>
      hstep s j (List.mem_cons_of_mem i hj)
    constructor
    · intro h
      have hi : B (M.next s i) := h [i] ((List.prefix_cons_inj i).mpr List.nil_prefix)
      exact ⟨(hstep s i List.mem_cons_self hs).mp hi, (ih htail hi).mp fun js hjs =>
        h (i :: js) ((List.prefix_cons_inj i).mpr hjs)⟩
    · rintro ⟨hi, his⟩ js hjs
      rcases List.prefix_cons_iff.mp hjs with rfl | ⟨js, rfl, hjs'⟩
      · exact hs
      · have hnext : B (M.next s i) := (hstep s i List.mem_cons_self hs).mpr hi
        exact (ih htail hnext).mpr his js hjs'

end Machine
