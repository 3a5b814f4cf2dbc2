import Mathlib

/-!
# Sliding windows over time-stamped records

Records carry a time; a window of length `w` ending at `now` holds the records of age at most
`w`. Programs keep such a window as a queue from whose front the old records are evicted
(`evict`). On records in time order front eviction is the declarative window (`recent`), and
evicting early does not matter (`evict_recent_append`), so a queue that is evicted now and then
still answers for the whole history. A queue that is evicted just before a record is added is
`kept` of the history: what was recent at its last record. Between two records it grows stale, by
the records that have `departed`.

`Admitted m` describes the records that a window-counting rule lets through: each had fewer
than `m` earlier ones in the window ending at it. Then no closed interval of length `w`,
wherever it starts, holds more than `m` (`Admitted.length_within_le`), and of records in time
order with that bound the rule lets every one through (`admitted_iff`).
-/

namespace SlidingWindow

variable {T α : Type*} [AddCommGroup T] [LinearOrder T] (time : α → T) (w : T)

/-- The records in nondecreasing order of time. -/
abbrev Chronological (l : List α) : Prop := l.Pairwise fun a b => time a ≤ time b

/-- Evict the records of age above `w` from the front of a queue. -/
def evict (now : T) (q : List α) : List α := q.dropWhile fun r => decide (w < now - time r)

/-- The records of age at most `w`. -/
def recent (now : T) (l : List α) : List α := l.filter fun r => decide (now - time r ≤ w)

/-- The records inside the closed interval of length `w` that starts at `a`. -/
def within (a : T) (l : List α) : List α :=
  l.filter fun r => decide (a ≤ time r ∧ time r ≤ a + w)

/-- Eviction looks at times only. -/
theorem map_evict {β : Type*} (f : β → α) (now : T) (q : List β) :
    (evict (time ∘ f) w now q).map f = evict time w now (q.map f) := by
  rw [evict, evict, List.dropWhile_map]
  rfl

/-- The window looks at times only. -/
theorem map_recent {β : Type*} (f : β → α) (now : T) (q : List β) :
    (recent (time ∘ f) w now q).map f = recent time w now (q.map f) := by
  rw [recent, recent, List.filter_map]
  rfl

@[simp]
theorem recent_nil (now : T) : recent time w now [] = [] := rfl

theorem recent_append (now : T) (l l' : List α) :
    recent time w now (l ++ l') = recent time w now l ++ recent time w now l' :=
  List.filter_append ..

variable {time w} [IsOrderedAddMonoid T]

/-- **Front eviction is exact.** On records in time order, dropping the old ones from the
front leaves exactly the recent ones. -/
theorem evict_eq_recent {now : T} {q : List α} (hq : Chronological time q) :
    evict time w now q = recent time w now q := by
  induction q with
  | nil => rfl
  | cons r q ih =>
    obtain ⟨hr, hq⟩ := List.pairwise_cons.mp hq
    rcases lt_or_ge w (now - time r) with h | h
    · rw [evict, List.dropWhile_cons_of_pos (by simpa using h), recent,
        List.filter_cons_of_neg (by rw [decide_eq_true_eq]; exact not_le.mpr h)]
      exact ih hq
    · -- the front is young, and everything behind it is younger still
      have hall : ∀ a ∈ r :: q, decide (now - time a ≤ w) = true := by
        intro a ha
        rcases List.mem_cons.mp ha with rfl | ha
        · exact decide_eq_true h
        · exact decide_eq_true ((sub_le_sub_left (hr a ha) now).trans h)
      rw [evict, List.dropWhile_cons_of_neg (by simpa using h), recent,
        List.filter_eq_self.mpr hall]

/-- A record recent now was recent at every earlier time. -/
theorem recent_recent {now now' : T} (h : now' ≤ now) (l : List α) :
    recent time w now (recent time w now' l) = recent time w now l := by
  rw [recent, recent, recent, List.filter_filter]
  refine List.filter_congr fun r _ => ?_
  rw [Bool.and_eq_left_iff_imp, decide_eq_true_eq, decide_eq_true_eq]
  exact fun hr => (sub_le_sub_right h _).trans hr

/-- Evicting from a queue that was evicted earlier and has grown since loses nothing. -/
theorem evict_recent_append {now now' : T} (h : now' ≤ now) {l l' : List α}
    (hl : Chronological time (l ++ l')) :
    evict time w now (recent time w now' l ++ l') = recent time w now (l ++ l') := by
  have hsub : (recent time w now' l ++ l').Sublist (l ++ l') :=
    List.Sublist.append_right List.filter_sublist l'
  rw [evict_eq_recent (hl.sublist hsub), recent_append, recent_recent h, recent_append]

/-! ### Queues evicted at every record -/

variable (time w) in
/-- What a queue holds that is evicted just before a record is added: the last record, and
those before it that were recent then. -/
def kept (l : List α) : List α :=
  match l.getLast? with
  | none => []
  | some r => recent time w (time r) l.dropLast ++ [r]

variable (time w) in
/-- What such a queue still holds although it is out of the window. -/
def departed (now : T) (l : List α) : List α :=
  (kept time w l).filter fun r => decide (w < now - time r)

omit [IsOrderedAddMonoid T] in
@[simp]
theorem kept_nil : kept time w [] = [] := rfl

omit [IsOrderedAddMonoid T] in
theorem kept_concat (l : List α) (r : α) :
    kept time w (l ++ [r]) = recent time w (time r) l ++ [r] := by
  rw [kept, List.getLast?_concat, List.dropLast_concat]

omit [IsOrderedAddMonoid T] in
/-- What is kept is a matter of times only. -/
theorem map_kept {β : Type*} (f : β → α) (l : List β) :
    (kept (time ∘ f) w l).map f = kept time w (l.map f) := by
  induction l using List.reverseRecOn with
  | nil => rfl
  | append_singleton l r _ =>
    rw [kept_concat, List.map_append, map_recent, List.map_append, List.map_singleton,
      kept_concat]
    rfl

omit [IsOrderedAddMonoid T] in
theorem kept_sublist (l : List α) : (kept time w l).Sublist l := by
  induction l using List.reverseRecOn with
  | nil => exact List.Sublist.slnil
  | append_singleton l r _ =>
    rw [kept_concat]
    exact List.Sublist.append_right List.filter_sublist [r]

/-- A queue that is evicted at every record answers for the whole history. -/
theorem evict_kept {now : T} {l : List α} (hl : Chronological time l)
    (hnow : ∀ r ∈ l, time r ≤ now) : evict time w now (kept time w l) = recent time w now l := by
  induction l using List.reverseRecOn with
  | nil => rfl
  | append_singleton l r _ =>
    have hr : time r ≤ now := hnow r (by simp)
    rw [kept_concat, evict_recent_append hr hl]

/-- What a queue holds is what is recent, and what has departed. -/
theorem length_kept {now : T} {l : List α} (hl : Chronological time l)
    (hnow : ∀ r ∈ l, time r ≤ now) :
    (kept time w l).length = (recent time w now l).length + (departed time w now l).length := by
  have hkept : Chronological time (kept time w l) := hl.sublist (kept_sublist l)
  have hrecent : recent time w now (kept time w l) = recent time w now l := by
    rw [← evict_eq_recent hkept, evict_kept hl hnow]
  have hsplit := List.length_eq_length_filter_add (l := kept time w l)
    fun r => decide (now - time r ≤ w)
  have hdeparted : (kept time w l).filter (fun r => !decide (now - time r ≤ w)) =
      departed time w now l :=
    List.filter_congr fun r _ => by rw [← decide_not, decide_eq_decide, not_le]
  rw [hsplit, hdeparted, ← hrecent]
  rfl

/-! ### Admission by counting the window -/

variable (time w) in
/-- Records each of which had fewer than `m` earlier records in the window ending at it. -/
inductive Admitted (m : ℕ) : List α → Prop
  | nil : Admitted m []
  | snoc {p : List α} {r : α} :
      Admitted m p → (recent time w (time r) p).length < m → Admitted m (p ++ [r])

/-- **Window bound.** A closed interval of length `w` holds at most `m` admitted records. -/
theorem Admitted.length_within_le {m : ℕ} {l : List α} (hl : Admitted time w m l) (a : T) :
    (within time w a l).length ≤ m := by
  induction hl with
  | nil => exact Nat.zero_le m
  | @snoc p r _ hlt ih =>
    have hsplit : within time w a (p ++ [r]) = within time w a p ++ within time w a [r] :=
      List.filter_append ..
    rw [hsplit, List.length_append]
    by_cases hr : a ≤ time r ∧ time r ≤ a + w
    · -- every earlier record of the interval is in the window ending at `r`
      have hsub : (within time w a p).length ≤ (recent time w (time r) p).length := by
        refine List.Sublist.length_le (List.monotone_filter_right p fun x hx => ?_)
        have hx' : a ≤ time x ∧ time x ≤ a + w := of_decide_eq_true hx
        refine decide_eq_true ?_
        calc time r - time x ≤ (a + w) - a := sub_le_sub hr.2 hx'.1
          _ = w := add_sub_cancel_left a w
      have hone : (within time w a [r]).length ≤ 1 := List.length_filter_le _ _
      omega
    · have hnone : within time w a [r] = [] :=
        List.filter_eq_nil_iff.mpr fun x hx => by
          rw [List.mem_singleton.mp hx, decide_eq_true_eq]
          exact hr
      rw [hnone, List.length_nil]
      exact ih

omit [IsOrderedAddMonoid T] in
theorem admitted_concat {m : ℕ} {l : List α} {r : α} :
    Admitted time w m (l ++ [r]) ↔
      Admitted time w m l ∧ (recent time w (time r) l).length < m := by
  refine ⟨fun h => ?_, fun ⟨hl, hr⟩ => .snoc hl hr⟩
  generalize hl' : l ++ [r] = l' at h
  cases h with
  | nil => exact absurd hl' (by simp)
  | snoc hp hlt =>
    obtain ⟨rfl, hr⟩ := List.append_inj' hl' rfl
    rw [List.singleton_inj.mp hr]
    exact ⟨hp, hlt⟩

/-- The window that ends now is one of the closed intervals. -/
theorem length_recent_le_within {now : T} {l : List α} (hnow : ∀ r ∈ l, time r ≤ now) :
    (recent time w now l).length ≤ (within time w (now - w) l).length := by
  have hwindow : recent time w now l = within time w (now - w) l := by
    refine List.filter_congr fun r hr => ?_
    rw [decide_eq_decide, sub_add_cancel, and_iff_left (hnow r hr)]
    exact sub_le_comm
  rw [hwindow]

/-- **Windows that are never overfull.** The rule lets all of some records in time order through
exactly if no closed interval of length `w` holds more than `m` of them. -/
theorem admitted_iff {m : ℕ} {l : List α} (hw : 0 ≤ w) (hl : Chronological time l) :
    Admitted time w m l ↔ ∀ a, (within time w a l).length ≤ m := by
  refine ⟨fun h a => h.length_within_le a, fun h => ?_⟩
  induction l using List.reverseRecOn with
  | nil => exact .nil
  | append_singleton l r ih =>
    obtain ⟨hprev, -, hlast⟩ := List.pairwise_append.mp hl
    have hpast : ∀ x ∈ l, time x ≤ time r := fun x hx => hlast x hx r (List.mem_singleton_self r)
    have hsplit (a : T) : within time w a (l ++ [r]) = within time w a l ++ within time w a [r] :=
      List.filter_append ..
    refine .snoc (ih hprev fun a => ?_) ?_
    · have ha := h a
      rw [hsplit, List.length_append] at ha
      omega
    · -- the interval that ends at the record holds it, and the window before it
      have ha := h (time r - w)
      have hself : within time w (time r - w) [r] = [r] := by
        simp [within, hw]
      rw [hsplit, List.length_append, hself, List.length_singleton] at ha
      have := length_recent_le_within (w := w) hpast
      omega

end SlidingWindow
