import Mathlib

/-!
# Clockwise lookup in an ordered map

An ordered map read as a circle of positions: `clockwise? m x` is the first entry at or
after `x`, and the first entry of all when there is none (`lowerBound?`, then `begin?`).
The point of the module is that this walk is an argmin: for any distance `d` that measures
how far a position lies ahead of another round the circle (`RoundDistance`), `clockwise? m x`
is exactly the entry at the least distance from `x` (`clockwise?_eq_some_iff`). Everything a
client wants to know of a lookup in a larger or a smaller map follows from that
characterisation and never looks at the walk again.
-/

open Std (ExtTreeMap TransOrd LawfulEqOrd LawfulOrderOrd)

/-- `d x p` measures how far ahead of `x` the position `p` lies when the order is closed to
a circle: positions from `x` on come first in their order, then those before `x`. -/
structure RoundDistance {α : Type*} [LE α] (d : α → α → ℕ) : Prop where
  /-- From `x` on, later positions are further. -/
  ahead {x p q : α} : x ≤ p → p ≤ q → d x p ≤ d x q
  /-- Before `x`, later positions are further. -/
  behind {x p q : α} : p ≤ q → ¬x ≤ q → d x p ≤ d x q
  /-- Positions before `x` are further than those from `x` on. -/
  wrap {x p q : α} : x ≤ p → ¬x ≤ q → d x p ≤ d x q
  /-- Distinct positions lie at distinct distances. -/
  inj {x p q : α} : d x p = d x q → p = q

namespace OrderedMap

variable {α β : Type*} [LE α]

private theorem find?_or_head?_least [DecidableLE α] {d : α → α → ℕ} (hd : RoundDistance d)
    {x : α} {e : α × β} : ∀ l : List (α × β), l.Pairwise (fun a b => a.1 ≤ b.1) →
      (l.find? fun a => decide (x ≤ a.1)).or l.head? = some e →
        e ∈ l ∧ ∀ a ∈ l, d x e.1 ≤ d x a.1 := by
  intro l hl he
  cases hfind : l.find? (fun a => decide (x ≤ a.1)) with
  | some e' =>
    obtain rfl : e' = e := by simpa [hfind] using he
    obtain ⟨hxe, as, bs, rfl, has⟩ := List.find?_eq_some_iff_append.mp hfind
    have hxe' : x ≤ e'.1 := of_decide_eq_true hxe
    refine ⟨by simp, fun a ha => ?_⟩
    rcases List.mem_append.mp ha with ha | ha
    · -- skipped by the walk: before `x`
      exact hd.wrap hxe' (by simpa using has a ha)
    · rcases List.mem_cons.mp ha with rfl | ha
      · exact le_rfl
      · have hle := List.rel_of_pairwise_cons (List.pairwise_append.mp hl).2.1 ha
        exact hd.ahead hxe' hle
  | none =>
    have hbefore : ∀ a ∈ l, ¬x ≤ a.1 := by simpa using List.find?_eq_none.mp hfind
    cases l with
    | nil => simp at he
    | cons b l =>
      obtain rfl : b = e := by simpa [hfind] using he
      refine ⟨List.mem_cons_self, fun a ha => ?_⟩
      rcases List.mem_cons.mp ha with rfl | ha'
      · exact le_rfl
      · exact hd.behind (List.rel_of_pairwise_cons hl ha') (hbefore a ha)

variable [Ord α] [TransOrd α]

private theorem pairwise_toList [LawfulOrderOrd α] (m : ExtTreeMap α β) :
    m.toList.Pairwise fun a b => a.1 ≤ b.1 := by
  refine ExtTreeMap.ordered_keys_toList.imp fun {a b} h => ?_
  exact (LawfulOrderOrd.isLE_compare a.1 b.1).mp (by rw [h]; rfl)

variable [DecidableLE α]

/-- The first entry at or after `x`. -/
def lowerBound? (m : ExtTreeMap α β) (x : α) : Option (α × β) :=
  m.toList.find? fun e => decide (x ≤ e.1)

/-- The first entry. -/
def begin? (m : ExtTreeMap α β) : Option (α × β) := m.toList.head?

/-- The entry reached from `x` by walking clockwise: at or after `x`, else from the start. -/
def clockwise? (m : ExtTreeMap α β) (x : α) : Option (α × β) :=
  (lowerBound? m x).or (begin? m)

/-- There is an entry to reach exactly when the map has one. -/
theorem clockwise?_eq_none_iff {m : ExtTreeMap α β} {x : α} :
    clockwise? m x = none ↔ m = ∅ := by
  rw [clockwise?, lowerBound?, begin?, Option.or_eq_none_iff, List.head?_eq_none_iff,
    ExtTreeMap.toList_eq_nil_iff, and_iff_right_iff_imp]
  rintro rfl
  rfl

/-- A nonempty map is never walked past. -/
theorem exists_clockwise? {m : ExtTreeMap α β} {q : α} (hq : q ∈ m) (x : α) :
    ∃ p v, clockwise? m x = some (p, v) := by
  cases hc : clockwise? m x with
  | none =>
    rw [clockwise?_eq_none_iff] at hc
    subst hc
    exact absurd hq ExtTreeMap.not_mem_empty
  | some e => exact ⟨e.1, e.2, rfl⟩

variable [LawfulEqOrd α] [LawfulOrderOrd α] {d : α → α → ℕ}

/-- **The clockwise walk is an argmin.** The entry reached from `x` is the entry of the map
at the least distance ahead of `x`. -/
theorem clockwise?_eq_some_iff (hd : RoundDistance d) {m : ExtTreeMap α β} {x p : α} {v : β} :
    clockwise? m x = some (p, v) ↔ m[p]? = some v ∧ ∀ q ∈ m, d x p ≤ d x q := by
  have least : ∀ {p' : α} {v' : β}, clockwise? m x = some (p', v') →
      m[p']? = some v' ∧ ∀ q ∈ m, d x p' ≤ d x q := by
    intro p' v' h
    obtain ⟨hmem, hle⟩ := find?_or_head?_least hd _ (pairwise_toList m) h
    refine ⟨ExtTreeMap.mem_toList_iff_getElem?_eq_some.mp hmem, fun q hq => ?_⟩
    obtain ⟨w, hw⟩ := Option.isSome_iff_exists.mp (ExtTreeMap.mem_iff_isSome_getElem?.mp hq)
    exact hle (q, w) (ExtTreeMap.mem_toList_iff_getElem?_eq_some.mpr hw)
  refine ⟨least, fun ⟨hp, hle⟩ => ?_⟩
  have hpm : p ∈ m := ExtTreeMap.mem_iff_isSome_getElem?.mpr (by rw [hp]; rfl)
  obtain ⟨p', v', hc⟩ := exists_clockwise? hpm x
  obtain ⟨hp', hle'⟩ := least hc
  have hp'm : p' ∈ m := ExtTreeMap.mem_iff_isSome_getElem?.mpr (by rw [hp']; rfl)
  obtain rfl : p' = p := hd.inj (le_antisymm (hle' p hpm) (hle p' hp'm))
  rw [hc, Option.some.inj (hp.symm.trans hp')]

end OrderedMap

/-! ### Distances on machine words -/

/-- How far `p` lies ahead of `x` round the circle of 64-bit words: `(p - x) mod 2 ^ 64`. -/
def UInt64.ahead (x p : UInt64) : ℕ := (p - x).toNat

theorem UInt64.roundDistance_ahead : RoundDistance UInt64.ahead where
  ahead {x p q} hxp hpq := by
    simp only [UInt64.ahead, UInt64.le_iff_toNat_le, UInt64.toNat_sub] at *
    have := p.toNat_lt; have := q.toNat_lt; have := x.toNat_lt
    omega
  behind {x p q} hpq hxq := by
    simp only [UInt64.ahead, UInt64.le_iff_toNat_le, UInt64.toNat_sub] at *
    have := p.toNat_lt; have := q.toNat_lt; have := x.toNat_lt
    omega
  wrap {x p q} hxp hxq := by
    simp only [UInt64.ahead, UInt64.le_iff_toNat_le, UInt64.toNat_sub] at *
    have := p.toNat_lt; have := q.toNat_lt; have := x.toNat_lt
    omega
  inj {x p q} h := by
    have h' : p - x = q - x := UInt64.toNat_inj.mp h
    exact (UInt64.sub_left_inj x).mp h'
