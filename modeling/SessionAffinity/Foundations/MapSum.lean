import Mathlib

/-!
# Sums over the values of an ordered map

`sumOver f m` adds up `f v` over the values of a map. An entry can be taken out of the sum
(`sumOver_eq_add_erase`), so writing one entry changes the sum by what the entry adds less what
the one it replaces did (`sumOver_insert`).
-/

open Std (ExtTreeMap TransCmp LawfulEqCmp)

namespace OrderedMap

variable {α β : Type*} {cmp : α → α → Ordering} [TransCmp cmp] (f : β → ℕ)
  (m : ExtTreeMap α β cmp) (k : α)

/-- The sum of `f` over the values of a map. -/
def sumOver : ℕ := (m.toList.map fun p => f p.2).sum

@[simp]
theorem sumOver_empty : sumOver f (∅ : ExtTreeMap α β cmp) = 0 := by
  rw [sumOver, ExtTreeMap.toList_eq_nil_iff.mpr rfl]
  rfl

variable [LawfulEqCmp cmp]

theorem nodup_toList : m.toList.Nodup := by
  have hdistinct : m.toList.Pairwise fun a b => ¬ cmp a.1 b.1 = .eq :=
    ExtTreeMap.distinct_keys_toList
  refine hdistinct.imp fun hne => ?_
  rintro rfl
  exact hne Std.ReflCmp.compare_self

variable {m k}

/-- An entry can be taken out of the sum. -/
theorem sumOver_eq_add_erase {v : β} (hv : m[k]? = some v) :
    sumOver f m = f v + sumOver f (m.erase k) := by
  have hperm : m.toList.Perm ((k, v) :: (m.erase k).toList) := by
    refine (List.perm_ext_iff_of_nodup (nodup_toList m) ?_).mpr fun ⟨k', v'⟩ => ?_
    · refine List.nodup_cons.mpr ⟨fun hmem => ?_, nodup_toList _⟩
      have hk := ExtTreeMap.mem_toList_iff_getElem?_eq_some.mp hmem
      simp at hk
    · rw [List.mem_cons, ExtTreeMap.mem_toList_iff_getElem?_eq_some,
        ExtTreeMap.mem_toList_iff_getElem?_eq_some, ExtTreeMap.getElem?_erase]
      by_cases hk : cmp k k' = .eq
      · obtain rfl := LawfulEqCmp.eq_of_compare hk
        simp [hv, eq_comm]
      · have hne : k' ≠ k := fun h => hk (h ▸ Std.ReflCmp.compare_self)
        simp [hk, hne]
  rw [sumOver, (hperm.map _).sum_eq, List.map_cons, List.sum_cons, sumOver]

/-- Writing an entry changes the sum by what it adds less what it replaces. -/
theorem sumOver_insert (v : β) :
    sumOver f (m.insert k v) + (m[k]?.map f).getD 0 = sumOver f m + f v := by
  have herase : (m.insert k v).erase k = m.erase k := by
    refine ExtTreeMap.ext_getElem? fun k' => ?_
    rw [ExtTreeMap.getElem?_erase, ExtTreeMap.getElem?_erase, ExtTreeMap.getElem?_insert]
    split_ifs <;> rfl
  have hnew : sumOver f (m.insert k v) = f v + sumOver f (m.erase k) := by
    rw [sumOver_eq_add_erase f ExtTreeMap.getElem?_insert_self, herase]
  cases hv : m[k]? with
  | some w =>
    rw [hnew, sumOver_eq_add_erase f hv, Option.map_some, Option.getD_some]
    omega
  | none =>
    have hsame : m.erase k = m := by
      refine ExtTreeMap.ext_getElem? fun k' => ?_
      rw [ExtTreeMap.getElem?_erase]
      split_ifs with hk
      · rw [← LawfulEqCmp.eq_of_compare hk, hv]
      · rfl
    rw [hnew, hsame, Option.map_none, Option.getD_none]
    omega

end OrderedMap
