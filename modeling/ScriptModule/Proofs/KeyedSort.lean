/-
  ScriptModule/Proofs/KeyedSort.lean
  ==================================
  **Sorting by a key.**  A sort that compares by a linear key puts things in the order of
  their keys, and changes nothing when it is repeated.  Where the keys are different it has
  one result for all orders in which the things are given, and the keys increase strictly.
-/
import Mathlib.Data.List.Nodup
import Mathlib.Order.Lattice

namespace ScriptModule

variable {α κ : Type} [LinearOrder κ] {le : α → α → Bool} (key : α → κ)
  (hle : ∀ a b, le a b = true ↔ key a ≤ key b)
include hle

theorem le_trans_key (a b c : α) (hab : le a b = true) (hbc : le b c = true) :
    le a c = true := by
  rw [hle] at hab hbc ⊢
  exact hab.trans hbc

theorem le_total_key (a b : α) : (le a b || le b a) = true := by
  rw [Bool.or_eq_true, hle, hle]
  exact le_total (key a) (key b)

theorem pairwise_mergeSort_key (xs : List α) :
    (xs.mergeSort le).Pairwise fun a b => le a b = true :=
  List.pairwise_mergeSort (le_trans_key key hle) (le_total_key key hle) xs

/-- Sorting what is sorted changes nothing. -/
theorem mergeSort_mergeSort_key (xs : List α) :
    (xs.mergeSort le).mergeSort le = xs.mergeSort le :=
  List.mergeSort_of_pairwise (pairwise_mergeSort_key key hle xs)

/-- Things with different keys have one order. -/
theorem mergeSort_eq_of_perm {xs ys : List α} (hkeys : (xs.map key).Nodup) (h : xs.Perm ys) :
    xs.mergeSort le = ys.mergeSort le := by
  have hxs : (xs.mergeSort le).Perm xs := List.mergeSort_perm xs le
  have hys : (ys.mergeSort le).Perm ys := List.mergeSort_perm ys le
  apply (hxs.trans (h.trans hys.symm)).eq_of_pairwise ?_ (pairwise_mergeSort_key key hle xs)
    (pairwise_mergeSort_key key hle ys)
  intro a b ha hb hab hba
  rw [hle] at hab hba
  exact List.inj_on_of_nodup_map hkeys (hxs.subset ha) (h.symm.subset (hys.subset hb))
    (hab.antisymm hba)

theorem pairwise_lt_mergeSort {xs : List α} (hkeys : (xs.map key).Nodup) :
    (xs.mergeSort le).Pairwise fun a b => key a < key b := by
  have hsorted : ((xs.mergeSort le).map key).Nodup :=
    ((List.mergeSort_perm xs le).map key).nodup_iff.mpr hkeys
  refine (pairwise_mergeSort_key key hle xs).imp₂ ?_ (List.pairwise_map.mp hsorted)
  intro a b hab hne
  exact ((hle a b).mp hab).lt_of_ne hne

end ScriptModule
