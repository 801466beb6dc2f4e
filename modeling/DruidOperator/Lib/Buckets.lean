import Mathlib.Data.List.Perm.Basic
import Mathlib.Data.List.Nodup
import Mathlib.Logic.Function.Basic

/-!
# Bucket sort

The elements of a list are put into one bucket for each key, and the buckets are emptied in the
order of the keys.
-/

namespace Buckets

variable {α κ : Type} [DecidableEq κ] (key : α → κ)

/-- The buckets, each element behind those of its key that came before it. -/
def fill (xs : List α) : κ → List α :=
  xs.foldl (fun bucket x => Function.update bucket (key x) (bucket (key x) ++ [x])) fun _ => []

/-- The buckets one after the other. -/
def sort (order : List κ) (xs : List α) : List α := order.flatMap (fill key xs)

theorem fill_eq_filter (xs : List α) (k : κ) : fill key xs k = xs.filter (key · = k) := by
  have hfold : ∀ bucket : κ → List α,
      xs.foldl (fun bucket x => Function.update bucket (key x) (bucket (key x) ++ [x])) bucket k =
        bucket k ++ xs.filter (key · = k) := by
    induction xs with
    | nil => simp
    | cons x xs ih =>
        intro bucket
        rw [List.foldl_cons, ih]
        by_cases hk : key x = k
        · subst hk
          simp
        · rw [Function.update_of_ne (Ne.symm hk), List.filter_cons_of_neg (by simpa using hk)]
  exact (hfold fun _ => []).trans (List.nil_append _)

/-- **What is sorted**: the elements whose key has a place in the order, each as often as before. -/
theorem sort_perm_filter {order : List κ} (hnodup : order.Nodup) (xs : List α) :
    (sort key order xs).Perm (xs.filter (key · ∈ order)) := by
  induction order with
  | nil => simp [sort]
  | cons k order ih =>
      obtain ⟨hk, hnodup⟩ := List.nodup_cons.1 hnodup
      have hsplit := List.filter_append_perm (key · = k) (xs.filter (key · ∈ k :: order))
      simp only [List.filter_filter] at hsplit
      -- the first bucket, and what is left for the others
      have hfirst : xs.filter (fun x => decide (key x = k) && decide (key x ∈ k :: order)) =
          fill key xs k := by
        rw [fill_eq_filter]
        refine List.filter_congr fun x _ => ?_
        by_cases hx : key x = k <;> simp [hx]
      have hrest : xs.filter (fun x => !decide (key x = k) && decide (key x ∈ k :: order)) =
          xs.filter (key · ∈ order) := by
        refine List.filter_congr fun x _ => ?_
        by_cases hx : key x = k
        · simp [hx, hk]
        · simp [hx]
      rw [hfirst, hrest] at hsplit
      exact ((ih hnodup).append_left _).trans hsplit

theorem sort_perm {order : List κ} (hnodup : order.Nodup) {xs : List α}
    (hkeys : ∀ x ∈ xs, key x ∈ order) : (sort key order xs).Perm xs := by
  have hall : xs.filter (key · ∈ order) = xs :=
    List.filter_eq_self.2 fun x hx => decide_eq_true (hkeys x hx)
  have hperm := sort_perm_filter key hnodup xs
  rwa [hall] at hperm

theorem mem_sort {order : List κ} {xs : List α} {x : α} :
    x ∈ sort key order xs ↔ x ∈ xs ∧ key x ∈ order := by
  simp only [sort, List.mem_flatMap, fill_eq_filter, List.mem_filter, decide_eq_true_eq]
  constructor
  · rintro ⟨k, hk, hx, rfl⟩
    exact ⟨hx, hk⟩
  · rintro ⟨hx, hk⟩
    exact ⟨_, hk, hx, rfl⟩

theorem pairwise_idxOf {order : List κ} (hnodup : order.Nodup) :
    order.Pairwise fun k k' => order.idxOf k ≤ order.idxOf k' := by
  rw [List.pairwise_iff_getElem]
  intro i j hi hj hij
  rw [hnodup.idxOf_getElem i hi, hnodup.idxOf_getElem j hj]
  exact Nat.le_of_lt hij

/-- **In which order**: no element precedes one whose key has an earlier place. -/
theorem pairwise_sort {order : List κ} (hnodup : order.Nodup) (xs : List α) :
    (sort key order xs).Pairwise fun x y => order.idxOf (key x) ≤ order.idxOf (key y) := by
  have hkey : ∀ k, ∀ x ∈ fill key xs k, key x = k := by
    intro k x hx
    rw [fill_eq_filter] at hx
    exact of_decide_eq_true (List.mem_filter.1 hx).2
  rw [sort, List.pairwise_flatMap]
  constructor
  · intro k _
    refine List.pairwise_iff_forall_sublist.2 fun {x y} hsub => ?_
    have hx := hkey k x (hsub.subset (by simp))
    have hy := hkey k y (hsub.subset (by simp))
    exact Nat.le_of_eq (by rw [hx, hy])
  · refine (pairwise_idxOf hnodup).imp fun {k k'} hle x hx y hy => ?_
    rw [hkey k x hx, hkey k' y hy]
    exact hle

end Buckets
