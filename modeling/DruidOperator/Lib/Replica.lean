import Mathlib.Data.List.Pairwise

/-!
# A copy that lags behind

A client that reads from a cache sees the versions of an object in the order they were written, but
perhaps long after.

* `Replica α` — the version the cache holds, and the newer ones it has not seen.
* `put` — a new version is written; `sync` — the cache catches up by some versions.
* `Persists P r` — a version with `P` is followed by versions with `P` only. Then what the cache
  shows of `P` is true of the newest version.
-/

/-- One object with a cached copy. -/
structure Replica (α : Type) where
  seen : α
  /-- The versions that were written since, oldest first. -/
  unseen : List α := []

namespace Replica

variable {α : Type} {P : α → Prop} {r : Replica α} {v : α}

def versions (r : Replica α) : List α := r.seen :: r.unseen

/-- The version that is stored. -/
def latest (r : Replica α) : α := r.unseen.getLastD r.seen

def put (r : Replica α) (v : α) : Replica α := { r with unseen := r.unseen ++ [v] }

/-- The cache catches up by `n` versions, if there are so many. -/
def sync : ℕ → Replica α → Replica α
  | 0, r => r
  | _ + 1, ⟨v, []⟩ => ⟨v, []⟩
  | n + 1, ⟨_, v :: vs⟩ => sync n ⟨v, vs⟩

theorem seen_mem (r : Replica α) : r.seen ∈ r.versions := List.mem_cons_self

theorem latest_eq_getLast (r : Replica α) :
    r.latest = r.versions.getLast (List.cons_ne_nil _ _) := by
  unfold latest versions
  rw [List.getLast_eq_getLastD]

theorem latest_mem (r : Replica α) : r.latest ∈ r.versions := by
  rw [latest_eq_getLast]
  exact List.getLast_mem _

@[simp] theorem versions_put (r : Replica α) (v : α) : (r.put v).versions = r.versions ++ [v] := rfl

@[simp] theorem latest_put (r : Replica α) (v : α) : (r.put v).latest = v := by
  simp [latest, put]

/-- Catching up forgets old versions only. -/
theorem versions_sync (n : ℕ) (r : Replica α) : (r.sync n).versions <:+ r.versions := by
  fun_induction sync n r with
  | case1 r => exact List.suffix_rfl
  | case2 n v => exact List.suffix_rfl
  | case3 n u v vs ih => exact ih.trans (List.suffix_cons _ _)

@[simp] theorem latest_sync (r : Replica α) (n : ℕ) : (r.sync n).latest = r.latest := by
  fun_induction sync n r with
  | case1 r => rfl
  | case2 n v => rfl
  | case3 n u v vs ih =>
      rw [ih]
      exact (List.getLastD_cons ..).symm

/-! ## What stays once it is so -/

/-- Versions with `P` are followed by versions with `P`. -/
def Persists (P : α → Prop) (r : Replica α) : Prop := r.versions.Pairwise fun a b => P a → P b

namespace Persists

theorem latest (h : r.Persists P) {a : α} (ha : a ∈ r.versions) (hP : P a) : P r.latest := by
  rw [latest_eq_getLast]
  exact h.rel_getLast_of_rel_getLast_getLast ha (fun hlast => hlast) hP

theorem put (h : r.Persists P) (hv : P r.latest → P v) : (r.put v).Persists P := by
  refine List.pairwise_append.2 ⟨h, List.pairwise_singleton _ _, fun a ha b hb hP => ?_⟩
  rw [List.mem_singleton.1 hb]
  exact hv (h.latest ha hP)

theorem sync (h : r.Persists P) (n : ℕ) : (r.sync n).Persists P :=
  List.Pairwise.sublist (versions_sync n r).sublist h

/-- What the cache shows stays when it catches up. -/
theorem seen_sync (h : r.Persists P) (n : ℕ) (hseen : P r.seen) : P (r.sync n).seen := by
  rcases List.mem_cons.1 ((versions_sync n r).subset (r.sync n).seen_mem) with heq | hmem
  · rw [heq]
    exact hseen
  · exact List.rel_of_pairwise_cons h hmem hseen

end Persists

end Replica
