import Mathlib.Data.List.Basic

/-!
# Places in lists

Where a list splits, stops and ends, and how many of its elements have a property.
-/

namespace Lists

variable {α β : Type}

/-- Where at most one element has a property, a list splits at it in one way. -/
theorem eq_of_append_cons {p : α → Bool} {l₁ l₂ l₁' l₂' : List α} {x x' : α}
    (h : l₁ ++ x :: l₂ = l₁' ++ x' :: l₂') (hx : p x = true) (hx' : p x' = true)
    (hle : (l₁ ++ x :: l₂).countP p ≤ 1) : l₁ = l₁' := by
  induction l₁ generalizing l₁' with
  | nil =>
      cases l₁' with
      | nil => rfl
      | cons y l₁' =>
          obtain ⟨rfl, rfl⟩ := List.cons.inj h
          simp [hx, hx'] at hle
  | cons y l₁ ih =>
      cases l₁' with
      | nil =>
          obtain ⟨rfl, rfl⟩ := List.cons.inj h
          simp [hx, hx'] at hle
      | cons y' l₁' =>
          obtain ⟨rfl, htail⟩ := List.cons.inj h
          have hle' : (l₁ ++ x :: l₂).countP p ≤ 1 :=
            Nat.le_trans (List.Sublist.countP_le (List.sublist_cons_self y _)) hle
          rw [ih htail hle']

/-- What a list goes through before it stops stands before the place where it stops. -/
theorem getElem?_of_mem_takeWhile {p : α → Bool} {l : List α} {x y : α} {i : ℕ}
    (hx : x ∈ l.takeWhile p) (hy : l[i]? = some y) (hstop : p y = false) :
    ∃ j < i, l[j]? = some x := by
  induction l generalizing i with
  | nil => cases hx
  | cons z l ih =>
      cases hz : p z with
      | false =>
          rw [List.takeWhile_cons_of_neg (by simp [hz])] at hx
          cases hx
      | true =>
          rw [List.takeWhile_cons_of_pos hz] at hx
          cases i with
          | zero =>
              obtain rfl : z = y := by simpa using hy
              exact absurd (hz.symm.trans hstop) (by simp)
          | succ i =>
              rcases List.mem_cons.1 hx with rfl | hx
              · exact ⟨0, by omega, rfl⟩
              · obtain ⟨j, hj, hjx⟩ := ih hx hy
                exact ⟨j + 1, by omega, hjx⟩

theorem countP_lt {p q : α → Bool} {xs : List α} (himp : ∀ x ∈ xs, q x = true → p x = true)
    {x : α} (hx : x ∈ xs) (hp : p x = true) (hq : q x = false) : xs.countP q < xs.countP p := by
  induction xs with
  | nil => cases hx
  | cons y ys ih =>
      have hle : ys.countP q ≤ ys.countP p :=
        List.countP_mono_left fun z hz => himp z (List.mem_cons_of_mem y hz)
      have hhead := himp y List.mem_cons_self
      rw [List.countP_cons, List.countP_cons]
      rcases List.mem_cons.1 hx with rfl | hx
      · simp only [hp, hq, if_true, Bool.false_eq_true, if_false]
        omega
      · have hlt := ih (fun z hz => himp z (List.mem_cons_of_mem y hz)) hx
        cases hqy : q y with
        | false =>
            simp only [Bool.false_eq_true, if_false]
            omega
        | true =>
            simp only [hhead hqy, if_true]
            omega

theorem lookup_reverse_last {κ : Type} [BEq κ] [LawfulBEq κ] (name : α → κ) (value : α → β)
    {before after : List α} {x : α} (hlast : name x ∉ after.map name) :
    (((before ++ x :: after).map fun a => (name a, value a)).reverse).lookup (name x) =
      some (value x) := by
  have hnone : ((after.map fun a => (name a, value a)).reverse).lookup (name x) = none := by
    refine List.lookup_eq_none_iff.2 fun p hp => ?_
    obtain ⟨a, ha, rfl⟩ := List.mem_map.1 (List.mem_reverse.1 hp)
    rw [bne_iff_ne]
    exact fun heq => hlast (List.mem_map.2 ⟨a, ha, heq.symm⟩)
  rw [List.map_append, List.map_cons, List.reverse_append, List.reverse_cons, List.append_assoc,
    List.lookup_append, hnone, Option.none_or, List.singleton_append, List.lookup_cons_self]

theorem getLast?_of_suffix {l l' : List α} (h : l <:+ l') (hne : l ≠ []) :
    l'.getLast? = l.getLast? := by
  obtain ⟨first, rfl⟩ := h
  rw [List.getLast?_append_of_ne_nil _ hne]

end Lists
