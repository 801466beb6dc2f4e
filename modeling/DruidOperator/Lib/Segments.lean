import Mathlib.Data.List.Basic

/-!
# Lists of segments

A list is cut at a separator with `List.splitOn` and put together again with `List.intercalate`.
What is needed here beyond the two being inverse to each other: the pieces do not contain the
separator, and rewriting every element of a list rewrites its pieces, as long as only the separator
is turned into the new separator.
-/

namespace Segments

variable {α β : Type}

theorem notMem_of_mem_splitOn [BEq α] [LawfulBEq α] {a : α} {l s : List α} (hs : s ∈ l.splitOn a) :
    a ∉ s := by
  induction l generalizing s with
  | nil =>
      rw [List.splitOn_nil, List.mem_singleton] at hs
      rw [hs]
      exact List.not_mem_nil
  | cons x xs ih =>
      rw [List.splitOn_cons_eq_if_modifyHead] at hs
      split_ifs at hs with hx
      · rcases List.mem_cons.1 hs with rfl | hs
        · exact List.not_mem_nil
        · exact ih hs
      · obtain ⟨t, ts, hsplit⟩ := List.exists_cons_of_ne_nil (List.splitOn_ne_nil a xs)
        rw [hsplit, List.modifyHead_cons] at hs
        rcases List.mem_cons.1 hs with rfl | hs
        · have hne : a ≠ x := fun heq => hx (by rw [heq]; exact BEq.rfl)
          exact List.not_mem_cons_of_ne_of_not_mem hne (ih (hsplit ▸ List.mem_cons_self))
        · exact ih (hsplit ▸ List.mem_cons_of_mem _ hs)

theorem flatMap_intercalate (f : α → List β) (sep : List α) (ls : List (List α)) :
    (sep.intercalate ls).flatMap f = (sep.flatMap f).intercalate (ls.map (·.flatMap f)) := by
  induction ls with
  | nil => rfl
  | cons l ls ih =>
      cases ls with
      | nil => simp
      | cons l' ls =>
          rw [List.map_cons] at ih
          rw [List.map_cons, List.map_cons, List.intercalate_cons_cons, List.intercalate_cons_cons,
            List.flatMap_append, List.flatMap_append, ih]

/-- Rewriting that makes separators of separators only. -/
theorem splitOn_flatMap [BEq α] [LawfulBEq α] [BEq β] [LawfulBEq β] {f : α → List β} {a : α} {b : β}
    (ha : f a = [b]) (hf : ∀ x, b ∈ f x → x = a) (l : List α) :
    (l.flatMap f).splitOn b = (l.splitOn a).map (·.flatMap f) := by
  have hl : l.flatMap f = [b].intercalate ((l.splitOn a).map (·.flatMap f)) := by
    rw [← ha, ← List.flatMap_singleton f a, ← flatMap_intercalate, List.intercalate_splitOn]
  rw [hl]
  refine List.splitOn_intercalate b (fun t ht hb => ?_) (by simp)
  obtain ⟨s, hs, rfl⟩ := List.mem_map.1 ht
  obtain ⟨x, hx, hbx⟩ := List.mem_flatMap.1 hb
  exact notMem_of_mem_splitOn hs (hf x hbx ▸ hx)

theorem intercalate_concat (sep : List α) {ls : List (List α)} (hls : ls ≠ []) (l : List α) :
    sep.intercalate [sep.intercalate ls, l] = sep.intercalate (ls ++ [l]) := by
  induction ls with
  | nil => exact absurd rfl hls
  | cons l₁ ls ih =>
      cases ls with
      | nil => simp
      | cons l₂ ls =>
          have hrest := ih (List.cons_ne_nil _ _)
          simp only [List.cons_append, List.intercalate_cons_cons, List.intercalate_singleton,
            List.append_assoc] at hrest ⊢
          rw [hrest]

end Segments
