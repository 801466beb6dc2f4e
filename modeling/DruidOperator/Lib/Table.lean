import Mathlib.Data.List.Nodup

/-!
# Keyed tables

A finite collection of records, no two with the same key, in some order. The order is what a
listing shows; nothing else depends on it.

* `find?` — look a key up.
* `insert`, `replace`, `erase` — add a record whose key is new, change one in place, drop one.

Each operation has one lemma for membership and one for `find?`; proofs about a store built on
tables use only these.
-/

/-- Records `α` with distinct keys. -/
structure Table {κ α : Type} (key : α → κ) where
  items : List α
  nodup : (items.map key).Nodup

namespace Table

variable {κ α : Type} {key : α → κ}

variable {t : Table key} {a : α}

theorem eq_of_mem {b : α} (ha : a ∈ t.items) (hb : b ∈ t.items) (h : key a = key b) : a = b :=
  List.inj_on_of_nodup_map t.nodup ha hb h

def empty : Table key := ⟨[], List.nodup_nil⟩

variable [DecidableEq κ]

/-- The record with the key `k`. -/
def find? (t : Table key) (k : κ) : Option α := t.items.find? fun a => decide (key a = k)

theorem find?_eq_some {k : κ} : t.find? k = some a ↔ a ∈ t.items ∧ key a = k := by
  constructor
  · intro h
    exact ⟨List.mem_of_find?_eq_some h, by simpa using List.find?_some h⟩
  · rintro ⟨ha, rfl⟩
    cases h : t.find? (key a) with
    | none => simpa using List.find?_eq_none.1 h a ha
    | some b =>
        have hb := List.mem_of_find?_eq_some h
        have hkey : key b = key a := by simpa using List.find?_some h
        rw [eq_of_mem hb ha hkey]

theorem find?_eq_none {k : κ} : t.find? k = none ↔ ∀ a ∈ t.items, key a ≠ k := by
  simp [find?]

/-- Add a record at the end; one with a known key changes nothing. -/
def insert (t : Table key) (a : α) : Table key :=
  if h : key a ∈ t.items.map key then t
  else ⟨t.items ++ [a], by
    rw [List.map_append, List.nodup_append]
    refine ⟨t.nodup, List.nodup_singleton _, fun x hx y hy => ?_⟩
    rw [List.mem_singleton.1 hy]
    rintro rfl
    exact h hx⟩

/-- Put `a` in the place of the record with its key. -/
def replace (t : Table key) (a : α) : Table key where
  items := t.items.map fun b => if key b = key a then a else b
  nodup := by
    have : (t.items.map fun b => if key b = key a then a else b).map key = t.items.map key := by
      rw [List.map_map]
      refine List.map_congr_left fun b _ => ?_
      by_cases h : key b = key a <;> simp [h]
    rw [this]
    exact t.nodup

def erase (t : Table key) (k : κ) : Table key where
  items := t.items.filter fun a => decide (key a ≠ k)
  nodup := t.nodup.sublist (List.filter_sublist.map key)

/-- Change every record in place. -/
def map (t : Table key) (f : α → α) (hf : ∀ a, key (f a) = key a) : Table key where
  items := t.items.map f
  nodup := by
    rw [List.map_map, show key ∘ f = key from funext hf]
    exact t.nodup

theorem mem_insert {b : α} (h : t.find? (key a) = none) :
    b ∈ (t.insert a).items ↔ b ∈ t.items ∨ b = a := by
  have hk : key a ∉ t.items.map key := by
    rintro hmem
    obtain ⟨c, hc, hkey⟩ := List.mem_map.1 hmem
    exact find?_eq_none.1 h c hc hkey
  simp [insert, hk]

theorem mem_replace {b : α} :
    b ∈ (t.replace a).items ↔
      (b ∈ t.items ∧ key b ≠ key a) ∨ (b = a ∧ ∃ c ∈ t.items, key c = key a) := by
  simp only [replace, List.mem_map]
  constructor
  · rintro ⟨c, hc, rfl⟩
    by_cases h : key c = key a
    · exact .inr ⟨if_pos h, c, hc, h⟩
    · rw [if_neg h]
      exact .inl ⟨hc, h⟩
  · rintro (⟨hb, h⟩ | ⟨rfl, c, hc, h⟩)
    · exact ⟨b, hb, if_neg h⟩
    · exact ⟨c, hc, if_pos h⟩

theorem mem_erase {k : κ} : a ∈ (t.erase k).items ↔ a ∈ t.items ∧ key a ≠ k := by
  simp [erase]

theorem find?_insert (h : t.find? (key a) = none) (k : κ) :
    (t.insert a).find? k = if key a = k then some a else t.find? k := by
  split_ifs with hk
  · exact find?_eq_some.2 ⟨(mem_insert h).2 (.inr rfl), hk⟩
  · refine Option.ext fun b => ?_
    rw [find?_eq_some, find?_eq_some, mem_insert h]
    constructor
    · rintro ⟨hb | rfl, hbk⟩
      · exact ⟨hb, hbk⟩
      · exact absurd hbk hk
    · rintro ⟨hb, hbk⟩
      exact ⟨.inl hb, hbk⟩

theorem find?_replace (h : t.find? (key a) ≠ none) (k : κ) :
    (t.replace a).find? k = if key a = k then some a else t.find? k := by
  obtain ⟨c, hc⟩ := Option.ne_none_iff_exists'.1 h
  obtain ⟨hmem, hkey⟩ := find?_eq_some.1 hc
  split_ifs with hk
  · exact find?_eq_some.2 ⟨mem_replace.2 (.inr ⟨rfl, c, hmem, hkey⟩), hk⟩
  · refine Option.ext fun b => ?_
    rw [find?_eq_some, find?_eq_some, mem_replace]
    constructor
    · rintro ⟨⟨hb, -⟩ | ⟨rfl, -⟩, hbk⟩
      · exact ⟨hb, hbk⟩
      · exact absurd hbk hk
    · rintro ⟨hb, hbk⟩
      exact ⟨.inl ⟨hb, fun h => hk (h.symm.trans hbk)⟩, hbk⟩

theorem find?_erase (t : Table key) (k k' : κ) :
    (t.erase k).find? k' = if k = k' then none else t.find? k' := by
  split_ifs with hk
  · rw [find?_eq_none]
    intro a ha hak
    exact (mem_erase.1 ha).2 (hak.trans hk.symm)
  · refine Option.ext fun b => ?_
    rw [find?_eq_some, find?_eq_some, mem_erase]
    constructor
    · rintro ⟨⟨hb, -⟩, hbk⟩
      exact ⟨hb, hbk⟩
    · rintro ⟨hb, hbk⟩
      exact ⟨⟨hb, fun h => hk (h.symm.trans hbk)⟩, hbk⟩

end Table
