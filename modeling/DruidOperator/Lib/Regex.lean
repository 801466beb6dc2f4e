import Mathlib.Computability.Language

/-!
# Regular expressions

Regular expressions over character classes, matched by derivatives. `found` is the unanchored
search of a regular expression library: some part of the text matches.

`lang` is what an expression means. `mem_lang_deriv` says that derivatives keep to it, and
`found_iff` follows: the search finds exactly the texts with a part in the language.
-/

inductive Regex where
  | none
  | eps
  | char (cls : Char → Bool)
  | seq (r s : Regex)
  | alt (r s : Regex)
  | star (r : Regex)

namespace Regex

/-- `r?`. -/
def opt (r : Regex) : Regex := alt eps r

/-- The empty text matches. -/
def nullable : Regex → Bool
  | none => false
  | eps => true
  | char _ => false
  | seq r s => r.nullable && s.nullable
  | alt r s => r.nullable || s.nullable
  | star _ => true

/-- What is left to match after the character `c`. -/
def deriv (c : Char) : Regex → Regex
  | none => none
  | eps => none
  | char cls => if cls c then eps else none
  | seq r s => if r.nullable then alt (seq (r.deriv c) s) (s.deriv c) else seq (r.deriv c) s
  | alt r s => alt (r.deriv c) (s.deriv c)
  | star r => seq (r.deriv c) (star r)

/-- Some initial part of the text matches. -/
def matchesStart : Regex → List Char → Bool
  | r, [] => r.nullable
  | r, c :: cs => r.nullable || (r.deriv c).matchesStart cs

/-- Some part of the text matches. -/
def found (r : Regex) (cs : List Char) : Bool := cs.tails.any r.matchesStart

/-! ## Meaning -/

open Language Computability

/-- The texts that an expression stands for. -/
def lang : Regex → Language Char
  | none => 0
  | eps => 1
  | char cls => {w | ∃ c, cls c = true ∧ w = [c]}
  | seq r s => r.lang * s.lang
  | alt r s => r.lang + s.lang
  | star r => r.lang∗

section Membership

variable {r s : Regex} {w : List Char}

@[simp] theorem notMem_lang_none : w ∉ none.lang := Language.notMem_zero w

@[simp] theorem mem_lang_eps : w ∈ eps.lang ↔ w = [] := Iff.rfl

@[simp] theorem mem_lang_char {cls : Char → Bool} :
    w ∈ (char cls).lang ↔ ∃ c, cls c = true ∧ w = [c] := Iff.rfl

@[simp] theorem mem_lang_alt : w ∈ (alt r s).lang ↔ w ∈ r.lang ∨ w ∈ s.lang := Iff.rfl

theorem mem_lang_seq : w ∈ (seq r s).lang ↔ ∃ a ∈ r.lang, ∃ b ∈ s.lang, a ++ b = w :=
  Language.mem_mul

end Membership

theorem nullable_iff (r : Regex) : r.nullable = true ↔ [] ∈ r.lang := by
  induction r with
  | none => simp [nullable]
  | eps => simp [nullable]
  | char cls => simp [nullable]
  | seq r s ihr ihs => simp [nullable, ihr, ihs, mem_lang_seq]
  | alt r s ihr ihs => simp [nullable, ihr, ihs]
  | star r ih => simp [nullable, lang, Language.nil_mem_kstar]

theorem cons_mem_mul {l m : Language Char} {c : Char} {w : List Char} :
    c :: w ∈ l * m ↔ (∃ a b, w = a ++ b ∧ c :: a ∈ l ∧ b ∈ m) ∨ ([] ∈ l ∧ c :: w ∈ m) := by
  rw [Language.mem_mul]
  constructor
  · rintro ⟨a, ha, b, hb, hab⟩
    cases a with
    | nil => exact .inr ⟨ha, hab ▸ hb⟩
    | cons d a =>
        obtain ⟨rfl, rfl⟩ := List.cons.inj hab
        exact .inl ⟨a, b, rfl, ha, hb⟩
  · rintro (⟨a, b, rfl, ha, hb⟩ | ⟨hnil, hw⟩)
    · exact ⟨c :: a, ha, b, hb, rfl⟩
    · exact ⟨[], hnil, c :: w, hw, rfl⟩

theorem cons_mem_kstar {l : Language Char} {c : Char} {w : List Char} :
    c :: w ∈ l∗ ↔ ∃ a b, w = a ++ b ∧ c :: a ∈ l ∧ b ∈ l∗ := by
  constructor
  · intro h
    obtain ⟨parts, hw, hparts⟩ := Language.mem_kstar_iff_exists_nonempty.1 h
    cases parts with
    | nil => cases hw
    | cons part parts =>
        obtain ⟨hpart, hne⟩ := hparts part List.mem_cons_self
        cases part with
        | nil => exact absurd rfl hne
        | cons d a =>
            obtain ⟨rfl, rfl⟩ := List.cons.inj hw
            exact ⟨a, parts.flatten, rfl, hpart,
              Language.join_mem_kstar fun y hy => (hparts y (List.mem_cons_of_mem _ hy)).1⟩
  · rintro ⟨a, b, rfl, ha, hb⟩
    obtain ⟨parts, rfl, hparts⟩ := Language.mem_kstar.1 hb
    exact ⟨(c :: a) :: parts, rfl, List.forall_mem_cons.2 ⟨ha, hparts⟩⟩

/-- **Derivatives** match the texts that are in the language once the character is put in front. -/
theorem mem_lang_deriv (r : Regex) (c : Char) (w : List Char) :
    w ∈ (r.deriv c).lang ↔ c :: w ∈ r.lang := by
  induction r generalizing w with
  | none => simp [deriv]
  | eps => simp [deriv]
  | char cls =>
      rw [deriv, mem_lang_char]
      by_cases hc : cls c = true
      · rw [if_pos hc, mem_lang_eps]
        exact ⟨fun hw => ⟨c, hc, by rw [hw]⟩, fun ⟨d, _, hw⟩ => (List.cons.inj hw).2⟩
      · rw [if_neg hc]
        refine ⟨fun hw => absurd hw notMem_lang_none, fun ⟨d, hd, hw⟩ => ?_⟩
        exact absurd ((List.cons.inj hw).1 ▸ hd) hc
  | seq r s ihr ihs =>
      have hfirst : w ∈ (seq (r.deriv c) s).lang ↔
          ∃ a b, w = a ++ b ∧ c :: a ∈ r.lang ∧ b ∈ s.lang := by
        rw [mem_lang_seq]
        constructor
        · rintro ⟨a, ha, b, hb, rfl⟩
          exact ⟨a, b, rfl, (ihr a).1 ha, hb⟩
        · rintro ⟨a, b, rfl, ha, hb⟩
          exact ⟨a, (ihr a).2 ha, b, hb, rfl⟩
      rw [deriv, lang, cons_mem_mul]
      by_cases hnull : r.nullable = true
      · rw [if_pos hnull, mem_lang_alt, hfirst, ihs]
        simp [(nullable_iff r).1 hnull]
      · rw [if_neg hnull, hfirst]
        simp [mt (nullable_iff r).2 hnull]
  | alt r s ihr ihs => simp [deriv, ihr, ihs]
  | star r ih =>
      rw [deriv, mem_lang_seq, lang, cons_mem_kstar]
      constructor
      · rintro ⟨a, ha, b, hb, rfl⟩
        exact ⟨a, b, rfl, (ih a).1 ha, hb⟩
      · rintro ⟨a, b, rfl, ha, hb⟩
        exact ⟨a, (ih a).2 ha, b, hb, rfl⟩

/-- The whole text matches. -/
def matchesAll (r : Regex) (cs : List Char) : Bool := (cs.foldl (fun r c => r.deriv c) r).nullable

theorem matchesAll_iff (r : Regex) (cs : List Char) : r.matchesAll cs = true ↔ cs ∈ r.lang := by
  induction cs generalizing r with
  | nil => exact nullable_iff r
  | cons c cs ih => exact (ih (r.deriv c)).trans (mem_lang_deriv r c cs)

instance (r : Regex) (cs : List Char) : Decidable (cs ∈ r.lang) :=
  decidable_of_iff _ (matchesAll_iff r cs)

theorem matchesStart_iff (r : Regex) (cs : List Char) :
    r.matchesStart cs = true ↔ ∃ w, w <+: cs ∧ w ∈ r.lang := by
  induction cs generalizing r with
  | nil => simp [matchesStart, nullable_iff]
  | cons c cs ih =>
      rw [matchesStart, Bool.or_eq_true, nullable_iff, ih]
      constructor
      · rintro (hnil | ⟨w, hw, hmem⟩)
        · exact ⟨[], List.nil_prefix, hnil⟩
        · exact ⟨c :: w, List.cons_prefix_cons.2 ⟨rfl, hw⟩, (mem_lang_deriv r c w).1 hmem⟩
      · rintro ⟨w, hw, hmem⟩
        cases w with
        | nil => exact .inl hmem
        | cons d w =>
            obtain ⟨rfl, htail⟩ := List.cons_prefix_cons.1 hw
            exact .inr ⟨w, htail, (mem_lang_deriv r d w).2 hmem⟩

/-- **The search** finds the texts with a part in the language. -/
theorem found_iff (r : Regex) (cs : List Char) :
    r.found cs = true ↔ ∃ w, w <:+: cs ∧ w ∈ r.lang := by
  rw [found, List.any_eq_true]
  constructor
  · rintro ⟨tail, htail, hmatch⟩
    obtain ⟨w, hw, hmem⟩ := (matchesStart_iff r tail).1 hmatch
    exact ⟨w, List.infix_iff_prefix_suffix.2 ⟨tail, hw, (List.mem_tails _ _).1 htail⟩, hmem⟩
  · rintro ⟨w, hw, hmem⟩
    obtain ⟨tail, hprefix, hsuffix⟩ := List.infix_iff_prefix_suffix.1 hw
    exact ⟨tail, (List.mem_tails _ _).2 hsuffix, (matchesStart_iff r tail).2 ⟨w, hprefix, hmem⟩⟩

end Regex
