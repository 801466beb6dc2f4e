import DruidOperator.Lib.Interaction
import Mathlib.Data.Finmap

/-!
# Go errors, panics and maps

The vocabulary the two controllers share. A Go function that returns an `error` becomes a
program that may leave with `Exit.error`; dereferencing nil or indexing out of range leaves
with `Exit.panic`. A `map[string]string` is a `Finmap`: equality is extensional, as
`reflect.DeepEqual` and the sorted encoding of `encoding/json` have it.
-/

namespace DruidOperator

open Interaction

/-- A Go `error`: its text, and whether `apierrors.IsNotFound` recognises it. -/
structure Error where
  msg : String
  notFound : Bool := false
deriving DecidableEq

/-- The two ways a Go function is left other than by its normal return. -/
inductive Exit where
  | error (e : Error)
  | panic (msg : String)
deriving DecidableEq

/-- A `ctrl.Result`. -/
inductive Result where
  | done
  | requeueAfter
deriving DecidableEq

/-- A list with the tag `omitempty` is left out of the JSON when it is empty. -/
def omitEmptyList {α : Type} (l : Option (List α)) : Option (List α) := l.filter (!·.isEmpty)

abbrev StrMap := Finmap fun _ : String => String

namespace StrMap

/-- `m[k]` with `m` possibly nil: the empty string where there is no such key. -/
def getD (m : Option StrMap) (k : String) : String := ((m.bind fun m => m.lookup k).getD "")

/-- `for k, v := range src { dst[k] = v }`: the entries of `src` win. -/
def overlay (dst src : StrMap) : StrMap := src ∪ dst

theorem lookup_overlay (dst src : StrMap) (k : String) :
    (dst.overlay src).lookup k = if k ∈ src then src.lookup k else dst.lookup k := by
  split_ifs with hk
  · exact Finmap.lookup_union_left hk
  · exact Finmap.lookup_union_right hk

/-- Every label of the selector is there with its value (`client.MatchingLabels`). -/
def Matches (sel : StrMap) (labels : Option StrMap) : Prop :=
  ∀ e ∈ sel.entries, e ∈ (labels.getD ∅).entries

instance (sel : StrMap) (labels : Option StrMap) : Decidable (sel.Matches labels) :=
  inferInstanceAs (Decidable (∀ e ∈ sel.entries, e ∈ (labels.getD ∅).entries))

theorem matches_iff {sel : StrMap} {labels : Option StrMap} :
    sel.Matches labels ↔
      ∀ key value, sel.lookup key = some value → (labels.getD ∅).lookup key = some value := by
  constructor
  · intro h key value hkey
    exact Finmap.lookup_eq_some_iff.2 (h ⟨key, value⟩ (Finmap.lookup_eq_some_iff.1 hkey))
  · rintro h ⟨key, value⟩ he
    exact Finmap.lookup_eq_some_iff.1 (h key value (Finmap.lookup_eq_some_iff.2 he))

theorem matches_pair_iff {key key' value value' : String} (hne : key' ≠ key)
    {labels : Option StrMap} :
    StrMap.Matches ((Finmap.singleton key value).insert key' value') labels ↔
      (labels.getD ∅).lookup key' = some value' ∧ (labels.getD ∅).lookup key = some value := by
  have hfirst : ((Finmap.singleton key value).insert key' value' : StrMap).lookup key =
      some value := by
    rw [Finmap.lookup_insert_of_ne _ hne.symm, Finmap.lookup_singleton_eq]
  rw [matches_iff]
  constructor
  · intro h
    exact ⟨h _ _ (Finmap.lookup_insert _), h _ _ hfirst⟩
  · rintro ⟨hsecond', hfirst'⟩ k v hk
    by_cases hk' : k = key'
    · subst hk'
      rw [Finmap.lookup_insert] at hk
      rwa [← hk]
    · by_cases hk'' : k = key
      · subst hk''
        rw [hfirst] at hk
        rwa [← hk]
      · rw [Finmap.lookup_insert_of_ne _ hk', Finmap.lookup_eq_none.2 (by simpa using hk'')] at hk
        cases hk

end StrMap

variable {S : Signature} {α : Type}

/-- `if err != nil { return err }`. -/
def orReturn : Except Error α → Prog S Exit α
  | .ok a => .ret a
  | .error e => .exit (.error e)

/-- `return fmt.Errorf(...)`. -/
def fail (msg : String) : Prog S Exit α := .exit (.error ⟨msg, false⟩)

@[simp] theorem orReturn_ok (a : α) : (orReturn (.ok a) : Prog S Exit α) = .ret a := rfl

@[simp] theorem orReturn_error (e : Error) :
    (orReturn (.error e) : Prog S Exit α) = .exit (.error e) := rfl

@[simp] theorem uses_orReturn {φ : S.Req → Prop} (x : Except Error α) :
    (orReturn x : Prog S Exit α).Uses φ := by
  cases x <;> trivial

theorem yields_orReturn {R : α → Prop} {x : Except Error α} (h : ∀ a, x = .ok a → R a) :
    (orReturn x : Prog S Exit α).Yields R := by
  cases x with
  | error e => trivial
  | ok a => exact h a rfl

@[simp] theorem uses_fail {φ : S.Req → Prop} (msg : String) :
    (fail msg : Prog S Exit α).Uses φ := trivial

/-! ## Texts -/

/-- What stands before the last separator is determined. -/
theorem append_separator_inj {c : Char} {l l' d d' : List Char} (hd : c ∉ d)
    (hd' : c ∉ d') (h : l ++ c :: d = l' ++ c :: d') : l = l' := by
  rcases List.append_eq_append_iff.1 h with ⟨a, rfl, hsplit⟩ | ⟨a, rfl, hsplit⟩
  · cases a with
    | nil => exact (List.append_nil l).symm
    | cons b a =>
        rw [List.cons_append] at hsplit
        injection hsplit with _ hrest
        exact absurd (hrest ▸ List.mem_append_right a List.mem_cons_self) hd
  · cases a with
    | nil => exact List.append_nil l'
    | cons b a =>
        rw [List.cons_append] at hsplit
        injection hsplit with _ hrest
        exact absurd (hrest ▸ List.mem_append_right a List.mem_cons_self) hd'

end DruidOperator
