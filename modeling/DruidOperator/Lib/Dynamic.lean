import Mathlib.Logic.Basic

/-!
# Pointers and interface values

Operations that stop a program at run time: following a nil pointer, and reading a value out of an
interface at a type it does not have. `panic` makes the failure out of its message.
-/

namespace Dynamic

variable {ε α T : Type} (panic : String → ε)

/-- `*p`. -/
def deref (p : Option α) : Except ε α :=
  p.elim (.error (panic "invalid memory address or nil pointer dereference")) .ok

@[simp] theorem deref_some (a : α) : deref panic (some a) = .ok a := rfl

/-- A value in an interface: its dynamic type, and a value of that type, or nil. -/
structure Iface (Val : T → Type) where
  type : T
  value : Option (Val type)

/-- `x.(t)`. -/
def Iface.assert [DecidableEq T] {Val : T → Type} (x : Iface Val) (t : T) :
    Except ε (Option (Val t)) :=
  if htype : x.type = t then .ok (htype ▸ x.value)
  else .error (panic "interface conversion")

@[simp] theorem Iface.assert_self [DecidableEq T] {Val : T → Type} (t : T) (v : Option (Val t)) :
    Iface.assert panic ⟨t, v⟩ t = .ok v := dif_pos rfl

theorem mapM_ok {β : Type} {f : α → Except ε β} {g : α → β} {xs : List α}
    (hf : ∀ x ∈ xs, f x = .ok (g x)) : xs.mapM f = .ok (xs.map g) := by
  induction xs with
  | nil => rfl
  | cons x xs ih =>
      rw [List.mapM_cons, hf x List.mem_cons_self,
        ih fun y hy => hf y (List.mem_cons_of_mem _ hy)]
      rfl

end Dynamic
