import DruidOperator.Lib.Interaction

/-!
# Programs that rely on what they are answered

`Uses φ` is about every path of responses, also those that no server ever gives. Where a request
is only right because of an earlier response, the responses have to be part of the statement.

* `UsesIf A φ p` — as long as every response meets the assumption `A`, every request meets `φ`.
-/

namespace Interaction

variable {S : Signature} {ε ε' α β γ : Type}

namespace Prog

/-- Every request of `p` satisfies `φ`, on every path whose responses meet `A`. -/
def UsesIf (A : (r : S.Req) → S.Resp r → Prop) (φ : S.Req → Prop) : Prog S ε α → Prop
  | .ret _ => True
  | .exit _ => True
  | .call r k => φ r ∧ ∀ x, A r x → (k x).UsesIf A φ

variable {A : (r : S.Req) → S.Resp r → Prop} {φ ψ : S.Req → Prop}

/-- What a program does on every path, it does under any assumption. -/
theorem Uses.usesIf {p : Prog S ε α} (hp : p.Uses φ) : p.UsesIf A φ := by
  induction p with
  | ret a => trivial
  | exit e => trivial
  | call r k ih => exact ⟨hp.1, fun x _ => ih x (hp.2 x)⟩

namespace UsesIf

theorem mono {p : Prog S ε α} (hp : p.UsesIf A φ) (h : ∀ r, φ r → ψ r) : p.UsesIf A ψ := by
  induction p with
  | ret a => trivial
  | exit e => trivial
  | call r k ih => exact ⟨h r hp.1, fun x hx => ih x (hp.2 x hx)⟩

theorem and {p : Prog S ε α} (hp : p.UsesIf A φ) (hp' : p.UsesIf A ψ) :
    p.UsesIf A fun r => φ r ∧ ψ r := by
  induction p with
  | ret a => trivial
  | exit e => trivial
  | call r k ih => exact ⟨⟨hp.1, hp'.1⟩, fun x hx => ih x (hp.2 x hx) (hp'.2 x hx)⟩

theorem bind {p : Prog S ε α} {f : α → Prog S ε β} (hp : p.UsesIf A φ)
    (hf : ∀ a, (f a).UsesIf A φ) : (p >>= f).UsesIf A φ := by
  induction p with
  | ret a => exact hf a
  | exit e => trivial
  | call r k ih => exact ⟨hp.1, fun x hx => ih x (hp.2 x hx)⟩

/-- Sequencing where the second program depends on what the first can return. -/
theorem bindYields {R : α → Prop} {p : Prog S ε α} {f : α → Prog S ε β} (hp : p.UsesIf A φ)
    (hy : p.Yields R) (hf : ∀ a, R a → (f a).UsesIf A φ) : (p >>= f).UsesIf A φ := by
  induction p with
  | ret a => exact hf a hy
  | exit e => trivial
  | call r k ih => exact ⟨hp.1, fun x hx => ih x (hp.2 x hx) (hy x)⟩

theorem attempt {p : Prog S ε α} (hp : p.UsesIf A φ) :
    (p.attempt : Prog S ε' (Except ε α)).UsesIf A φ := by
  induction p with
  | ret a => trivial
  | exit e => trivial
  | call r k ih => exact ⟨hp.1, fun x hx => ih x (hp.2 x hx)⟩

theorem accumulate {f : γ → β → Prog S ε γ} {bs : List β}
    (h : ∀ c, ∀ b ∈ bs, (f c b).UsesIf A φ) (c : γ) : (Prog.accumulate f c bs).UsesIf A φ := by
  induction bs generalizing c with
  | nil => trivial
  | cons b bs ih =>
      exact (h c b List.mem_cons_self).bind fun c' =>
        ih (fun d e he => h d e (List.mem_cons_of_mem _ he)) c'

/-- The loop rule: `I` holds of the accumulator, and a turn that goes on keeps it. -/
theorem iterate {I : γ → Prop} {f : γ → β → Prog S ε (Option γ)} {bs : List β}
    (h : ∀ c, I c → ∀ b ∈ bs, (f c b).UsesIf A φ ∧
      (f c b).Yields fun x => ∀ c', x = some c' → I c') {c : γ} (hc : I c) :
    (Prog.iterate f c bs).UsesIf A φ := by
  induction bs generalizing c with
  | nil => trivial
  | cons b bs ih =>
      obtain ⟨huses, hyields⟩ := h c hc b List.mem_cons_self
      refine huses.bindYields hyields fun x hx => ?_
      cases x with
      | none => trivial
      | some c' => exact ih (fun d hd e he => h d hd e (List.mem_cons_of_mem _ he)) (hx c' rfl)

end UsesIf

end Prog

end Interaction
