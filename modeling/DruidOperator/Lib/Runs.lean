import Mathlib.Tactic.Common

/-!
# Runs of a step function

A system is a state and a step function; a run is a list of actions. `Meets` says that every
action of a run satisfies a condition in the state it is taken from, and `run_invariant` is the
one induction behind every statement about all reachable states.

`run_reaches` is the other induction: a rank that no action raises, and a goal that is reached when
enough actions lower it.

`Path` is the same for a relation: where the next state is not determined by the action.
-/

namespace Runs

variable {σ α : Type} (step : σ → α → σ)

variable {I : σ → Prop} {C : σ → α → Prop} {s : σ} {acts : List α} {D : σ → α → Prop}

/-- The state after a list of actions. -/
def run (s : σ) (acts : List α) : σ := acts.foldl step s

/-- Every action meets `C` in the state it is taken from. -/
def Meets (C : σ → α → Prop) : σ → List α → Prop
  | _, [] => True
  | s, a :: acts => C s a ∧ Meets C (step s a) acts

instance instDecidableMeets {C : σ → α → Prop} [∀ s a, Decidable (C s a)] :
    ∀ (s : σ) (acts : List α), Decidable (Meets step C s acts)
  | _, [] => .isTrue trivial
  | s, a :: acts =>
      haveI := instDecidableMeets (C := C) (step s a) acts
      inferInstanceAs (Decidable (C s a ∧ Meets step C (step s a) acts))

variable {step}

@[simp] theorem run_nil (s : σ) : run step s [] = s := rfl

@[simp] theorem run_cons (s : σ) (a : α) (acts : List α) :
    run step s (a :: acts) = run step (step s a) acts := rfl

/-- **Invariants of runs.** What holds at the start and is kept by every action that meets the
condition holds after every run whose actions all meet it. -/
theorem run_invariant (hstep : ∀ s, ∀ a ∈ acts, I s → C s a → I (step s a)) (hs : I s)
    (hacts : Meets step C s acts) : I (run step s acts) := by
  induction acts generalizing s with
  | nil => exact hs
  | cons a acts ih =>
      have hs' := hstep s a List.mem_cons_self hs hacts.1
      exact ih (fun t b hb => hstep t b (List.mem_cons_of_mem a hb)) hs' hacts.2

theorem meets_cons {a : α} :
    Meets step C s (a :: acts) ↔ C s a ∧ Meets step C (step s a) acts := Iff.rfl

theorem Meets.and (hC : Meets step C s acts) (hD : Meets step D s acts) :
    Meets step (fun s a => C s a ∧ D s a) s acts := by
  induction acts generalizing s with
  | nil => trivial
  | cons a acts ih => exact ⟨⟨hC.1, hD.1⟩, ih hC.2 hD.2⟩

/-- The condition holds at every place of the run. -/
theorem meets_iff :
    Meets step C s acts ↔
      ∀ before a after, acts = before ++ a :: after → C (run step s before) a := by
  induction acts generalizing s with
  | nil => simp [Meets]
  | cons b acts ih =>
      rw [meets_cons, ih]
      constructor
      · rintro ⟨hb, hacts⟩ before a after heq
        cases before with
        | nil =>
            obtain ⟨rfl, -⟩ := List.cons.inj heq
            exact hb
        | cons c before =>
            obtain ⟨rfl, htail⟩ := List.cons.inj heq
            exact hacts before a after htail
      · intro hall
        exact ⟨hall [] b acts rfl, fun before a after heq => hall (b :: before) a after
          (by simp [heq])⟩

/-- **Conditions of runs.** What every action meets from a state in which the invariant holds, every
action of the run meets. -/
theorem Meets.ofInvariant (hstep : ∀ s, ∀ a ∈ acts, I s → C s a → I (step s a) ∧ D s a) (hs : I s)
    (hacts : Meets step C s acts) : Meets step D s acts := by
  induction acts generalizing s with
  | nil => trivial
  | cons a acts ih =>
      obtain ⟨hs', hD⟩ := hstep s a List.mem_cons_self hs hacts.1
      exact ⟨hD, ih (fun t b hb => hstep t b (List.mem_cons_of_mem a hb)) hs' hacts.2⟩

/-- Conditions on the actions of a run may be weakened one by one. -/
theorem Meets.imp (himp : ∀ s, ∀ a ∈ acts, C s a → D s a) (hacts : Meets step C s acts) :
    Meets step D s acts :=
  hacts.ofInvariant (I := fun _ => True) (fun s a ha _ hC => ⟨trivial, himp s a ha hC⟩) trivial

/-! ## Reaching a goal -/

/-- At least `n` actions meet `D` in the state they are taken from. -/
def AtLeast (step : σ → α → σ) (D : σ → α → Prop) : ℕ → σ → List α → Prop
  | 0, _, _ => True
  | _ + 1, _, [] => False
  | n + 1, s, a :: acts =>
      (D s a ∧ AtLeast step D n (step s a) acts) ∨ AtLeast step D (n + 1) (step s a) acts

theorem AtLeast.mono {n n' : ℕ} (hle : n' ≤ n) (h : AtLeast step D n s acts) :
    AtLeast step D n' s acts := by
  induction acts generalizing s n n' with
  | nil =>
      cases n with
      | zero => rwa [Nat.le_zero.1 hle]
      | succ n => cases h
  | cons a acts ih =>
      cases n' with
      | zero => trivial
      | succ n' =>
          cases n with
          | zero => cases hle
          | succ n =>
              rcases h with ⟨hD, hrest⟩ | hrest
              · exact .inl ⟨hD, ih (Nat.le_of_succ_le_succ hle) hrest⟩
              · exact .inr (ih hle hrest)

/-- **Goals of runs.** A goal that is not lost again, and a rank that no action raises: where enough
actions reach the goal or lower the rank, the run ends in the goal. -/
theorem run_reaches {G : σ → Prop} {N : σ → ℕ}
    (hkeep : ∀ s, ∀ a ∈ acts, I s → C s a → I (step s a) ∧ (G s → G (step s a)))
    (hrank : ∀ s, ∀ a ∈ acts, I s → C s a → N (step s a) ≤ N s ∧
      (D s a → G (step s a) ∨ N (step s a) < N s)) (hs : I s) (hacts : Meets step C s acts)
    (hD : G s ∨ AtLeast step D (N s + 1) s acts) : G (run step s acts) := by
  induction acts generalizing s with
  | nil => exact hD.elim id False.elim
  | cons a acts ih =>
      obtain ⟨hs', hgoal⟩ := hkeep s a List.mem_cons_self hs hacts.1
      obtain ⟨hle, hlt⟩ := hrank s a List.mem_cons_self hs hacts.1
      refine ih (fun t b hb => hkeep t b (List.mem_cons_of_mem a hb))
        (fun t b hb => hrank t b (List.mem_cons_of_mem a hb)) hs' hacts.2 ?_
      rcases hD with hreached | ⟨hnow, hlater⟩ | hlater
      · exact .inl (hgoal hreached)
      · rcases hlt hnow with hreached | hless
        · exact .inl hreached
        · exact .inr (hlater.mono hless)
      · exact .inr (hlater.mono (Nat.succ_le_succ hle))

/-! ## Paths of a relation -/

/-- The relation leads from one state to another, one step for each action. -/
inductive Path (R : α → σ → σ → Prop) : List α → σ → σ → Prop where
  | nil (s : σ) : Path R [] s s
  | cons {a : α} {acts : List α} {s t u : σ} (hstep : R a s t) (hrest : Path R acts t u) :
      Path R (a :: acts) s u

namespace Path

variable {R : α → σ → σ → Prop} {acts acts' : List α} {s t u : σ}

theorem single {a : α} (hstep : R a s t) : Path R [a] s t := .cons hstep (.nil t)

theorem append (h : Path R acts s t) (h' : Path R acts' t u) : Path R (acts ++ acts') s u := by
  induction h with
  | nil s => exact h'
  | cons hstep hrest ih => exact .cons hstep (ih h')

/-- What every step keeps holds at the end if it holds at the start. -/
theorem invariant (h : Path R acts s t) (hstep : ∀ a ∈ acts, ∀ s t, R a s t → I s → I t)
    (hs : I s) :
    I t := by
  induction h with
  | nil s => exact hs
  | cons hR hrest ih =>
      refine ih (fun a ha => hstep a (List.mem_cons_of_mem _ ha)) ?_
      exact hstep _ List.mem_cons_self _ _ hR hs

end Path

end Runs
