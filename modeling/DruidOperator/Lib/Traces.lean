import DruidOperator.Lib.Interaction

/-!
# What comes before what in a run

* `Preceded P A steps` — before every step that meets `P` the steps so far satisfy `A`.
* `Converses T p` — every conversation of the program `p` with a server, and its result, satisfy
  `T`.
* `Follows A first talk` — everything in a conversation meets `A` with what was said before it.
* `Serves h s talk t` — the server `h` says its part of a conversation, from one state to another.
* `FailsFast failed E p` — the first response that counts as failed ends the program `p`, with an
  exit in `E`.
-/

namespace Interaction

variable {S : Signature} {σ ε α β : Type}

/-! ## Order -/

/-- Before every step that meets `P` the steps so far satisfy `A`. -/
def Preceded (P : Step S σ → Prop) (A : List (Step S σ) → Prop) (steps : List (Step S σ)) : Prop :=
  ∀ before e after, steps = before ++ e :: after → P e → A before

section Preceded

variable {P : Step S σ → Prop} {A : List (Step S σ) → Prop}

theorem Preceded.ofNone {steps : List (Step S σ)} (hnone : ∀ e ∈ steps, ¬ P e) :
    Preceded P A steps := by
  intro before e after hsteps hP
  exact absurd hP (hnone e (by simp [hsteps]))

/-- What is settled in a first part without such a step is settled before all of them. -/
theorem Preceded.append {first rest : List (Step S σ)} (hnone : ∀ e ∈ first, ¬ P e)
    (hA : ∀ more, A (first ++ more)) : Preceded P A (first ++ rest) := by
  intro before e after hsteps hP
  rcases List.append_eq_append_iff.1 hsteps with ⟨more, rfl, -⟩ | ⟨more, hfirst, hmore⟩
  · exact hA more
  · cases more with
    | nil =>
        rw [List.append_nil] at hfirst
        exact hfirst ▸ (List.append_nil first ▸ hA [])
    | cons e' more =>
        obtain ⟨rfl, -⟩ := List.cons.inj hmore
        exact absurd hP (hnone e (by simp [hfirst]))

/-- The rule for a sequence: its first program takes no such step, and settles `A` where it
returns. -/
theorem Preceded.bind {h : Handler S σ} {p : Prog S ε α} {f : α → Prog S ε β} {s : σ}
    (hnone : ∀ e ∈ (exec h p s).steps, ¬ P e)
    (hA : ∀ a, (exec h p s).res = .ok a → ∀ more, A ((exec h p s).steps ++ more)) :
    Preceded P A (exec h (p >>= f) s).steps := by
  cases hres : (exec h p s).res with
  | ok a =>
      rw [exec_bind_ok hres]
      exact .append hnone (hA a hres)
  | error e =>
      rw [exec_bind_error hres]
      exact .ofNone hnone

end Preceded

/-! ## Conversations -/

/-- A request and its response. -/
structure Answered (S : Signature) where
  req : S.Req
  resp : S.Resp req

def Step.answered (e : Step S σ) : Answered S := ⟨e.req, e.resp⟩

/-- All that is said in a run. -/
def Outcome.conversation (o : Outcome S σ ε α) : List (Answered S) := o.steps.map Step.answered

/-- What `p` and a server say to each other satisfies `T` together with the result of `p`, whatever
the server answers. -/
def Prog.Converses (T : List (Answered S) → Except ε α → Prop) : Prog S ε α → Prop
  | .ret a => T [] (.ok a)
  | .exit e => T [] (.error e)
  | .call r k => ∀ x, (k x).Converses fun talk => T (⟨r, x⟩ :: talk)

namespace Prog.Converses

theorem mono {T T' : List (Answered S) → Except ε α → Prop} {p : Prog S ε α} (hp : p.Converses T)
    (h : ∀ talk x, T talk x → T' talk x) : p.Converses T' := by
  induction p generalizing T T' with
  | ret a => exact h _ _ hp
  | exit e => exact h _ _ hp
  | call r k ih => exact fun x => ih x (hp x) fun talk => h (⟨r, x⟩ :: talk)

theorem bind {T : List (Answered S) → Except ε α → Prop}
    {T' : List (Answered S) → Except ε β → Prop}
    {p : Prog S ε α} {f : α → Prog S ε β} (hp : p.Converses T)
    (herror : ∀ talk e, T talk (.error e) → T' talk (.error e))
    (hf : ∀ talk a, T talk (.ok a) → (f a).Converses fun more => T' (talk ++ more)) :
    (p >>= f).Converses T' := by
  induction p generalizing T T' with
  | ret a => exact hf [] a hp
  | exit e => exact herror [] e hp
  | call r k ih =>
      exact fun x => ih x (hp x) (fun talk => herror (⟨r, x⟩ :: talk))
        fun talk => hf (⟨r, x⟩ :: talk)

theorem handle {T T' : List (Answered S) → Except ε α → Prop} {p : Prog S ε α}
    {f : ε → Prog S ε α} (hp : p.Converses T) (hok : ∀ talk a, T talk (.ok a) → T' talk (.ok a))
    (hf : ∀ talk e, T talk (.error e) → (f e).Converses fun more => T' (talk ++ more)) :
    (p.handle f).Converses T' := by
  induction p generalizing T T' with
  | ret a => exact hok [] a hp
  | exit e => exact hf [] e hp
  | call r k ih =>
      exact fun x => ih x (hp x) (fun talk => hok (⟨r, x⟩ :: talk))
        fun talk => hf (⟨r, x⟩ :: talk)

/-- The requests of a conversation are among those the program can issue. -/
theorem ofUses {φ : S.Req → Prop} {p : Prog S ε α} (hp : p.Uses φ) :
    p.Converses fun talk _ => ∀ a ∈ talk, φ a.req := by
  induction p with
  | ret a => exact fun a ha => by cases ha
  | exit e => exact fun a ha => by cases ha
  | call r k ih =>
      refine fun x => (ih x (hp.2 x)).mono fun talk _ htalk a ha => ?_
      rcases List.mem_cons.1 ha with rfl | ha
      · exact hp.1
      · exact htalk a ha

/-- **The conversation of a run** is one the program can have. -/
theorem exec {T : List (Answered S) → Except ε α → Prop} {p : Prog S ε α} (hp : p.Converses T)
    (h : Handler S σ) (s : σ) :
    T (Interaction.exec h p s).conversation (Interaction.exec h p s).res := by
  induction p generalizing T s with
  | ret a => exact hp
  | exit e => exact hp
  | call r k ih => exact ih _ (hp _) _

end Prog.Converses

/-- Everything that is said in `talk` meets `A` with all that was said before it, `first`
included. -/
def Follows (A : List (Answered S) → Answered S → Prop) (first talk : List (Answered S)) : Prop :=
  ∀ before a after, talk = before ++ a :: after → A (first ++ before) a

section Follows

variable {A : List (Answered S) → Answered S → Prop} {first talk more : List (Answered S)}

theorem Follows.of_forall (h : ∀ a ∈ talk, ∀ before, A before a) : Follows A first talk := by
  intro before a after heq
  exact h a (by simp [heq]) _

theorem Follows.nil : Follows A first [] := .of_forall nofun

theorem Follows.cons {a : Answered S} (ha : A first a) (h : Follows A (first ++ [a]) talk) :
    Follows A first (a :: talk) := by
  intro before b after heq
  cases before with
  | nil =>
      obtain ⟨rfl, -⟩ := List.cons.inj heq
      rwa [List.append_nil]
  | cons c before =>
      obtain ⟨rfl, htail⟩ := List.cons.inj heq
      have hb := h before b after htail
      rwa [List.append_assoc] at hb

theorem Follows.append (h : Follows A first talk) (hmore : Follows A (first ++ talk) more) :
    Follows A first (talk ++ more) := by
  induction talk generalizing first with
  | nil => rwa [List.append_nil] at hmore
  | cons a talk ih =>
      refine .cons (List.append_nil first ▸ h [] a talk rfl) (ih (fun before b after heq => ?_) ?_)
      · rw [List.append_assoc]
        exact h (a :: before) b after (by rw [heq]; rfl)
      · rwa [List.append_assoc]

end Follows

/-- The server `h` says its part of the conversation, from the state `s` to the state `t`. -/
def Serves (h : Handler S σ) : σ → List (Answered S) → σ → Prop
  | s, [], t => t = s
  | s, a :: talk, t => a.resp = (h a.req s).1 ∧ Serves h (h a.req s).2 talk t

section Serves

variable {h : Handler S σ} {s t : σ} {talk more : List (Answered S)}

theorem exec_serves (h : Handler S σ) (p : Prog S ε α) (s : σ) :
    Serves h s (exec h p s).conversation (exec h p s).state := by
  induction p generalizing s with
  | ret a => rfl
  | exit e => rfl
  | call r k ih => exact ⟨rfl, ih _ _⟩

theorem Serves.split (hserves : Serves h s (talk ++ more) t) :
    ∃ u, Serves h s talk u ∧ Serves h u more t := by
  induction talk generalizing s with
  | nil => exact ⟨s, rfl, hserves⟩
  | cons a talk ih =>
      obtain ⟨u, htalk, hmore⟩ := ih hserves.2
      exact ⟨u, ⟨hserves.1, htalk⟩, hmore⟩

/-- What none of the requests changes. -/
theorem Serves.keeps {β : Type} {f : σ → β} (hserves : Serves h s talk t)
    (hf : ∀ a ∈ talk, ∀ s, f (h a.req s).2 = f s) : f t = f s := by
  induction talk generalizing s with
  | nil => exact congrArg f hserves
  | cons a talk ih =>
      rw [ih hserves.2 fun b hb => hf b (List.mem_cons_of_mem _ hb)]
      exact hf a List.mem_cons_self s

end Serves

/-! ## Stopping at the first failure -/

/-- The first response that counts as failed ends the program with an exit in `E`. -/
def Prog.FailsFast (failed : (r : S.Req) → S.Resp r → Prop) (E : ε → Prop) : Prog S ε α → Prop
  | .ret _ => True
  | .exit _ => True
  | .call r k => ∀ x, (failed r x → ∃ e, E e ∧ k x = .exit e) ∧ (k x).FailsFast failed E

namespace Prog.FailsFast

variable {failed : (r : S.Req) → S.Resp r → Prop} {E : ε → Prop}

theorem bind {p : Prog S ε α} {f : α → Prog S ε β} (hp : p.FailsFast failed E)
    (hf : ∀ a, (f a).FailsFast failed E) : (p >>= f).FailsFast failed E := by
  induction p with
  | ret a => exact hf a
  | exit e => trivial
  | call r k ih =>
      intro x
      refine ⟨fun hfailed => ?_, ih x (hp x).2⟩
      obtain ⟨e, he, hexit⟩ := (hp x).1 hfailed
      refine ⟨e, he, ?_⟩
      show (k x >>= f) = .exit e
      rw [hexit, exit_bind]

theorem forEach {f : β → Prog S ε Unit} {bs : List β} (hf : ∀ b ∈ bs, (f b).FailsFast failed E) :
    (Prog.forEach f bs).FailsFast failed E := by
  induction bs with
  | nil => trivial
  | cons b bs ih =>
      exact (hf b List.mem_cons_self).bind fun _ =>
        ih fun c hc => hf c (List.mem_cons_of_mem _ hc)

/-- **A failure is reported.** -/
theorem result {h : Handler S σ} {p : Prog S ε α} (hp : p.FailsFast failed E) {s : σ}
    {e : Step S σ} (he : e ∈ (exec h p s).steps) (hfailed : failed e.req e.resp) :
    ∃ x, E x ∧ (exec h p s).res = .error x := by
  induction p generalizing s with
  | ret a => cases he
  | exit x => cases he
  | call r k ih =>
      rw [exec_call] at he ⊢
      rcases List.mem_cons.1 he with rfl | he
      · obtain ⟨x, hx, hexit⟩ := (hp _).1 hfailed
        refine ⟨x, hx, ?_⟩
        rw [hexit, exec_exit]
      · exact ih _ (hp _).2 he

end Prog.FailsFast

end Interaction
