import Mathlib.Tactic.Common

/-!
# Programs that talk to a server

A controller is a program whose only effects are requests to something outside it. This file
gives such programs a meaning that does not fix the server in advance.

* `Prog S ε α` — a tree of requests of the signature `S`. Every node is a request together with
  the program that continues from each possible response; a leaf returns a value or leaves the
  whole program with an `ε`.
* `exec h p s` — what the program does against the handler `h` from the state `s`: its result,
  the state left behind, and the steps taken. Each step keeps the state its request was served
  in, so that a property can speak of what was there *at that moment*.
* `Uses φ p` — every request `p` can issue, whatever it is answered, satisfies `φ`.
* `Yields R p` — every value `p` can return satisfies `R`.
* `Leads h G p s q t` — after some steps that meet `G`, the run of `p` is that of `q`.
* `turns h f c bs s` — the turns a loop takes, one outcome each.
* `Triple h P p Q G` — from `P`, the program ends in `Q` and every step on the way meets `G`.

Since a handler is an arbitrary function of the request and the state, a statement about all
handlers is a statement about all responses.
-/

namespace Interaction

/-- The requests a program may issue, and the type of the response to each. -/
structure Signature where
  Req : Type
  Resp : Req → Type

/-- A program over the signature `S` that may leave early with an `ε`. -/
inductive Prog (S : Signature) (ε α : Type) : Type where
  | ret (a : α)
  | exit (e : ε)
  | call (r : S.Req) (k : S.Resp r → Prog S ε α)

namespace Prog

variable {S : Signature} {ε ε' α β γ : Type}

/-- Run `f` on the value `p` returns; an early exit skips it. -/
def bind (p : Prog S ε α) (f : α → Prog S ε β) : Prog S ε β :=
  match p with
  | .ret a => f a
  | .exit e => .exit e
  | .call r k => .call r fun x => (k x).bind f

instance : Monad (Prog S ε) where
  pure := .ret
  bind := Prog.bind

/-- Issue one request and return its response. -/
def request (r : S.Req) : Prog S ε (S.Resp r) := .call r .ret

/-- Hand an early exit to the caller as a value. -/
def attempt (p : Prog S ε α) : Prog S ε' (Except ε α) :=
  match p with
  | .ret a => .ret (.ok a)
  | .exit e => .ret (.error e)
  | .call r k => .call r fun x => (k x).attempt

/-- Run `f` on an early exit of `p`; a value skips it. -/
def handle (p : Prog S ε α) (f : ε → Prog S ε α) : Prog S ε α :=
  match p with
  | .ret a => .ret a
  | .exit e => f e
  | .call r k => .call r fun x => (k x).handle f

@[simp] theorem pure_eq (a : α) : (pure a : Prog S ε α) = .ret a := rfl

@[simp] theorem ret_bind (a : α) (f : α → Prog S ε β) : (Prog.ret a >>= f) = f a := rfl

@[simp] theorem exit_bind (e : ε) (f : α → Prog S ε β) :
    (Prog.exit e >>= f) = .exit e := rfl

@[simp] theorem call_bind (r : S.Req) (k : S.Resp r → Prog S ε α) (f : α → Prog S ε β) :
    (Prog.call r k >>= f) = .call r fun x => k x >>= f := rfl

@[simp] theorem request_bind (r : S.Req) (f : S.Resp r → Prog S ε β) :
    (request r >>= f) = .call r f := rfl

theorem bind_ret (p : Prog S ε α) : (p >>= Prog.ret) = p := by
  induction p with
  | ret a => rfl
  | exit e => rfl
  | call r k ih => simp only [call_bind, ih]

theorem bind_assoc (p : Prog S ε α) (f : α → Prog S ε β) (g : β → Prog S ε γ) :
    (p >>= f >>= g) = p >>= fun a => f a >>= g := by
  induction p with
  | ret a => rfl
  | exit e => rfl
  | call r k ih => simp only [call_bind, ih]

/-! ## Loops -/

/-- Run `f` on every element in turn. -/
def forEach (f : β → Prog S ε Unit) : List β → Prog S ε Unit
  | [] => .ret ()
  | b :: bs => f b >>= fun _ => forEach f bs

/-- Run `f` on every element in turn, threading an accumulator, until the list is used up or
`f` answers `none`. -/
def iterate (f : γ → β → Prog S ε (Option γ)) : γ → List β → Prog S ε (Option γ)
  | c, [] => .ret (some c)
  | c, b :: bs => f c b >>= fun
      | none => .ret none
      | some c' => iterate f c' bs

/-- `iterate` for a body that never stops early. -/
def accumulate (f : γ → β → Prog S ε γ) : γ → List β → Prog S ε γ
  | c, [] => .ret c
  | c, b :: bs => f c b >>= fun c' => accumulate f c' bs

@[simp] theorem forEach_nil (f : β → Prog S ε Unit) : forEach f [] = .ret () := rfl

@[simp] theorem forEach_cons (f : β → Prog S ε Unit) (b : β) (bs : List β) :
    forEach f (b :: bs) = f b >>= fun _ => forEach f bs := rfl

@[simp] theorem iterate_nil (f : γ → β → Prog S ε (Option γ)) (c : γ) :
    iterate f c [] = .ret (some c) := rfl

@[simp] theorem accumulate_nil (f : γ → β → Prog S ε γ) (c : γ) :
    accumulate f c [] = .ret c := rfl

@[simp] theorem accumulate_cons (f : γ → β → Prog S ε γ) (c : γ) (b : β) (bs : List β) :
    accumulate f c (b :: bs) = f c b >>= fun c' => accumulate f c' bs := rfl

theorem forEach_map (f : γ → Prog S ε Unit) (g : β → γ) (bs : List β) :
    forEach f (bs.map g) = forEach (fun b => f (g b)) bs := by
  induction bs with
  | nil => rfl
  | cons b bs ih => rw [List.map_cons, forEach_cons, forEach_cons, ih]

/-- A loop whose accumulator does not depend on any response is a loop without one. -/
theorem accumulate_eq_forEach {f : γ → β → Prog S ε γ} {act : β → Prog S ε Unit} {g : γ → β → γ}
    (hf : ∀ c b, f c b = act b >>= fun _ => .ret (g c b)) (c : γ) (bs : List β) :
    accumulate f c bs = forEach act bs >>= fun _ => .ret (bs.foldl g c) := by
  induction bs generalizing c with
  | nil => rfl
  | cons b bs ih =>
      rw [accumulate_cons, forEach_cons, hf, bind_assoc, bind_assoc]
      simp only [ret_bind, ih, List.foldl_cons]

/-! ## The requests a program can issue -/

/-- Every request of `p`, on every path of responses, satisfies `φ`. -/
def Uses (φ : S.Req → Prop) : Prog S ε α → Prop
  | .ret _ => True
  | .exit _ => True
  | .call r k => φ r ∧ ∀ x, (k x).Uses φ

variable {φ ψ : S.Req → Prop}

@[simp] theorem uses_ret (a : α) : (Prog.ret a : Prog S ε α).Uses φ := trivial

@[simp] theorem uses_exit (e : ε) : (Prog.exit e : Prog S ε α).Uses φ := trivial

@[simp] theorem uses_call (r : S.Req) (k : S.Resp r → Prog S ε α) :
    (Prog.call r k).Uses φ ↔ φ r ∧ ∀ x, (k x).Uses φ := Iff.rfl

@[simp] theorem uses_request (r : S.Req) :
    (request r : Prog S ε (S.Resp r)).Uses φ ↔ φ r := by
  simp [request]

theorem Uses.bind {p : Prog S ε α} {f : α → Prog S ε β} (hp : p.Uses φ)
    (hf : ∀ a, (f a).Uses φ) : (p >>= f).Uses φ := by
  induction p with
  | ret a => exact hf a
  | exit e => trivial
  | call r k ih => exact ⟨hp.1, fun x => ih x (hp.2 x)⟩

theorem Uses.mono {p : Prog S ε α} (hp : p.Uses φ) (h : ∀ r, φ r → ψ r) : p.Uses ψ := by
  induction p with
  | ret a => trivial
  | exit e => trivial
  | call r k ih => exact ⟨h r hp.1, fun x => ih x (hp.2 x)⟩

theorem uses_of_forall (p : Prog S ε α) (h : ∀ r, φ r) : p.Uses φ := by
  induction p with
  | ret a => trivial
  | exit e => trivial
  | call r k ih => exact ⟨h r, ih⟩

theorem Uses.attempt {p : Prog S ε α} (hp : p.Uses φ) :
    (p.attempt : Prog S ε' (Except ε α)).Uses φ := by
  induction p with
  | ret a => trivial
  | exit e => trivial
  | call r k ih => exact ⟨hp.1, fun x => ih x (hp.2 x)⟩

theorem Uses.forEach {f : β → Prog S ε Unit} {bs : List β} (h : ∀ b ∈ bs, (f b).Uses φ) :
    (Prog.forEach f bs).Uses φ := by
  induction bs with
  | nil => trivial
  | cons b bs ih =>
      exact (h b List.mem_cons_self).bind fun _ =>
        ih fun c hc => h c (List.mem_cons_of_mem _ hc)

theorem Uses.accumulate {f : γ → β → Prog S ε γ} {bs : List β}
    (h : ∀ c, ∀ b ∈ bs, (f c b).Uses φ) (c : γ) : (Prog.accumulate f c bs).Uses φ := by
  induction bs generalizing c with
  | nil => trivial
  | cons b bs ih =>
      exact (h c b List.mem_cons_self).bind fun c' =>
        ih (fun d e he => h d e (List.mem_cons_of_mem _ he)) c'

theorem Uses.iterate {φ : S.Req → Prop} {f : γ → β → Prog S ε (Option γ)} {bs : List β}
    (h : ∀ c, ∀ b ∈ bs, (f c b).Uses φ) (c : γ) : (Prog.iterate f c bs).Uses φ := by
  induction bs generalizing c with
  | nil => trivial
  | cons b bs ih =>
      refine (h c b List.mem_cons_self).bind fun x => ?_
      cases x with
      | none => trivial
      | some c' => exact ih (fun d e he => h d e (List.mem_cons_of_mem _ he)) c'

/-! ## The values a program can return -/

/-- Every value `p` can return, on every path of responses, satisfies `R`. -/
def Yields (R : α → Prop) : Prog S ε α → Prop
  | .ret a => R a
  | .exit _ => True
  | .call _ k => ∀ x, (k x).Yields R

@[simp] theorem yields_ret {R : α → Prop} (a : α) : (Prog.ret a : Prog S ε α).Yields R ↔ R a :=
  Iff.rfl

@[simp] theorem yields_exit {R : α → Prop} (e : ε) : (Prog.exit e : Prog S ε α).Yields R := trivial

@[simp] theorem yields_call {R : α → Prop} (r : S.Req) (k : S.Resp r → Prog S ε α) :
    (Prog.call r k).Yields R ↔ ∀ x, (k x).Yields R := Iff.rfl

theorem yields_true (p : Prog S ε α) : p.Yields fun _ => True := by
  induction p with
  | ret a => trivial
  | exit e => trivial
  | call r k ih => exact ih

theorem Yields.bind {R : α → Prop} {Q : β → Prop} {p : Prog S ε α} {f : α → Prog S ε β}
    (hp : p.Yields R) (hf : ∀ a, R a → (f a).Yields Q) : (p >>= f).Yields Q := by
  induction p with
  | ret a => exact hf a hp
  | exit e => trivial
  | call r k ih => exact fun x => ih x (hp x)

theorem Yields.mono {R Q : α → Prop} {p : Prog S ε α} (hp : p.Yields R) (h : ∀ a, R a → Q a) :
    p.Yields Q := by
  induction p with
  | ret a => exact h a hp
  | exit e => trivial
  | call r k ih => exact fun x => ih x (hp x)

theorem Yields.iterate {I : γ → Prop} {f : γ → β → Prog S ε (Option γ)}
    (hf : ∀ c b, I c → (f c b).Yields fun x => ∀ c', x = some c' → I c') {c : γ} {bs : List β}
    (hc : I c) : (Prog.iterate f c bs).Yields fun x => ∀ c', x = some c' → I c' := by
  induction bs generalizing c with
  | nil =>
      intro c' heq
      cases heq
      exact hc
  | cons b bs ih =>
      refine (hf c b hc).bind fun x hx => ?_
      cases x with
      | none =>
          intro c' heq
          cases heq
      | some c' => exact ih (hx c' rfl)

/-- Sequencing where the second program depends on what the first can return. -/
theorem Uses.bindYields {R : α → Prop} {p : Prog S ε α} {f : α → Prog S ε β} (hp : p.Uses φ)
    (hy : p.Yields R) (hf : ∀ a, R a → (f a).Uses φ) : (p >>= f).Uses φ := by
  induction p with
  | ret a => exact hf a hy
  | exit e => trivial
  | call r k ih => exact ⟨hp.1, fun x => ih x (hp.2 x) (hy x)⟩

end Prog

/-! ## Execution against a handler -/

/-- How a server answers a request, and what it leaves behind. -/
abbrev Handler (S : Signature) (σ : Type) := (r : S.Req) → σ → S.Resp r × σ

/-- One request, the state it was served in, and its response. -/
structure Step (S : Signature) (σ : Type) where
  pre : σ
  req : S.Req
  resp : S.Resp req

/-- What a program did: its result, the final state, and its steps in order. -/
structure Outcome (S : Signature) (σ ε α : Type) where
  res : Except ε α
  state : σ
  steps : List (Step S σ)

variable {S : Signature} {σ ε α β γ : Type}

/-- Run a program against a handler. -/
def exec (h : Handler S σ) : Prog S ε α → σ → Outcome S σ ε α
  | .ret a, s => ⟨.ok a, s, []⟩
  | .exit e, s => ⟨.error e, s, []⟩
  | .call r k, s =>
      let o := exec h (k (h r s).1) (h r s).2
      ⟨o.res, o.state, ⟨s, r, (h r s).1⟩ :: o.steps⟩

section Exec

variable (h : Handler S σ)

@[simp] theorem exec_ret (a : α) (s : σ) :
    exec h (.ret a : Prog S ε α) s = ⟨.ok a, s, []⟩ := rfl

@[simp] theorem exec_exit (e : ε) (s : σ) :
    exec h (.exit e : Prog S ε α) s = ⟨.error e, s, []⟩ := rfl

@[simp] theorem exec_call (r : S.Req) (k : S.Resp r → Prog S ε α) (s : σ) :
    exec h (.call r k) s =
      ⟨(exec h (k (h r s).1) (h r s).2).res, (exec h (k (h r s).1) (h r s).2).state,
        ⟨s, r, (h r s).1⟩ :: (exec h (k (h r s).1) (h r s).2).steps⟩ := rfl

/-- Continue an outcome: a returned value goes on, an early exit stays. -/
def Outcome.andThen (o : Outcome S σ ε α) (f : α → σ → Outcome S σ ε β) : Outcome S σ ε β :=
  match o.res with
  | .ok a => ⟨(f a o.state).res, (f a o.state).state, o.steps ++ (f a o.state).steps⟩
  | .error e => ⟨.error e, o.state, o.steps⟩

theorem exec_bind (p : Prog S ε α) (f : α → Prog S ε β) (s : σ) :
    exec h (p >>= f) s = (exec h p s).andThen fun a t => exec h (f a) t := by
  induction p generalizing s with
  | ret a => rfl
  | exit e => rfl
  | call r k ih =>
      simp only [Prog.call_bind, exec_call, ih]
      unfold Outcome.andThen
      split <;> simp_all

variable {h}

theorem exec_bind_ok {p : Prog S ε α} {s : σ} {a : α} (hres : (exec h p s).res = .ok a)
    (f : α → Prog S ε β) :
    exec h (p >>= f) s = ⟨(exec h (f a) (exec h p s).state).res,
      (exec h (f a) (exec h p s).state).state,
      (exec h p s).steps ++ (exec h (f a) (exec h p s).state).steps⟩ := by
  rw [exec_bind]
  simp [Outcome.andThen, hres]

theorem exec_bind_error {p : Prog S ε α} {s : σ} {e : ε} (hres : (exec h p s).res = .error e)
    (f : α → Prog S ε β) :
    exec h (p >>= f) s = ⟨.error e, (exec h p s).state, (exec h p s).steps⟩ := by
  rw [exec_bind]
  simp [Outcome.andThen, hres]

/-- A sequence that returns: both programs do, and its steps are theirs. -/
theorem exec_bind_returned {p : Prog S ε α} {f : α → Prog S ε β} {s : σ} {b : β}
    (hres : (exec h (p >>= f) s).res = .ok b) :
    ∃ a, (exec h p s).res = .ok a ∧ (exec h (f a) (exec h p s).state).res = .ok b ∧
      (exec h (p >>= f) s).steps =
        (exec h p s).steps ++ (exec h (f a) (exec h p s).state).steps := by
  cases hfirst : (exec h p s).res with
  | error e =>
      rw [exec_bind_error hfirst] at hres
      cases hres
  | ok a =>
      rw [exec_bind_ok hfirst] at hres ⊢
      exact ⟨a, rfl, hres, rfl⟩

/-- Reshaping the returned value touches nothing outside. -/
@[simp] theorem exec_bind_pure_state (p : Prog S ε α) (f : α → β) (s : σ) :
    (exec h (p >>= fun a => .ret (f a)) s).state = (exec h p s).state := by
  cases hres : (exec h p s).res with
  | error e => rw [exec_bind_error hres]
  | ok a => rw [exec_bind_ok hres, exec_ret]

@[simp] theorem exec_bind_pure_steps (p : Prog S ε α) (f : α → β) (s : σ) :
    (exec h (p >>= fun a => .ret (f a)) s).steps = (exec h p s).steps := by
  cases hres : (exec h p s).res with
  | error e => rw [exec_bind_error hres]
  | ok a => rw [exec_bind_ok hres, exec_ret, List.append_nil]

theorem mem_steps_bind {p : Prog S ε α} {f : α → Prog S ε β} {s : σ} {e : Step S σ}
    (he : e ∈ (exec h (p >>= f) s).steps) :
    e ∈ (exec h p s).steps ∨
      ∃ a, (exec h p s).res = .ok a ∧ e ∈ (exec h (f a) (exec h p s).state).steps := by
  cases hres : (exec h p s).res with
  | error err =>
      rw [exec_bind_error hres] at he
      exact .inl he
  | ok a =>
      rw [exec_bind_ok hres] at he
      exact (List.mem_append.1 he).imp_right fun he => ⟨a, rfl, he⟩

theorem exec_bind_begins (p : Prog S ε α) (f : α → Prog S ε β) (s : σ) :
    (exec h p s).steps <+: (exec h (p >>= f) s).steps := by
  cases hres : (exec h p s).res with
  | ok a =>
      rw [exec_bind_ok hres]
      exact List.prefix_append _ _
  | error e =>
      have hsteps : (exec h (p >>= f) s).steps = (exec h p s).steps := by rw [exec_bind_error hres]
      exact hsteps ▸ List.prefix_refl _

/-- The first step is taken in the state the run starts in. -/
theorem exec_steps_head {p : Prog S ε α} {s : σ} {e : Step S σ} {es : List (Step S σ)}
    (hsteps : (exec h p s).steps = e :: es) : e.pre = s := by
  cases p with
  | ret a => cases hsteps
  | exit e => cases hsteps
  | call r k =>
      rw [exec_call] at hsteps
      rw [← (List.cons.inj hsteps).1]

/-- A step is answered as the handler answers it in the state it is taken in. -/
theorem exec_steps_resp {p : Prog S ε α} {s : σ} {e : Step S σ} (he : e ∈ (exec h p s).steps) :
    e.resp = (h e.req e.pre).1 := by
  induction p generalizing s with
  | ret a => cases he
  | exit e => cases he
  | call r k ih =>
      rcases List.mem_cons.1 he with rfl | he
      · rfl
      · exact ih _ he

/-- **Invariants along a run.** What holds at the start and is kept by every step before `e` holds
in the state `e` is taken in. -/
theorem exec_steps_invariant {I : σ → Prop} {p : Prog S ε α} {s : σ}
    {before after : List (Step S σ)}
    {e : Step S σ} (hsteps : (exec h p s).steps = before ++ e :: after)
    (hstep : ∀ b ∈ before, I b.pre → I (h b.req b.pre).2) (hs : I s) : I e.pre := by
  induction before generalizing p s with
  | nil => exact exec_steps_head hsteps ▸ hs
  | cons b before ih =>
      cases p with
      | ret a => cases hsteps
      | exit e => cases hsteps
      | call r k =>
          rw [exec_call, List.cons_append] at hsteps
          obtain ⟨rfl, htail⟩ := List.cons.inj hsteps
          have hnext := hstep _ List.mem_cons_self hs
          exact ih htail (fun b hb => hstep b (List.mem_cons_of_mem _ hb)) hnext

/-- What every step of the run keeps holds at its end. -/
theorem exec_state_invariant {I : σ → Prop} {p : Prog S ε α} {s : σ}
    (hstep : ∀ e ∈ (exec h p s).steps, I e.pre → I (h e.req e.pre).2) (hs : I s) :
    I (exec h p s).state := by
  induction p generalizing s with
  | ret a => exact hs
  | exit e => exact hs
  | call r k ih =>
      have hnext := hstep _ List.mem_cons_self hs
      exact ih _ (fun e he => hstep e (List.mem_cons_of_mem _ he)) hnext

/-- **From one step to a later one.** What every step keeps between its two states holds between the
state a step leaves and the one a later step is taken in. -/
theorem exec_steps_later {R : σ → σ → Prop} (hrefl : ∀ s, R s s)
    (htrans : ∀ s t u, R s t → R t u → R s u) (hstep : ∀ r s, R s (h r s).2)
    {p : Prog S ε α} {s : σ} {before after : List (Step S σ)} {g e : Step S σ}
    (hsteps : (exec h p s).steps = before ++ e :: after) (hg : g ∈ before) :
    R (h g.req g.pre).2 e.pre := by
  induction p generalizing s before with
  | ret a =>
      have hlength := congrArg List.length hsteps
      simp at hlength
  | exit x =>
      have hlength := congrArg List.length hsteps
      simp at hlength
  | call r k ih =>
      cases before with
      | nil => cases hg
      | cons b before =>
          obtain ⟨hfirst, hrest⟩ := List.cons.inj hsteps
          rcases List.mem_cons.1 hg with rfl | hg
          · -- from the first step on, everything is kept
            rw [← hfirst]
            exact exec_steps_invariant hrest
              (fun b _ hb => htrans _ _ _ hb (hstep b.req b.pre)) (hrefl _)
          · exact ih _ hrest hg

/-- Where two handlers answer alike whatever their states, the program has one result. -/
theorem exec_res_congr {τ : Type} {h : Handler S σ} {h' : Handler S τ} {p : Prog S ε α}
    (hp : p.Uses fun r => ∀ s t, (h r s).1 = (h' r t).1) (s : σ) (t : τ) :
    (exec h p s).res = (exec h' p t).res := by
  induction p generalizing s t with
  | ret a => rfl
  | exit e => rfl
  | call r k ih =>
      simp only [exec_call]
      rw [hp.1 s t]
      exact ih _ (hp.2 _) _ _

theorem Prog.Uses.steps {φ : S.Req → Prop} {h : Handler S σ} {p : Prog S ε α} (hp : p.Uses φ)
    {s : σ} {e : Step S σ} (he : e ∈ (exec h p s).steps) : φ e.req := by
  induction p generalizing s with
  | ret a => simp at he
  | exit e => simp at he
  | call r k ih =>
      rcases List.mem_cons.1 he with rfl | he
      · exact hp.1
      · exact ih _ (hp.2 _) he

theorem Prog.Yields.result {R : α → Prop} {h : Handler S σ} {p : Prog S ε α} (hp : p.Yields R)
    {s : σ} {a : α} (hres : (exec h p s).res = .ok a) : R a := by
  induction p generalizing s with
  | ret b =>
      cases hres
      exact hp
  | exit e => cases hres
  | call r k ih => exact ih _ (hp _) hres

/-- A program whose early exits are handed on as values returns. -/
theorem exec_attempt_returns {ε' : Type} (h : Handler S σ) (p : Prog S ε α) (s : σ) :
    ∃ x, (exec h (p.attempt : Prog S ε' (Except ε α)) s).res = .ok x := by
  induction p generalizing s with
  | ret a => exact ⟨_, rfl⟩
  | exit e => exact ⟨_, rfl⟩
  | call r k ih => exact ih _ _

end Exec

/-! ## Going on as another program -/

/-- Running `p` from `s` takes steps that meet `G`, and goes on as `q` from `t`. -/
def Leads (h : Handler S σ) (G : Step S σ → Prop) (p : Prog S ε α) (s : σ)
    (q : Prog S ε α) (t : σ) : Prop :=
  ∃ steps, (∀ e ∈ steps, G e) ∧
    exec h p s = ⟨(exec h q t).res, (exec h q t).state, steps ++ (exec h q t).steps⟩

namespace Leads

variable {h : Handler S σ} {G : Step S σ → Prop} {p q r : Prog S ε α} {s t u : σ}

theorem trans (hpq : Leads h G p s q t) (hqr : Leads h G q t r u) : Leads h G p s r u := by
  obtain ⟨steps, hsteps, hp⟩ := hpq
  obtain ⟨steps', hsteps', hq⟩ := hqr
  refine ⟨steps ++ steps', fun e he => ?_, ?_⟩
  · exact (List.mem_append.1 he).elim (hsteps e) (hsteps' e)
  · rw [hp, hq, List.append_assoc]

theorem ofCall {req : S.Req} {k : S.Resp req → Prog S ε α} (hG : G ⟨s, req, (h req s).1⟩) :
    Leads h G (.call req k) s (k (h req s).1) (h req s).2 :=
  ⟨[⟨s, req, (h req s).1⟩], fun _ he => List.mem_singleton.1 he ▸ hG, rfl⟩

theorem ofBind {p : Prog S ε β} {a : β} (hres : (exec h p s).res = .ok a)
    (hG : ∀ e ∈ (exec h p s).steps, G e) (f : β → Prog S ε α) :
    Leads h G (p >>= f) s (f a) (exec h p s).state :=
  ⟨(exec h p s).steps, hG, exec_bind_ok hres f⟩

end Leads

/-! ## The turns of a loop -/

/-- The outcomes of the turns `iterate` takes: it stops after one that answers `none` or leaves
early. -/
def turns (h : Handler S σ) (f : γ → β → Prog S ε (Option γ)) :
    γ → List β → σ → List (Outcome S σ ε (Option γ))
  | _, [], _ => []
  | c, b :: bs, s =>
      exec h (f c b) s ::
        match (exec h (f c b) s).res with
        | .ok (some c') => turns h f c' bs (exec h (f c b) s).state
        | _ => []

section Turns

variable {h : Handler S σ} {f : γ → β → Prog S ε (Option γ)}

theorem exec_iterate_steps (c : γ) (bs : List β) (s : σ) :
    (exec h (Prog.iterate f c bs) s).steps = ((turns h f c bs s).map Outcome.steps).flatten := by
  induction bs generalizing c s with
  | nil => rfl
  | cons b bs ih =>
      cases hres : (exec h (f c b) s).res with
      | error e => simp [Prog.iterate, turns, exec_bind_error hres, hres]
      | ok x =>
          cases x with
          | none => simp [Prog.iterate, turns, exec_bind_ok hres, hres]
          | some c' => simp [Prog.iterate, turns, exec_bind_ok hres, hres, ih]

/-- What holds of every turn taken from an accumulator that meets `I`, where a turn that goes on
keeps `I`. The `i`-th turn is the one of the `i`-th element. -/
theorem turns_forall {I : γ → Prop} {R : β → Outcome S σ ε (Option γ) → Prop}
    (hR : ∀ c b s, I c → R b (exec h (f c b) s))
    (hI : ∀ c b s c', I c → (exec h (f c b) s).res = .ok (some c') → I c') {c : γ} (hc : I c)
    {bs : List β} {s : σ} {i : ℕ} (hi : i < (turns h f c bs s).length) :
    ∃ b, bs[i]? = some b ∧ R b (turns h f c bs s)[i] := by
  induction bs generalizing c s i with
  | nil => simp [turns] at hi
  | cons b bs ih =>
      cases i with
      | zero => exact ⟨b, rfl, hR c b s hc⟩
      | succ i =>
          cases hres : (exec h (f c b) s).res with
          | error e => simp [turns, hres] at hi
          | ok x =>
              cases x with
              | none => simp [turns, hres] at hi
              | some c' =>
                  simp only [turns, hres, List.length_cons, Nat.add_lt_add_iff_right] at hi
                  simpa [turns, hres] using ih (hI c b s c' hc hres) hi

/-- A turn that another one follows went on. -/
theorem turns_continued {c : γ} {bs : List β} {s : σ} {i : ℕ}
    (hi : i + 1 < (turns h f c bs s).length) :
    ∃ c', ((turns h f c bs s)[i]).res = .ok (some c') := by
  induction bs generalizing c s i with
  | nil => simp [turns] at hi
  | cons b bs ih =>
      cases hres : (exec h (f c b) s).res with
      | error e => simp [turns, hres] at hi
      | ok x =>
          cases x with
          | none => simp [turns, hres] at hi
          | some c' =>
              cases i with
              | zero => exact ⟨c', hres⟩
              | succ i =>
                  simp only [turns, hres, List.length_cons, Nat.add_lt_add_iff_right] at hi
                  simpa [turns, hres] using ih hi

/-- A loop that gets to its end took a turn for every element, and each of them went on. -/
theorem turns_of_done {c c' : γ} {bs : List β} {s : σ}
    (hres : (exec h (Prog.iterate f c bs) s).res = .ok (some c')) :
    (turns h f c bs s).length = bs.length ∧
      ∀ o ∈ turns h f c bs s, ∃ c', o.res = .ok (some c') := by
  induction bs generalizing c s with
  | nil => simp [turns]
  | cons b bs ih =>
      cases hb : (exec h (f c b) s).res with
      | error e => simp [Prog.iterate, exec_bind_error hb] at hres
      | ok x =>
          cases x with
          | none => simp [Prog.iterate, exec_bind_ok hb] at hres
          | some d =>
              simp only [Prog.iterate, exec_bind_ok hb] at hres
              obtain ⟨hlen, hall⟩ := ih hres
              refine ⟨by simp [turns, hb, hlen], ?_⟩
              intro o ho
              simp only [turns, hb, List.mem_cons] at ho
              rcases ho with rfl | ho
              · exact ⟨d, hb⟩
              · exact hall o ho

end Turns

/-! ## Rules -/

/-- From `P`, the program ends in `Q` and every step on the way meets the guarantee `G`. -/
def Triple (h : Handler S σ) (P : σ → Prop) (p : Prog S ε α)
    (Q : Except ε α → σ → Prop) (G : Step S σ → Prop) : Prop :=
  ∀ s, P s → Q (exec h p s).res (exec h p s).state ∧ ∀ e ∈ (exec h p s).steps, G e

namespace Triple

variable {h : Handler S σ} {P P' : σ → Prop} {G G' : Step S σ → Prop}

theorem ret {Q : Except ε α → σ → Prop} {a : α} (hQ : ∀ s, P s → Q (.ok a) s) :
    Triple h P (.ret a) Q G :=
  fun s hs => ⟨hQ s hs, by simp⟩

theorem exit {Q : Except ε α → σ → Prop} {e : ε} (hQ : ∀ s, P s → Q (.error e) s) :
    Triple h P (.exit e) Q G :=
  fun s hs => ⟨hQ s hs, by simp⟩

theorem conseq {Q Q' : Except ε α → σ → Prop} {p : Prog S ε α} (ht : Triple h P' p Q' G')
    (hP : ∀ s, P s → P' s) (hQ : ∀ x s, Q' x s → Q x s) (hG : ∀ e, G' e → G e) :
    Triple h P p Q G :=
  fun s hs =>
    have ⟨hq, hg⟩ := ht s (hP s hs)
    ⟨hQ _ _ hq, fun e he => hG e (hg e he)⟩

theorem call {Q : Except ε α → σ → Prop} {r : S.Req} {k : S.Resp r → Prog S ε α}
    (hG : ∀ s, P s → G ⟨s, r, (h r s).1⟩)
    (hk : ∀ x, Triple h (fun t => ∃ s, P s ∧ h r s = (x, t)) (k x) Q G) :
    Triple h P (.call r k) Q G := by
  intro s hs
  obtain ⟨hQ, hsteps⟩ := hk (h r s).1 (h r s).2 ⟨s, hs, rfl⟩
  refine ⟨hQ, fun e he => ?_⟩
  rcases List.mem_cons.1 he with rfl | he
  · exact hG s hs
  · exact hsteps e he

/-- A request that leads from `P` to a condition on its response and the state it leaves. -/
theorem step {Q : Except ε α → σ → Prop} {r : S.Req} {M : S.Resp r → σ → Prop}
    {k : S.Resp r → Prog S ε α} (hG : ∀ s, P s → G ⟨s, r, (h r s).1⟩)
    (hM : ∀ s, P s → M (h r s).1 (h r s).2) (hk : ∀ x, Triple h (M x) (k x) Q G) :
    Triple h P (.call r k) Q G := by
  refine call hG fun x => (hk x).conseq ?_ (fun _ _ hq => hq) (fun _ he => he)
  rintro t ⟨s, hs, ht⟩
  have := hM s hs
  rwa [ht] at this

theorem bind {Q : Except ε β → σ → Prop} {M : α → σ → Prop} {p : Prog S ε α}
    {f : α → Prog S ε β}
    (hp : Triple h P p (fun | .ok a => M a | .error e => Q (.error e)) G)
    (hf : ∀ a, Triple h (M a) (f a) Q G) : Triple h P (p >>= f) Q G := by
  intro s hs
  obtain ⟨hQ, hsteps⟩ := hp s hs
  cases hres : (exec h p s).res with
  | ok a =>
      rw [hres] at hQ
      obtain ⟨hQ', hsteps'⟩ := hf a _ hQ
      rw [exec_bind_ok hres]
      refine ⟨hQ', fun e he => ?_⟩
      rcases List.mem_append.1 he with he | he
      · exact hsteps e he
      · exact hsteps' e he
  | error e =>
      rw [hres] at hQ
      rw [exec_bind_error hres]
      exact ⟨hQ, hsteps⟩

/-- **Invariants.** If every request the program can issue keeps `I` and meets `G`, then so
does the whole program, however it ends. -/
theorem ofUses {I : σ → Prop} {p : Prog S ε α}
    (hp : p.Uses fun r => ∀ s, I s → I (h r s).2 ∧ G ⟨s, r, (h r s).1⟩) :
    Triple h I p (fun _ => I) G := by
  induction p with
  | ret a => exact ret fun _ hs => hs
  | exit e => exact exit fun _ hs => hs
  | call r k ih =>
      refine call (fun s hs => (hp.1 s hs).2) fun x => ?_
      refine (ih x (hp.2 x)).conseq ?_ (fun _ _ hq => hq) (fun _ he => he)
      rintro t ⟨s, hs, ht⟩
      have := (hp.1 s hs).1
      rwa [ht] at this

/-- Sequencing two programs that keep an invariant. -/
theorem bindInvariant {I : σ → Prop} {p : Prog S ε α} {f : α → Prog S ε β}
    (hp : Triple h I p (fun _ => I) G) (hf : ∀ a, Triple h I (f a) (fun _ => I) G) :
    Triple h I (p >>= f) (fun _ => I) G := by
  refine bind (M := fun _ => I) (hp.conseq (fun _ hs => hs) (fun x s hx => ?_) fun _ he => he) hf
  cases x <;> exact hx

/-- Sequencing after a program that keeps an invariant and does not leave early. -/
theorem bindSure {I : σ → Prop} {Q : Except ε β → σ → Prop} {p : Prog S ε α} {f : α → Prog S ε β}
    (hp : Triple h I p (fun x s => I s ∧ ∃ a, x = .ok a) G) (hf : ∀ a, Triple h I (f a) Q G) :
    Triple h I (p >>= f) Q G := by
  refine bind (M := fun _ => I) (hp.conseq (fun _ hs => hs) (fun x s hx => ?_) fun _ he => he) hf
  obtain ⟨hI, a, rfl⟩ := hx
  exact hI

theorem forEach {I : σ → Prop} {f : β → Prog S ε Unit} {bs : List β}
    (hf : ∀ b ∈ bs, Triple h I (f b) (fun _ => I) G) :
    Triple h I (Prog.forEach f bs) (fun _ => I) G := by
  induction bs with
  | nil => exact Triple.ret fun _ hs => hs
  | cons b bs ih =>
      exact (hf b List.mem_cons_self).bindInvariant fun _ =>
        ih fun c hc => hf c (List.mem_cons_of_mem _ hc)

/-- The invariant, and `R` of what is returned. -/
def Returns (I : σ → Prop) (R : α → Prop) : Except ε α → σ → Prop
  | .ok a, s => I s ∧ R a
  | .error _, s => I s

theorem Returns.invariant {I : σ → Prop} {R : α → Prop} {x : Except ε α} {s : σ}
    (hx : Returns I R x s) : I s := by
  cases x with
  | error e => exact hx
  | ok a => exact hx.1

/-- A program that keeps an invariant returns one of the values it can return. -/
theorem ofYields {I : σ → Prop} {R : α → Prop} {p : Prog S ε α}
    (hp : Triple h I p (fun _ => I) G) (hy : p.Yields R) : Triple h I p (Returns I R) G := by
  intro s hs
  obtain ⟨hI, hG⟩ := hp s hs
  refine ⟨?_, hG⟩
  cases hres : (exec h p s).res with
  | error e => exact hI
  | ok a => exact ⟨hI, hy.result hres⟩

/-- A program that keeps an invariant returns something. -/
theorem returns {I : σ → Prop} {p : Prog S ε α} (hp : Triple h I p (fun _ => I) G) :
    Triple h I p (Returns I fun _ => True) G :=
  hp.ofYields (Prog.yields_true p)

/-- Sequencing where the second program relies on what the first returns. -/
theorem bindReturns {I : σ → Prop} {R : α → Prop} {Q : Except ε β → σ → Prop} {p : Prog S ε α}
    {f : α → Prog S ε β} (hp : Triple h I p (Returns I R) G) (hQ : ∀ e s, I s → Q (.error e) s)
    (hf : ∀ a, R a → Triple h I (f a) Q G) : Triple h I (p >>= f) Q G := by
  refine bind (M := fun a s => I s ∧ R a) ?_ fun a s hs => hf a hs.2 s hs.1
  refine hp.conseq (fun _ hs => hs) (fun x s hx => ?_) fun _ he => he
  cases x with
  | error e => exact hQ e s hx
  | ok a => exact hx

/-- The loop rule for `iterate`, where a turn may end the loop early. -/
theorem iterate {Q : Except ε (Option γ) → σ → Prop} {I : γ → List β → σ → Prop}
    {f : γ → β → Prog S ε (Option γ)} {bs : List β}
    (hstep : ∀ c b bs, Triple h (I c (b :: bs)) (f c b)
      (fun | .ok (some c') => I c' bs | .ok none => Q (.ok none) | .error e => Q (.error e)) G)
    (hdone : ∀ c s, I c [] s → Q (.ok (some c)) s) (c : γ) :
    Triple h (I c bs) (Prog.iterate f c bs) Q G := by
  induction bs generalizing c with
  | nil => exact ret (hdone c)
  | cons b bs ih =>
      refine bind (M := fun | some c' => I c' bs | none => Q (.ok none)) ?_ fun x => ?_
      · refine (hstep c b bs).conseq (fun _ hs => hs) (fun x s hx => ?_) (fun _ he => he)
        rcases x with e | _ | c' <;> exact hx
      · cases x with
        | none => exact ret fun _ hs => hs
        | some c' => exact ih c'

end Triple

end Interaction
