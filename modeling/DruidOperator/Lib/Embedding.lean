import DruidOperator.Lib.Traces

/-!
# Programs inside larger ones

A program over a signature `S` also runs where there are more requests than those of `S`. An
`Embedding` says how each request of `S` is issued there, and `Prog.embed` rewrites the program. If
the larger server answers the embedded requests as the smaller one does, the embedded program does
what the program does.
-/

namespace Interaction

variable {S T : Signature} {σ τ ε α : Type}

/-- How the requests of `S` are issued among those of `T`. -/
structure Embedding (S T : Signature) where
  req : S.Req → T.Req
  resp : ∀ r, T.Resp (req r) → S.Resp r

namespace Prog

variable (i : Embedding S T)

def embed : Prog S ε α → Prog T ε α
  | .ret a => .ret a
  | .exit e => .exit e
  | .call r k => .call (i.req r) fun x => (k (i.resp r x)).embed

theorem Uses.embed {i : Embedding S T} {φ : S.Req → Prop} {ψ : T.Req → Prop} {p : Prog S ε α}
    (hp : p.Uses φ) (h : ∀ r, φ r → ψ (i.req r)) : (p.embed i).Uses ψ := by
  induction p with
  | ret a => trivial
  | exit e => trivial
  | call r k ih => exact ⟨h r hp.1, fun x => ih (i.resp r x) (hp.2 (i.resp r x))⟩

/-- The conversation of an embedded program, and the one the program itself would have had. -/
structure Overheard (i : Embedding S T) (talk : List (Answered T)) (own : List (Answered S)) :
    Prop where
  embedded : ∀ a ∈ talk, ∃ r y, a = ⟨i.req r, y⟩
  said : ∀ b ∈ own, ∃ y, b.resp = i.resp b.req y ∧ (⟨i.req b.req, y⟩ : Answered T) ∈ talk

theorem Overheard.cons {i : Embedding S T} {talk : List (Answered T)} {own : List (Answered S)}
    (h : Overheard i talk own) (r : S.Req) (y : T.Resp (i.req r)) :
    Overheard i (⟨i.req r, y⟩ :: talk) (⟨r, i.resp r y⟩ :: own) where
  embedded a ha := by
    rcases List.mem_cons.1 ha with rfl | ha
    · exact ⟨r, y, rfl⟩
    · exact h.embedded a ha
  said b hb := by
    rcases List.mem_cons.1 hb with rfl | hb
    · exact ⟨y, rfl, List.mem_cons_self⟩
    · obtain ⟨z, hz, hmem⟩ := h.said b hb
      exact ⟨z, hz, List.mem_cons_of_mem _ hmem⟩

theorem Converses.embed {i : Embedding S T} {φ : List (Answered S) → Except ε α → Prop}
    {p : Prog S ε α} (hp : p.Converses φ) :
    (p.embed i).Converses fun talk x => ∃ own, Overheard i talk own ∧ φ own x := by
  have hnil : Overheard i [] [] := ⟨nofun, nofun⟩
  induction p generalizing φ with
  | ret a => exact ⟨[], hnil, hp⟩
  | exit e => exact ⟨[], hnil, hp⟩
  | call r k ih =>
      intro y
      refine (ih _ (hp (i.resp r y))).mono ?_
      rintro talk x ⟨own, htalk, hx⟩
      exact ⟨⟨r, i.resp r y⟩ :: own, htalk.cons r y, hx⟩

end Prog

/-- From related states, the larger server answers the embedded requests as the smaller one, and
the states stay related. -/
structure Simulates (i : Embedding S T) (hT : Handler T τ) (hS : Handler S σ)
    (R : τ → σ → Prop) : Prop where
  resp : ∀ {t s}, R t s → ∀ r, i.resp r (hT (i.req r) t).1 = (hS r s).1
  state : ∀ {t s}, R t s → ∀ r, R (hT (i.req r) t).2 (hS r s).2

/-- The embedded program ends as the program does, in a related state. -/
theorem Simulates.exec_embed {i : Embedding S T} {hT : Handler T τ} {hS : Handler S σ}
    {R : τ → σ → Prop} (h : Simulates i hT hS R) (p : Prog S ε α) {t : τ} {s : σ} (hR : R t s) :
    (exec hT (p.embed i) t).res = (exec hS p s).res ∧
      R (exec hT (p.embed i) t).state (exec hS p s).state := by
  induction p generalizing t s with
  | ret a => exact ⟨rfl, hR⟩
  | exit e => exact ⟨rfl, hR⟩
  | call r k ih =>
      simp only [Prog.embed, exec_call]
      rw [h.resp hR r]
      exact ih _ (h.state hR r)

end Interaction
