import DruidOperator.VolumeExpansionProof
import Mathlib.Data.List.TakeWhile

/-!
# A size that shrinks

`scalePVCForSts` checks the sizes and acts on them in one loop: the templates before one that
shrinks have been acted on when the request is rejected. `shrink_rejected_iff` says for which sizes
a rejected request has changed nothing.
-/

namespace DruidOperator.Controller

open Interaction Prog Kube

/-- The error for a size that shrinks. -/
def shrinkError (sts : Obj .statefulSet) : Exit :=
  .error ⟨"Request for Shrinking of sts pvc size [sts:" ++ sts.name ++ "] in [namespace:" ++
    sts.ns ++ "] is not Supported", false⟩

/-- Some desired size is smaller than the current one at its index. -/
def Shrinks (des cur : List Quantity) : Prop := ∃ x ∈ des.zip cur, x.1 < x.2

/-- The sizes before the first that shrinks. -/
def untilShrink (des cur : List Quantity) : List (Quantity × Quantity) :=
  (des.zip cur).takeWhile fun x => decide (x.2 ≤ x.1)

/-- Every claim that is going to be resized has requests. -/
def Resizable (sizes : List (Quantity × Quantity))
    (pvcs : List (Obj .persistentVolumeClaim × Quantity)) : Prop :=
  ∀ x ∈ sizes, ∀ p ∈ pvcs, x.1 ≠ p.2 → p.1.body.requests.isSome

/-- There is nothing to do for these sizes: each is the current one, and that of every claim. -/
def Unchanging (sizes : List (Quantity × Quantity))
    (pvcs : List (Obj .persistentVolumeClaim × Quantity)) : Prop :=
  ∀ x ∈ sizes, x.1 = x.2 ∧ ∀ p ∈ pvcs, x.1 = p.2

/-- How the loop over the sizes ends, if no write fails and every claim can be resized. -/
def loopEnd (sts : Obj .statefulSet) : List Quantity → List Quantity → Except Exit Unit
  | [], _ => .ok ()
  | _ :: _, [] => .error (.panic "index out of range")
  | desired :: des, current :: cur =>
      if desired < current then .error (shrinkError sts) else loopEnd sts des cur

section Sizes

variable {sts : Obj .statefulSet} {desired current : Quantity} {des cur : List Quantity}

theorem untilShrink_of_lt (h : desired < current) :
    untilShrink (desired :: des) (current :: cur) = [] := by
  simp [untilShrink, h]

theorem untilShrink_of_le (h : current ≤ desired) :
    untilShrink (desired :: des) (current :: cur) = (desired, current) :: untilShrink des cur := by
  simp [untilShrink, h]

theorem untilShrink_of_not_shrinks (h : ¬ Shrinks des cur) : untilShrink des cur = des.zip cur := by
  refine List.takeWhile_eq_self_iff.2 fun x hx => decide_eq_true (not_lt.1 fun hlt => ?_)
  exact h ⟨x, hx, hlt⟩

theorem loopEnd_of_lt (h : desired < current) :
    loopEnd sts (desired :: des) (current :: cur) = .error (shrinkError sts) := if_pos h

theorem loopEnd_of_le (h : current ≤ desired) :
    loopEnd sts (desired :: des) (current :: cur) = loopEnd sts des cur := if_neg (not_lt.2 h)

theorem shrinks_cons_of_le (h : current ≤ desired) :
    Shrinks (desired :: des) (current :: cur) ↔ Shrinks des cur := by
  simp [Shrinks, not_lt.2 h]

theorem loopEnd_of_shrinks (h : Shrinks des cur) :
    loopEnd sts des cur = .error (shrinkError sts) := by
  induction des generalizing cur with
  | nil => simp [Shrinks] at h
  | cons desired des ih =>
      cases cur with
      | nil => simp [Shrinks] at h
      | cons current cur =>
          by_cases hlt : desired < current
          · exact loopEnd_of_lt hlt
          · rw [loopEnd_of_le (not_lt.1 hlt)]
            exact ih ((shrinks_cons_of_le (not_lt.1 hlt)).1 h)

theorem loopEnd_of_not_shrinks (h : ¬ Shrinks des cur) : loopEnd sts des cur =
    if des.length ≤ cur.length then .ok () else .error (.panic "index out of range") := by
  induction des generalizing cur with
  | nil => simp [loopEnd]
  | cons desired des ih =>
      cases cur with
      | nil => simp [loopEnd]
      | cons current cur =>
          have hle : current ≤ desired := not_lt.1 fun hlt => h ⟨_, List.mem_cons_self, hlt⟩
          rw [loopEnd_of_le hle, ih ((shrinks_cons_of_le hle).not.1 h)]
          simp

theorem shrinks_of_loopEnd (h : loopEnd sts des cur = .error (shrinkError sts)) :
    Shrinks des cur := by
  by_contra hno
  rw [loopEnd_of_not_shrinks hno] at h
  split_ifs at h
  cases h

end Sizes

theorem resize_requests {desired : Quantity} {p : Obj .persistentVolumeClaim × Quantity}
    (hp : desired ≠ p.2 → p.1.body.requests.isSome) :
    (resize desired p).1.body.requests.isSome = p.1.body.requests.isSome := by
  unfold resize
  split_ifs with hne
  · rw [hp hne]
    rfl
  · rfl

/-- Resizing for one template makes no difference to whether the others can be resized. -/
theorem resizable_map_resize {desired : Quantity} {sizes : List (Quantity × Quantity)}
    {pvcs : List (Obj .persistentVolumeClaim × Quantity)}
    (hpvcs : ∀ p ∈ pvcs, desired ≠ p.2 → p.1.body.requests.isSome) :
    Resizable sizes (pvcs.map (resize desired)) ↔ Resizable sizes pvcs := by
  unfold Resizable
  refine forall₂_congr fun x _ => ?_
  rw [List.forall_mem_map]
  refine forall₂_congr fun p hp => ?_
  rw [resize_snd, resize_requests (hpvcs p hp)]

/-! ## The inner loop -/

section Inner

variable {σ : Type} {h : Handler sig σ} {s : σ} {sts : Obj .statefulSet} {desired : Quantity}
  {pvcs : List (Obj .persistentVolumeClaim × Quantity)}

/-- No answer to a write of the expansion is the error for shrinking itself. -/
structure Honest (h : Handler sig σ) (sts : Obj .statefulSet) : Prop where
  delete : ∀ t err, (h (.delete .statefulSet sts true) t).1 = .error err →
    .error err ≠ shrinkError sts
  patch : ∀ base obj t err, (h (.patchClaim base obj) t).1 = .error err →
    .error err ≠ shrinkError sts

/-- An exit of the loop's own: neither an answer to one of its writes nor the panic for a claim that
has no requests. -/
structure Own (h : Handler sig σ) (sts : Obj .statefulSet) (x : Exit) : Prop where
  delete : ∀ t err, (h (.delete .statefulSet sts true) t).1 = .error err → .error err ≠ x
  patch : ∀ base obj t err, (h (.patchClaim base obj) t).1 = .error err → .error err ≠ x
  nilMap : .panic "assignment to entry in nil map" ≠ x

theorem Honest.own (honest : Honest h sts) : Own h sts (shrinkError sts) :=
  ⟨honest.delete, honest.patch, fun h => by cases h⟩

theorem own_outOfRange (h : Handler sig σ) (sts : Obj .statefulSet) :
    Own h sts (.panic "index out of range") where
  delete := fun _ _ _ heq => by cases heq
  patch := fun _ _ _ _ _ heq => by cases heq
  nilMap := by simp

theorem patchClaims_unchanging (hsame : ∀ p ∈ pvcs, desired = p.2) :
    patchClaims desired pvcs = .ret pvcs := by
  induction pvcs with
  | nil => rfl
  | cons p rest ih =>
      obtain ⟨pvc, size⟩ := p
      have hsize : desired = size := hsame _ List.mem_cons_self
      rw [patchClaims, if_neg (not_not.2 hsize), ih fun p hp => hsame p (List.mem_cons_of_mem _ hp)]
      rfl

theorem patchClaims_nil_requests {pvc : Obj .persistentVolumeClaim} {size : Quantity}
    (hne : desired ≠ size) (hnone : ¬ pvc.body.requests.isSome) :
    patchClaims desired ((pvc, size) :: pvcs) = .exit
      (.panic "assignment to entry in nil map") := by
  have hnone : pvc.body.requests = none := by simpa using hnone
  simp [patchClaims, setStorage, hne, hnone]

/-- The inner loop stops with an exit that is not the outer loop's own, or it has resized every
claim. -/
theorem patchClaims_result (h : Handler sig σ) (sts : Obj .statefulSet) (desired : Quantity)
    (pvcs : List (Obj .persistentVolumeClaim × Quantity)) (s : σ) :
    match (exec h (patchClaims desired pvcs) s).res with
    | .error e => ¬ Own h sts e
    | .ok resized => resized = pvcs.map (resize desired) ∧
        ∀ p ∈ pvcs, desired ≠ p.2 → p.1.body.requests.isSome := by
  induction pvcs generalizing s with
  | nil => exact ⟨rfl, fun p hp => by cases hp⟩
  | cons p rest ih =>
      obtain ⟨pvc, size⟩ := p
      -- the rest of the loop, once the head is dealt with
      have hgo : ∀ t : σ, (desired ≠ size → pvc.body.requests.isSome) →
          match (exec h (patchClaims desired rest >>= fun rest =>
            .ret (resize desired (pvc, size) :: rest)) t).res with
          | .error e => ¬ Own h sts e
          | .ok resized => resized = ((pvc, size) :: rest).map (resize desired) ∧
              ∀ p ∈ (pvc, size) :: rest, desired ≠ p.2 → p.1.body.requests.isSome := by
        intro t hhead
        have hrest := ih t
        cases hres : (exec h (patchClaims desired rest) t).res with
        | error e =>
            rw [hres] at hrest
            rw [exec_bind_error hres]
            exact hrest
        | ok resized =>
            rw [hres] at hrest
            rw [exec_bind_ok hres]
            refine ⟨by rw [hrest.1]; rfl, fun p hp => ?_⟩
            rcases List.mem_cons.1 hp with rfl | hp
            · exact hhead
            · exact hrest.2 p hp
      by_cases hreq : pvc.body.requests.isSome
      · rw [patchClaims_cons hreq]
        split_ifs with hne
        · rw [exec_call]
          cases hanswer : (h (.patchClaim pvc (withStorageRequest pvc desired)) s).1 with
          | error err => exact fun own => own.patch _ _ _ _ hanswer rfl
          | ok u => exact hgo _ fun _ => hreq
        · exact hgo s fun _ => hreq
      · by_cases hne : desired ≠ size
        · rw [patchClaims_nil_requests hne hreq]
          exact fun own => own.nilMap rfl
        · have hprog : patchClaims desired ((pvc, size) :: rest) =
              patchClaims desired rest >>= fun rest =>
                .ret (resize desired (pvc, size) :: rest) := by
            simp only [patchClaims, resize, if_neg hne]
            rfl
          rw [hprog]
          exact hgo s fun hne' => absurd hne' hne

/-- Where the inner loop gets through without a write, it had nothing to do. -/
theorem patchClaims_quiet {resized : List (Obj .persistentVolumeClaim × Quantity)}
    (hres : (exec h (patchClaims desired pvcs) s).res = .ok resized)
    (hquiet : ∀ e ∈ (exec h (patchClaims desired pvcs) s).steps, e.req.write = none) :
    ∀ p ∈ pvcs, desired = p.2 := by
  induction pvcs generalizing s resized with
  | nil => exact fun p hp => by cases hp
  | cons p rest ih =>
      obtain ⟨pvc, size⟩ := p
      by_cases hne : desired ≠ size
      · by_cases hreq : pvc.body.requests.isSome
        · rw [patchClaims_cons hreq, if_pos hne, exec_call] at hquiet
          cases hquiet _ List.mem_cons_self
        · rw [patchClaims_nil_requests hne hreq] at hres
          cases hres
      · have hprog : patchClaims desired ((pvc, size) :: rest) =
            patchClaims desired rest >>= fun rest => .ret ((pvc, size) :: rest) := by
          simp only [patchClaims, if_neg hne]
          rfl
        rw [hprog] at hres hquiet
        intro p hp
        rcases List.mem_cons.1 hp with rfl | hp
        · exact not_not.1 hne
        · obtain ⟨resized', hrest, hres, -⟩ := exec_bind_returned hres
          rw [exec_bind_ok hrest] at hquiet
          exact ih hrest (fun e he => hquiet e (List.mem_append_left _ he)) p hp

/-- No write of the expansion fails. -/
structure Agrees (h : Handler sig σ) (sts : Obj .statefulSet) : Prop where
  delete : ∀ t, (h (.delete .statefulSet sts true) t).1 = .ok ()
  patch : ∀ base obj t, (h (.patchClaim base obj) t).1 = .ok ()

theorem Agrees.honest (agrees : Agrees h sts) : Honest h sts where
  delete := fun t err herr => by rw [agrees.delete] at herr; cases herr
  patch := fun base obj t err herr => by rw [agrees.patch] at herr; cases herr

theorem patchClaims_agreed (agrees : Agrees h sts)
    (hpvcs : ∀ p ∈ pvcs, desired ≠ p.2 → p.1.body.requests.isSome) :
    (exec h (patchClaims desired pvcs) s).res = .ok (pvcs.map (resize desired)) := by
  induction pvcs generalizing s with
  | nil => rfl
  | cons p rest ih =>
      obtain ⟨pvc, size⟩ := p
      have hrest := fun t => ih (s := t) fun p hp => hpvcs p (List.mem_cons_of_mem _ hp)
      by_cases hne : desired ≠ size
      · rw [patchClaims_cons (hpvcs _ List.mem_cons_self hne), if_pos hne, exec_call, agrees.patch]
        dsimp only
        rw [orReturn_ok, ret_bind, exec_bind_ok (hrest _)]
        rfl
      · have hprog : patchClaims desired ((pvc, size) :: rest) =
            patchClaims desired rest >>= fun rest => .ret (resize desired (pvc, size) :: rest) := by
          simp only [patchClaims, resize, if_neg hne]
          rfl
        rw [hprog, exec_bind_ok (hrest s)]
        rfl

end Inner

/-! ## The outer loop -/

section Outer

variable {σ : Type} {h : Handler sig σ} {s : σ} {sts : Obj .statefulSet}
  {des cur : List Quantity} {pvcs : List (Obj .persistentVolumeClaim × Quantity)}

theorem expandTemplate_of_lt {desired current : Quantity} (hlt : desired < current) :
    expandTemplate sts desired current pvcs = .exit (shrinkError sts) := by
  rw [expandTemplate, if_pos hlt]
  rfl

theorem exec_expandTemplates_unchanging (hsizes : Unchanging (untilShrink des cur) pvcs) :
    exec h (expandTemplates sts des cur pvcs) s = ⟨loopEnd sts des cur, s, []⟩ := by
  induction des generalizing cur with
  | nil => rfl
  | cons desired des ih =>
      cases cur with
      | nil => rfl
      | cons current cur =>
          rw [expandTemplates]
          by_cases hlt : desired < current
          · rw [expandTemplate_of_lt hlt, loopEnd_of_lt hlt]
            rfl
          · have hle := not_lt.1 hlt
            rw [untilShrink_of_le hle] at hsizes
            obtain ⟨hsame, hpvcs⟩ := hsizes _ List.mem_cons_self
            rw [expandTemplate, if_neg hlt, if_neg (not_not.2 hsame), patchClaims_unchanging hpvcs,
              ret_bind, loopEnd_of_le hle]
            exact ih fun x hx => hsizes x (List.mem_cons_of_mem _ hx)

/-- A turn before an end of the loop's own: it has resized the claims, and without a write only if
there was nothing to do. -/
theorem turn_before_end {r : Except Exit Unit} (hown : ∀ x, r = .error x → Own h sts x)
    {desired current : Quantity} (hle : current ≤ desired)
    (hres : (exec h (expandTemplates sts (desired :: des) (current :: cur) pvcs) s).res = r) :
    (∀ p ∈ pvcs, desired ≠ p.2 → p.1.body.requests.isSome) ∧ ∃ t before,
      (exec h (expandTemplates sts des cur (pvcs.map (resize desired))) t).res = r ∧
      (exec h (expandTemplates sts (desired :: des) (current :: cur) pvcs) s).steps =
        before ++ (exec h (expandTemplates sts des cur (pvcs.map (resize desired))) t).steps ∧
      ((∀ e ∈ before, e.req.write = none) → desired = current ∧ ∀ p ∈ pvcs, desired = p.2) := by
  -- the claims are dealt with from a state `t`, after the steps `front`
  have hgo : ∀ t,
      (exec h (patchClaims desired pvcs >>= fun pvcs => expandTemplates sts des cur pvcs)
        t).res = r →
      (∀ p ∈ pvcs, desired ≠ p.2 → p.1.body.requests.isSome) ∧ ∃ t' before,
        (exec h (expandTemplates sts des cur (pvcs.map (resize desired))) t').res = r ∧
        (exec h (patchClaims desired pvcs >>= fun pvcs =>
          expandTemplates sts des cur pvcs) t).steps =
          before ++ (exec h (expandTemplates sts des cur (pvcs.map (resize desired))) t').steps ∧
        ((∀ e ∈ before, e.req.write = none) → ∀ p ∈ pvcs, desired = p.2) := by
    intro t hres
    have hclaims := patchClaims_result h sts desired pvcs t
    cases hinner : (exec h (patchClaims desired pvcs) t).res with
    | error e =>
        rw [hinner] at hclaims
        rw [exec_bind_error hinner] at hres
        exact absurd (hown e hres.symm) hclaims
    | ok resized =>
        rw [hinner] at hclaims
        obtain ⟨rfl, hrequests⟩ := hclaims
        rw [exec_bind_ok hinner] at hres ⊢
        exact ⟨hrequests, _, _, hres, rfl, patchClaims_quiet hinner⟩
  rw [expandTemplates, expandTemplate, if_neg (not_lt.2 hle)] at hres ⊢
  split_ifs at hres ⊢ with hne
  · rw [deleteObj, call_bind, call_bind, exec_call] at hres ⊢
    cases hanswer : (h (.delete .statefulSet sts true) s).1 with
    | error err =>
        rw [hanswer] at hres
        exact absurd rfl ((hown _ hres.symm).delete _ _ hanswer)
    | ok u =>
        rw [hanswer] at hres
        obtain ⟨hrequests, t, before, hrest, hsteps, -⟩ := hgo _ hres
        refine ⟨hrequests, t, _ :: before, hrest, congrArg (List.cons _) hsteps, fun hquiet => ?_⟩
        cases hquiet _ List.mem_cons_self
  · obtain ⟨hrequests, t, before, hrest, hsteps, hquiet⟩ := hgo s hres
    exact ⟨hrequests, t, before, hrest, hsteps, fun hnone => ⟨not_not.1 hne, hquiet hnone⟩⟩

/-- What is known once the loop came to an end of its own. -/
theorem expandTemplates_ended {r : Except Exit Unit} (hown : ∀ x, r = .error x → Own h sts x)
    (hres : (exec h (expandTemplates sts des cur pvcs) s).res = r) :
    loopEnd sts des cur = r ∧ Resizable (untilShrink des cur) pvcs ∧
      ((∀ e ∈ (exec h (expandTemplates sts des cur pvcs) s).steps, e.req.write = none) →
        Unchanging (untilShrink des cur) pvcs) := by
  induction des generalizing cur pvcs s with
  | nil => exact ⟨hres, fun x hx => (by cases hx), fun _ x hx => by cases hx⟩
  | cons desired des ih =>
      cases cur with
      | nil => exact ⟨hres, fun x hx => (by cases hx), fun _ x hx => by cases hx⟩
      | cons current cur =>
          by_cases hlt : desired < current
          · rw [expandTemplates, expandTemplate_of_lt hlt] at hres
            rw [untilShrink_of_lt hlt, loopEnd_of_lt hlt]
            exact ⟨hres, fun x hx => (by cases hx), fun _ x hx => by cases hx⟩
          · have hle := not_lt.1 hlt
            obtain ⟨hrequests, t, before, hrest, hsteps, hquiet⟩ := turn_before_end hown hle hres
            obtain ⟨hend, hresizable, hsizes⟩ := ih hrest
            rw [resizable_map_resize hrequests] at hresizable
            rw [untilShrink_of_le hle, loopEnd_of_le hle]
            refine ⟨hend, ?_, fun hnone => ?_⟩
            · intro x hx
              rcases List.mem_cons.1 hx with rfl | hx
              · exact hrequests
              · exact hresizable x hx
            · rw [hsteps] at hnone
              obtain ⟨hsame, hpvcs⟩ := hquiet fun e he => hnone e (List.mem_append_left _ he)
              have hrest := hsizes fun e he => hnone e (List.mem_append_right _ he)
              intro x hx
              rcases List.mem_cons.1 hx with rfl | hx
              · exact ⟨hsame, hpvcs⟩
              · refine ⟨(hrest x hx).1, fun p hp => ?_⟩
                rw [(hrest x hx).2 _ (List.mem_map_of_mem hp), resize_snd]

/-- Where no write fails, the loop gets to its end. -/
theorem expandTemplates_agreed (agrees : Agrees h sts)
    (hresizable : Resizable (untilShrink des cur) pvcs) :
    (exec h (expandTemplates sts des cur pvcs) s).res = loopEnd sts des cur := by
  induction des generalizing cur pvcs s with
  | nil => rfl
  | cons desired des ih =>
      cases cur with
      | nil => rfl
      | cons current cur =>
          rw [expandTemplates]
          by_cases hlt : desired < current
          · rw [expandTemplate_of_lt hlt, loopEnd_of_lt hlt]
            rfl
          · have hle := not_lt.1 hlt
            rw [untilShrink_of_le hle] at hresizable
            have hrequests := hresizable _ List.mem_cons_self
            have hrest : Resizable (untilShrink des cur) (pvcs.map (resize desired)) :=
              (resizable_map_resize hrequests).2 fun x hx =>
                hresizable x (List.mem_cons_of_mem _ hx)
            have hclaims : ∀ t, (exec h (patchClaims desired pvcs >>= fun pvcs =>
                expandTemplates sts des cur pvcs) t).res = loopEnd sts des cur := by
              intro t
              rw [exec_bind_ok (patchClaims_agreed agrees hrequests)]
              exact ih hrest
            rw [expandTemplate, if_neg hlt, loopEnd_of_le hle]
            split_ifs with hne
            · rw [deleteObj, call_bind, call_bind, exec_call, agrees.delete]
              exact hclaims _
            · exact hclaims s

end Outer

/-! ## The whole call -/

section Call

variable {σ : Type}

/-- What the three look-ups of the call find. -/
def Found (h : Handler sig σ) (s : σ) (drd : Druid) (uniqueStr : String) (sts : Obj .statefulSet)
    (pvcList : List (Obj .persistentVolumeClaim)) : Prop :=
  ∃ stss s₁ s₂ s₃, allReady stss = true ∧
    h (.list .statefulSet drd.ns (makeLabelsForDruid drd)) s = (.ok stss, s₁) ∧
    h (.get .statefulSet drd.ns uniqueStr) s₁ = (.ok sts, s₂) ∧
    h (.list .persistentVolumeClaim drd.ns (claimLabels uniqueStr)) s₂ = (.ok pvcList, s₃)

variable {h : Handler sig σ} {s : σ} {drd : Druid} {uniqueStr : String} {sts : Obj .statefulSet}
  {pvcList : List (Obj .persistentVolumeClaim)}

theorem exec_after_lookUps {stss : List (Obj .statefulSet)} {s₁ s₂ s₃ : σ}
    (hready : allReady stss = true)
    (hlist : h (.list .statefulSet drd.ns (makeLabelsForDruid drd)) s = (.ok stss, s₁))
    (hget : h (.get .statefulSet drd.ns uniqueStr) s₁ = (.ok sts, s₂))
    (hclaims : h (.list .persistentVolumeClaim drd.ns (claimLabels uniqueStr)) s₂ =
      (.ok pvcList, s₃)) (nodeSpec : DruidNodeSpec) :
    ∃ reads, (∀ e ∈ reads, e.req.write = none) ∧
      exec h (scalePVCForSts nodeSpec uniqueStr drd) s =
        ⟨(exec h (expandClaims nodeSpec sts pvcList) s₃).res,
          (exec h (expandClaims nodeSpec sts pvcList) s₃).state,
          reads ++ (exec h (expandClaims nodeSpec sts pvcList) s₃).steps⟩ := by
  refine ⟨[⟨s, .list .statefulSet drd.ns (makeLabelsForDruid drd), .ok stss⟩,
    ⟨s₁, .get .statefulSet drd.ns uniqueStr, .ok sts⟩,
    ⟨s₂, .list .persistentVolumeClaim drd.ns (claimLabels uniqueStr), .ok pvcList⟩],
    fun e he => ?_, ?_⟩
  · simp only [List.mem_cons, List.not_mem_nil, or_false] at he
    rcases he with rfl | rfl | rfl <;> rfl
  · unfold scalePVCForSts listObjs getObj
    simp only [call_bind, ret_bind, exec_call, hlist, hready, if_true, hget, hclaims]
    rfl

theorem Found.exec_eq (found : Found h s drd uniqueStr sts pvcList) (nodeSpec : DruidNodeSpec) :
    ∃ t reads, (∀ e ∈ reads, e.req.write = none) ∧
      (exec h (scalePVCForSts nodeSpec uniqueStr drd) s).res =
        (exec h (expandClaims nodeSpec sts pvcList) t).res ∧
      (exec h (scalePVCForSts nodeSpec uniqueStr drd) s).steps =
        reads ++ (exec h (expandClaims nodeSpec sts pvcList) t).steps := by
  obtain ⟨stss, s₁, s₂, s₃, hready, hlist, hget, hclaims⟩ := found
  obtain ⟨reads, hreads, hexec⟩ := exec_after_lookUps hready hlist hget hclaims nodeSpec
  rw [hexec]
  exact ⟨s₃, reads, hreads, rfl, rfl⟩

end Call

/-- The claims in hand, with the sizes as they are listed. -/
def claimsInHand (pvcList : List (Obj .persistentVolumeClaim)) :
    List (Obj .persistentVolumeClaim × Quantity) :=
  pvcList.zip (pvcList.map storageOf)

/-- The templates before the first that shrinks, and the claims, have the desired sizes already.
Only matters where the call gets to the template that shrinks: there are claims enough, and those to
be resized have requests. -/
def NothingBefore (nodeSpec : DruidNodeSpec) (sts : Obj .statefulSet)
    (pvcList : List (Obj .persistentVolumeClaim)) : Prop :=
  let des := nodeSpec.volumeClaimTemplates.map storageOf
  let cur := sts.body.spec.volumeClaimTemplates.map storageOf
  Shrinks des cur → des.length ≤ pvcList.length →
    Resizable (untilShrink des cur) (claimsInHand pvcList) →
    Unchanging (untilShrink des cur) (claimsInHand pvcList)

theorem expandClaims_eq_ite (nodeSpec : DruidNodeSpec) (sts : Obj .statefulSet)
    (pvcList : List (Obj .persistentVolumeClaim)) :
    expandClaims nodeSpec sts pvcList =
      if pvcList.length < (nodeSpec.volumeClaimTemplates.map storageOf).length then .ret ()
      else expandTemplates sts (nodeSpec.volumeClaimTemplates.map storageOf)
        (sts.body.spec.volumeClaimTemplates.map storageOf) (claimsInHand pvcList) := by
  have hsizes : (pvcList.map storageOf).length = pvcList.length := List.length_map ..
  rw [← hsizes]
  rfl

/-- A server that answers the look-ups with these, and agrees to every write. -/
def answering (sts : Obj .statefulSet) (pvcList : List (Obj .persistentVolumeClaim)) :
    Handler sig Unit := fun r _ =>
  (match r with
    | .get .statefulSet _ _ => .ok sts
    | .get _ _ name => .error (notFoundError name)
    | .list .persistentVolumeClaim _ _ => .ok pvcList
    | .list _ _ _ => .ok []
    | .create _ _ => .ok ()
    | .update _ _ => .ok ()
    | .delete _ _ _ => .ok ()
    | .patchClaim _ _ => .ok ()
    | .patchFinalizers cr _ => .ok cr
    | .patchStatus _ _ => .ok ()
    | .now => 0, ())

theorem agrees_answering (sts : Obj .statefulSet) (pvcList : List (Obj .persistentVolumeClaim)) :
    Agrees (answering sts pvcList) sts := ⟨fun _ => rfl, fun _ _ _ => rfl⟩

/-- **A rejected request changes nothing**, whatever is answered, exactly where nothing was to be
done for the templates before the one that shrinks. -/
theorem shrink_rejected_iff (nodeSpec : DruidNodeSpec) (uniqueStr : String) (drd : Druid)
    (sts : Obj .statefulSet) (pvcList : List (Obj .persistentVolumeClaim)) :
    (∀ {σ : Type} (h : Handler sig σ) (s : σ), Found h s drd uniqueStr sts pvcList → Honest h sts →
      (exec h (scalePVCForSts nodeSpec uniqueStr drd) s).res = .error (shrinkError sts) →
      ∀ e ∈ (exec h (scalePVCForSts nodeSpec uniqueStr drd) s).steps, e.req.write = none) ↔
    NothingBefore nodeSpec sts pvcList := by
  constructor
  · intro hall hshrinks hlength hresizable
    have found : Found (answering sts pvcList) () drd uniqueStr sts pvcList :=
      ⟨[], (), (), (), rfl, rfl, rfl, rfl⟩
    have agrees := agrees_answering sts pvcList
    obtain ⟨t, reads, -, hres, hsteps⟩ := found.exec_eq nodeSpec
    rw [expandClaims_eq_ite, if_neg (not_lt.2 hlength)] at hres hsteps
    have hrejected := (expandTemplates_agreed (s := t) agrees hresizable).trans
      (loopEnd_of_shrinks hshrinks)
    have hquiet := hall _ () found agrees.honest (hres.trans hrejected)
    refine (expandTemplates_ended (fun x hx => ?_) hrejected).2.2 fun e he => ?_
    · cases hx
      exact agrees.honest.own
    · exact hquiet e (hsteps ▸ List.mem_append_right _ he)
  · intro hnothing σ h s found honest hres e he
    obtain ⟨t, reads, hreads, hres', hsteps⟩ := found.exec_eq nodeSpec
    rw [hres'] at hres
    rw [hsteps] at he
    rcases List.mem_append.1 he with he | he
    · exact hreads e he
    · rw [expandClaims_eq_ite] at hres he
      split_ifs at hres he with hlength
      · -- with too few claims the call returns without an error
        cases hres
      · have hown : ∀ x, Except.error (shrinkError sts) = (.error x : Except Exit Unit) →
            Own h sts x := by
          intro x hx
          cases hx
          exact honest.own
        obtain ⟨hend, hresizable, -⟩ := expandTemplates_ended hown hres
        rw [exec_expandTemplates_unchanging (hnothing (shrinks_of_loopEnd hend) (not_lt.1 hlength)
          hresizable)] at he
        cases he

/-! ## One disk grows and the next shrinks -/

/-- The first disk is to grow and the second to shrink: the request is rejected, and the StatefulSet
is gone. -/
theorem rejected_but_deleted :
    (expansion 15 5).res = .error (shrinkError (diskSet twoDisks)) ∧
    ((expansion 15 5).state.cluster.store .statefulSet).find? ("d", "s") = none ∧
    ((expansion 15 5).steps.any fun e =>
      decide (e.req.write = some (.delete, .statefulSet, "d", "s"))) ∧
    ((expansion 15 5).steps.any fun e =>
      decide (e.req.write = some (.patch, .persistentVolumeClaim, "d", "b-s-0"))) := by
  decide +kernel

end DruidOperator.Controller
