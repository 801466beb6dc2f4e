import DruidOperator.ExpansionBounds

/-!
# The requests of an expansion, turn by turn

A turn of the loop in `scalePVCForSts` deletes the StatefulSet if the size at its index has changed,
and then patches every claim whose size, as it was listed, is not the desired one. The StatefulSet
is there for one deletion: the second one fails, and ends the loop. In a cluster that keeps a
deleted StatefulSet for a while, the second one may succeed and the loop get further, to sizes that
the conditions below do not look at.

- `turn_alone`: what a turn asks for, and what it leaves, if nobody else writes.
- `AtTurn.served`: a turn that gets through, with every request served.
- `never_shrunk_iff`: for which sizes no claim is ever shrunk.
- `deleted_once_iff`: for which sizes the StatefulSet is deleted at most once.
-/

namespace DruidOperator.Controller

open Interaction Prog Kube

/-! ## The sizes that are reached -/

/-- The number of sizes that have changed. -/
def changed (xs : List (Quantity × Quantity)) : ℕ := xs.countP fun x => x.1 ≠ x.2

/-- The loop gets through these sizes when the StatefulSet has been deleted so many times: none of
them shrinks, and the StatefulSet need not be deleted a second time. -/
structure Passable (deleted : ℕ) (xs : List (Quantity × Quantity)) : Prop where
  grows : ∀ x ∈ xs, x.2 ≤ x.1
  once : deleted + changed xs ≤ 1

theorem changed_cons (x : Quantity × Quantity) (xs : List (Quantity × Quantity)) :
    changed (x :: xs) = changed [x] + changed xs := by
  rw [changed, changed, changed, ← List.countP_append, List.singleton_append]

theorem changed_singleton (x : Quantity × Quantity) :
    changed [x] = if x.1 ≠ x.2 then 1 else 0 := by
  simp [changed, List.countP_cons]

theorem passable_nil {deleted : ℕ} (h : deleted ≤ 1) : Passable deleted [] :=
  ⟨fun x hx => (by cases hx), h⟩

theorem passable_cons {deleted : ℕ} {x : Quantity × Quantity} {xs : List (Quantity × Quantity)} :
    Passable deleted (x :: xs) ↔ x.2 ≤ x.1 ∧ Passable (deleted + changed [x]) xs := by
  constructor
  · rintro ⟨hgrows, honce⟩
    rw [List.forall_mem_cons] at hgrows
    rw [changed_cons, ← Nat.add_assoc] at honce
    exact ⟨hgrows.1, hgrows.2, honce⟩
  · rintro ⟨hle, hgrows, honce⟩
    refine ⟨List.forall_mem_cons.2 ⟨hle, hgrows⟩, ?_⟩
    rw [changed_cons, ← Nat.add_assoc]
    exact honce

/-! ## The inner loop -/

section Inner

variable {σ : Type} {h : Handler sig σ} {s : σ} {desired : Quantity}
  {pvcs : List (Obj .persistentVolumeClaim × Quantity)}

/-- A loop that gets through has patched every claim of another size. -/
theorem patchClaims_complete {resized : List (Obj .persistentVolumeClaim × Quantity)}
    (hres : (exec h (patchClaims desired pvcs) s).res = .ok resized)
    {p : Obj .persistentVolumeClaim × Quantity} (hp : p ∈ pvcs) (hne : desired ≠ p.2) :
    ∃ e ∈ (exec h (patchClaims desired pvcs) s).steps, e.req = patchOf desired p := by
  induction pvcs generalizing s resized with
  | nil => cases hp
  | cons q rest ih =>
      obtain ⟨pvc, size⟩ := q
      -- the rest of the loop
      have hgo : ∀ t x, (exec h (patchClaims desired rest >>= fun rest => .ret (x :: rest)) t).res =
          .ok resized → p ∈ rest → ∃ e ∈ (exec h (patchClaims desired rest >>= fun rest =>
            .ret (x :: rest)) t).steps, e.req = patchOf desired p := by
        intro t x hrest hmem
        obtain ⟨resized', hinner, hrest, -⟩ := exec_bind_returned hrest
        rw [exec_bind_ok hinner]
        obtain ⟨e, he, hreq⟩ := ih hinner hmem
        exact ⟨e, List.mem_append_left _ he, hreq⟩
      by_cases hsize : desired ≠ size
      · by_cases hreq : pvc.body.requests.isSome
        · rw [patchClaims_cons hreq, if_pos hsize, exec_call] at hres ⊢
          rcases List.mem_cons.1 hp with rfl | hmem
          · exact ⟨_, List.mem_cons_self, rfl⟩
          · cases hanswer : (h (.patchClaim pvc (withStorageRequest pvc desired)) s).1 with
            | error err =>
                rw [hanswer] at hres
                cases hres
            | ok u =>
                rw [hanswer] at hres
                obtain ⟨e, he, heq⟩ := hgo _ _ hres hmem
                exact ⟨e, List.mem_cons_of_mem _ he, heq⟩
        · rw [patchClaims_nil_requests hsize hreq] at hres
          cases hres
      · rw [patchClaims, if_neg hsize] at hres ⊢
        rcases List.mem_cons.1 hp with rfl | hmem
        · exact absurd hne hsize
        · exact hgo s _ hres hmem

end Inner

/-! ## One turn -/

section Turn

variable {env : Env} {w : World} {sts : Obj .statefulSet} {deleted : ℕ} {x : Quantity × Quantity}
  {pvcs : List (Obj .persistentVolumeClaim × Quantity)}

/-- What a turn comes to if nobody else writes and the StatefulSet has been deleted so many
times. -/
structure TurnTaken (env : Env) (w : World) (sts : Obj .statefulSet) (deleted : ℕ)
    (x : Quantity × Quantity) (pvcs : List (Obj .persistentVolumeClaim × Quantity))
    (o : Outcome sig World Exit (List (Obj .persistentVolumeClaim × Quantity))) : Prop where
  /-- The StatefulSet is deleted if the size has changed; the claims are patched if the loop gets
  through. -/
  asked : ∀ e ∈ o.steps, x.2 ≤ x.1 ∧ (x.1 ≠ x.2 ∧ e.req = .delete .statefulSet sts true ∨
    Passable deleted [x] ∧
      ∃ p ∈ pvcs, x.1 ≠ p.2 ∧ e.req = patchOf x.1 p ∧ Tracked e.pre.cluster p.1)
  passed : ∀ resized, o.res = .ok resized → Passable deleted [x] ∧ resized = pvcs.map (resize x.1)
  tracked : ∀ resized, o.res = .ok resized → ∀ p ∈ resized, Tracked o.state.cluster p.1
  gone : ∀ resized, o.res = .ok resized → deleted + changed [x] = 1 →
    (o.state.cluster.store .statefulSet).find? sts.key = none
  stays : changed [x] = 0 → (o.state.cluster.store .statefulSet).find? sts.key =
    (w.cluster.store .statefulSet).find? sts.key
  served : (∀ n, env.fault n = none) → Passable deleted [x] →
    (deleted = 0 → (w.cluster.store .statefulSet).find? sts.key ≠ none) →
    o.res = .ok (pvcs.map (resize x.1))

/-- The claims are dealt with, after the StatefulSet. -/
theorem TurnTaken.ofPatched (w w₁ : World) (sts : Obj .statefulSet) (henv : env.Alone)
    (hnodup : (pvcs.map fun p => p.1.key).Nodup) (hpvcs : ∀ p ∈ pvcs, Tracked w₁.cluster p.1)
    (hpass : Passable deleted [x]) (hgone : deleted + changed [x] = 1 →
      (w₁.cluster.store .statefulSet).find? sts.key = none)
    (hstays : changed [x] = 0 → (w₁.cluster.store .statefulSet).find? sts.key =
      (w.cluster.store .statefulSet).find? sts.key) :
    TurnTaken env w sts deleted x pvcs (exec (serve env) (patchClaims x.1 pvcs) w₁) := by
  obtain ⟨hasked, hresized, hserved⟩ := patchClaims_alone henv x.1 hnodup hpvcs
  have hsts : (exec (serve env) (patchClaims x.1 pvcs) w₁).state.cluster.store .statefulSet =
      w₁.cluster.store .statefulSet :=
    exec_store henv (uses_patchClaims x.1 pvcs) (by simp [patchesClaims])
  have hle : x.2 ≤ x.1 := hpass.grows x List.mem_cons_self
  refine ⟨fun e he => ⟨hle, .inr ⟨hpass, hasked e he⟩⟩, fun resized hres => ?_,
    fun resized hres => (hresized resized hres).2, fun _ _ => ?_, ?_, fun hfaults _ _ =>
      hserved hfaults⟩
  · exact ⟨hpass, (hresized resized hres).1⟩
  · rw [hsts]
    exact hgone
  · rw [hsts]
    exact hstays

/-- **One turn.** -/
theorem turn_alone (henv : env.Alone) (hnodup : (pvcs.map fun p => p.1.key).Nodup)
    (hpvcs : ∀ p ∈ pvcs, Tracked w.cluster p.1) (hdeleted : deleted ≤ 1)
    (hgone : deleted = 1 → (w.cluster.store .statefulSet).find? sts.key = none) :
    TurnTaken env w sts deleted x pvcs (exec (serve env) (expandTemplate sts x.1 x.2 pvcs) w) := by
  unfold expandTemplate
  split_ifs with hlt hne
  · -- the size shrinks
    refine ⟨fun e he => (by cases he), fun _ h => (by cases h), fun _ h => (by cases h),
      fun _ h => (by cases h), fun _ => rfl, fun _ hpass => ?_⟩
    exact absurd (hpass.grows x List.mem_cons_self) (not_le.2 hlt)
  · have hle : x.2 ≤ x.1 := not_lt.1 hlt
    have hone : changed [x] = 1 := by rw [changed_singleton, if_pos hne]
    rw [deleteObj, call_bind, exec_call]
    cases hanswer : (serve env (.delete .statefulSet sts true) w).1 with
    | error err =>
        refine ⟨fun e he => ?_, fun _ h => (by cases h), fun _ h => (by cases h),
          fun _ h => (by cases h), fun hzero => absurd (hone.symm.trans hzero) (by decide),
          fun hfaults hpass hstored => ?_⟩
        · cases List.mem_singleton.1 he
          exact ⟨hle, .inl ⟨hne, rfl⟩⟩
        · -- a served deletion fails only for an object that is not there
          have honce := hpass.once
          rw [hone] at honce
          obtain ⟨stored, hfind⟩ := Option.ne_none_iff_exists'.1 (hstored (by omega))
          rw [serve_alone henv (hfaults _), perform, hfind] at hanswer
          cases hanswer
    | ok u =>
        have hfault : env.fault w.calls = none := by
          cases hfault : env.fault w.calls with
          | none => rfl
          | some f =>
              rw [serve_fault hfault] at hanswer
              cases hanswer
        have hfound : (w.cluster.store .statefulSet).find? sts.key ≠ none := by
          intro hnone
          rw [serve_alone henv hfault, perform, hnone] at hanswer
          cases hanswer
        have hpass : Passable deleted [x] := by
          refine ⟨by simpa using hle, ?_⟩
          have hzero : deleted ≠ 1 := fun h => hfound (hgone h)
          omega
        have herased : ((serve env (.delete .statefulSet sts true) w).2.cluster.store
            .statefulSet).find? sts.key = none := by
          obtain ⟨stored, hfind⟩ := Option.ne_none_iff_exists'.1 hfound
          rw [serve_alone henv hfault, perform, hfind]
          dsimp only
          rw [Cluster.modify_store_self, Table.find?_erase, if_pos rfl]
        have hclaims : (serve env (.delete .statefulSet sts true) w).2.cluster.store
            .persistentVolumeClaim = w.cluster.store .persistentVolumeClaim :=
          serve_store henv (by rintro v key ⟨⟩)
        obtain ⟨hasked, hpassed, htracked, hgone', -, hserved⟩ := TurnTaken.ofPatched w
          (serve env (.delete .statefulSet sts true) w).2 sts henv hnodup
          (fun p hp => (hpvcs p hp).congr (by rw [hclaims])) hpass (fun _ => herased)
          (fun hzero => absurd (hone.symm.trans hzero) (by decide))
        refine ⟨List.forall_mem_cons.2 ⟨⟨hle, .inl ⟨hne, rfl⟩⟩, hasked⟩, hpassed, htracked, hgone',
          fun hzero => absurd (hone.symm.trans hzero) (by decide), hserved⟩
  · have hle : x.2 ≤ x.1 := not_lt.1 hlt
    have hzero : changed [x] = 0 := by rw [changed_singleton, if_neg hne]
    refine TurnTaken.ofPatched w w sts henv hnodup hpvcs
      ⟨by simpa using hle, by rwa [hzero]⟩ (fun h => ?_)
      fun _ => rfl
    exact hgone (by omega)

end Turn

/-! ## From one turn to the next -/

/-- Where the loop stands: the claims in hand are stored as they are in hand, and the StatefulSet is
stored until it is deleted. -/
structure AtTurn (w : World) (sts : Obj .statefulSet) (deleted : ℕ)
    (pvcs : List (Obj .persistentVolumeClaim × Quantity)) : Prop where
  distinct : (pvcs.map fun p => p.1.key).Nodup
  tracked : ∀ p ∈ pvcs, Tracked w.cluster p.1
  once : deleted ≤ 1
  stored : deleted = 0 → (w.cluster.store .statefulSet).find? sts.key ≠ none
  gone : deleted = 1 → (w.cluster.store .statefulSet).find? sts.key = none

section Loop

variable {env : Env} {w : World} {sts : Obj .statefulSet} {deleted : ℕ} {x : Quantity × Quantity}
  {pvcs : List (Obj .persistentVolumeClaim × Quantity)}

theorem AtTurn.turn (h : AtTurn w sts deleted pvcs) (henv : env.Alone) (x : Quantity × Quantity) :
    TurnTaken env w sts deleted x pvcs (exec (serve env) (expandTemplate sts x.1 x.2 pvcs) w) :=
  turn_alone henv h.distinct h.tracked h.once h.gone

theorem AtTurn.next (h : AtTurn w sts deleted pvcs) (henv : env.Alone)
    {resized : List (Obj .persistentVolumeClaim × Quantity)}
    (hres : (exec (serve env) (expandTemplate sts x.1 x.2 pvcs) w).res = .ok resized) :
    resized = pvcs.map (resize x.1) ∧
      AtTurn (exec (serve env) (expandTemplate sts x.1 x.2 pvcs) w).state sts
        (deleted + changed [x])
        (pvcs.map (resize x.1)) := by
  have hturn := h.turn henv x
  obtain ⟨hpass, rfl⟩ := hturn.passed resized hres
  refine ⟨rfl, ?_, hturn.tracked _ hres, hpass.once, fun hzero => ?_, hturn.gone _ hres⟩
  · rw [map_resize_keys]
    exact h.distinct
  · rw [hturn.stays (by omega)]
    exact h.stored (by omega)

/-- With every request served, a turn gets through whenever it can. -/
theorem AtTurn.served (h : AtTurn w sts deleted pvcs) (henv : env.Calm)
    (hpass : Passable deleted [x]) :
    (exec (serve env) (expandTemplate sts x.1 x.2 pvcs) w).res = .ok (pvcs.map (resize x.1)) :=
  (h.turn henv.alone x).served henv.served hpass h.stored

end Loop

theorem turn_complete {σ : Type} {h : Handler sig σ} {s : σ} {sts : Obj .statefulSet}
    {desired current : Quantity} {pvcs resized : List (Obj .persistentVolumeClaim × Quantity)}
    (hres : (exec h (expandTemplate sts desired current pvcs) s).res = .ok resized)
    {p : Obj .persistentVolumeClaim × Quantity} (hp : p ∈ pvcs) (hne : desired ≠ p.2) :
    ∃ e ∈ (exec h (expandTemplate sts desired current pvcs) s).steps,
      e.req = patchOf desired p := by
  unfold expandTemplate at hres ⊢
  split_ifs at hres ⊢
  · cases hres
  · rw [deleteObj, call_bind, exec_call] at hres ⊢
    cases hanswer : (h (.delete .statefulSet sts true) s).1 with
    | error err =>
        rw [hanswer] at hres
        cases hres
    | ok u =>
        rw [hanswer] at hres
        obtain ⟨e, he, hreq⟩ := patchClaims_complete hres hp hne
        exact ⟨e, List.mem_cons_of_mem _ he, hreq⟩
  · exact patchClaims_complete hres hp hne

/-! ## No claim shrinks -/

/-- If the step patches a claim, it asks for no less than the claim has at that moment. -/
def GrowsClaim (e : Step sig World) : Prop :=
  ∀ base obj, e.req = .patchClaim base obj →
    ∀ stored, (e.pre.cluster.store .persistentVolumeClaim).find? obj.key = some stored →
      storageOf stored ≤ storageOf obj

/-- Each claim in hand grows from one size to the next, skipping the size it was listed with. -/
def SizesGrow (deleted : ℕ) (xs : List (Quantity × Quantity))
    (pvcs : List (Obj .persistentVolumeClaim × Quantity)) : Prop :=
  ∀ p ∈ pvcs, ∀ ys, ys <+: xs → Passable deleted ys →
    List.IsChain (· ≤ ·) (storageOf p.1 :: (ys.map Prod.fst).filter (· ≠ p.2))

theorem storageOf_resize (desired : Quantity) (p : Obj .persistentVolumeClaim × Quantity) :
    storageOf (resize desired p).1 = if desired ≠ p.2 then desired else storageOf p.1 := by
  unfold resize
  split_ifs
  · simp [storageOf]
  · rfl

theorem growsClaim_patchOf {e : Step sig World} {desired : Quantity}
    {p : Obj .persistentVolumeClaim × Quantity} (hreq : e.req = patchOf desired p)
    (hp : Tracked e.pre.cluster p.1) : GrowsClaim e ↔ storageOf p.1 ≤ desired := by
  obtain ⟨-, stored, hfind, hrequest, -⟩ := hp
  have hsize : storageOf stored = storageOf p.1 := by rw [storageOf, hrequest, storageOf]
  have hdesired : storageOf (withStorageRequest p.1 desired) = desired := by simp [storageOf]
  constructor
  · intro h
    rw [← hsize, ← hdesired]
    exact h _ _ hreq stored hfind
  · intro hle base obj hreq' stored' hfind'
    cases hreq.symm.trans hreq'
    cases hfind.symm.trans hfind'
    rw [hsize, hdesired]
    exact hle

theorem sizesGrow_nil (deleted : ℕ) (pvcs : List (Obj .persistentVolumeClaim × Quantity)) :
    SizesGrow deleted [] pvcs := by
  intro p _ ys hys _
  rw [List.prefix_nil.1 hys]
  exact List.isChain_singleton _

theorem sizesGrow_cons {deleted : ℕ} {x : Quantity × Quantity}
    {xs : List (Quantity × Quantity)} {pvcs : List (Obj .persistentVolumeClaim × Quantity)} :
    SizesGrow deleted (x :: xs) pvcs ↔ (Passable deleted [x] →
      (∀ p ∈ pvcs, x.1 ≠ p.2 → storageOf p.1 ≤ x.1) ∧
        SizesGrow (deleted + changed [x]) xs (pvcs.map (resize x.1))) := by
  -- what the chain of a claim says of the first size
  have hchain : ∀ (p : Obj .persistentVolumeClaim × Quantity) (ys : List (Quantity × Quantity)),
      List.IsChain (· ≤ ·) (storageOf p.1 :: (((x :: ys).map Prod.fst).filter (· ≠ p.2))) ↔
      (x.1 ≠ p.2 → storageOf p.1 ≤ x.1) ∧ List.IsChain (· ≤ ·)
        (storageOf (resize x.1 p).1 :: (ys.map Prod.fst).filter (· ≠ (resize x.1 p).2)) := by
    intro p ys
    rw [storageOf_resize, resize_snd, List.map_cons]
    by_cases hne : x.1 ≠ p.2
    · rw [List.filter_cons_of_pos (by simpa using hne), List.isChain_cons_cons, if_pos hne]
      simp [hne]
    · rw [List.filter_cons_of_neg (by simpa using hne), if_neg hne]
      simp [hne]
  constructor
  · intro h hpass
    refine ⟨fun p hp => ?_, fun q hq ys hys hpass' => ?_⟩
    · have hfirst := h p hp [x] (by simp) hpass
      exact ((hchain p []).1 hfirst).1
    · obtain ⟨p, hp, rfl⟩ := List.mem_map.1 hq
      have hall := h p hp (x :: ys) (List.prefix_cons_inj x |>.2 hys)
        (passable_cons.2 ⟨hpass.grows x List.mem_cons_self, hpass'⟩)
      exact ((hchain p ys).1 hall).2
  · intro h p hp ys hys hpass
    rcases List.prefix_cons_iff.1 hys with rfl | ⟨ys', rfl, hys'⟩
    · exact List.isChain_singleton _
    · obtain ⟨hle, hpass'⟩ := passable_cons.1 hpass
      have hfirst : Passable deleted [x] :=
        passable_cons.2 ⟨hle, passable_nil (le_trans (Nat.le_add_right _ _) hpass'.once)⟩
      obtain ⟨hhead, hrest⟩ := h hfirst
      exact (hchain p ys').2 ⟨hhead p hp, hrest _ (List.mem_map_of_mem hp) ys' hys' hpass'⟩

section Grow

variable {env : Env} {w : World} {sts : Obj .statefulSet} {deleted : ℕ} {des cur : List Quantity}
  {pvcs : List (Obj .persistentVolumeClaim × Quantity)}

/-- Where the sizes grow, so do the claims, whatever fails. -/
theorem AtTurn.grows (h : AtTurn w sts deleted pvcs) (henv : env.Alone)
    (hsizes : SizesGrow deleted (des.zip cur) pvcs) :
    ∀ e ∈ (exec (serve env) (expandTemplates sts des cur pvcs) w).steps, GrowsClaim e := by
  induction des generalizing cur pvcs w deleted with
  | nil => exact fun e he => by cases he
  | cons desired des ih =>
      cases cur with
      | nil => exact fun e he => by cases he
      | cons current cur =>
          rw [List.zip_cons_cons, sizesGrow_cons] at hsizes
          have hturn := h.turn henv (desired, current)
          have hfirst : ∀ e ∈ (exec (serve env) (expandTemplate sts desired current pvcs) w).steps,
              GrowsClaim e := by
            intro e he
            obtain ⟨-, ⟨-, hdelete⟩ | ⟨hpass, p, hp, hne, hpatch, htracked⟩⟩ := hturn.asked e he
            · intro base obj hreq
              cases hdelete.symm.trans hreq
            · exact (growsClaim_patchOf hpatch htracked).2 ((hsizes hpass).1 p hp hne)
          intro e he
          rw [expandTemplates] at he
          cases hres : (exec (serve env) (expandTemplate sts desired current pvcs) w).res with
          | error err =>
              rw [exec_bind_error hres] at he
              exact hfirst e he
          | ok resized =>
              rw [exec_bind_ok hres] at he
              rcases List.mem_append.1 he with he | he
              · exact hfirst e he
              · obtain ⟨rfl, hnext⟩ := h.next (x := (desired, current)) henv hres
                have hpass := (hturn.passed _ hres).1
                exact ih hnext (hsizes hpass).2 e he

/-- Where every request is served and no claim shrinks, the sizes grow. -/
theorem AtTurn.sizesGrow (h : AtTurn w sts deleted pvcs) (henv : env.Calm)
    (hgrows : ∀ e ∈ (exec (serve env) (expandTemplates sts des cur pvcs) w).steps, GrowsClaim e) :
    SizesGrow deleted (des.zip cur) pvcs := by
  induction des generalizing cur pvcs w deleted with
  | nil => exact sizesGrow_nil deleted pvcs
  | cons desired des ih =>
      cases cur with
      | nil => exact sizesGrow_nil deleted pvcs
      | cons current cur =>
          rw [List.zip_cons_cons, sizesGrow_cons]
          intro hpass
          have hres := h.served henv hpass
          rw [expandTemplates, exec_bind_ok hres] at hgrows
          refine ⟨fun p hp hne => ?_, ?_⟩
          · obtain ⟨e, he, hreq⟩ := turn_complete hres hp hne
            obtain ⟨-, ⟨-, hdelete⟩ | ⟨-, q, hq, -, hpatch, htracked⟩⟩ :=
              (h.turn henv.alone (desired, current)).asked e he
            · cases hdelete.symm.trans hreq
            · have hsame : p.1 = q.1 := (Request.patchClaim.inj (hreq.symm.trans hpatch)).1
              rw [← hsame] at htracked
              exact (growsClaim_patchOf hreq htracked).1 (hgrows e (List.mem_append_left _ he))
          · exact ih (h.next henv.alone hres).2 fun e he => hgrows e (List.mem_append_right _ he)

end Grow

/-! ## The deletions -/

/-- The step asks for the StatefulSet to be deleted. -/
def deletesSet (key : String × String) (e : Step sig World) : Bool :=
  decide (e.req.write = some (.delete, .statefulSet, key))

/-- The StatefulSet was deleted at most once, and the call did not fail for want of it. -/
def DeletedOnce (key : String × String) (o : Outcome sig World Exit Unit) : Prop :=
  o.steps.countP (deletesSet key) ≤ 1 ∧ o.res ≠ .error (.error (notFoundError key.2))

section Deletions

variable {env : Env} {w : World} {sts : Obj .statefulSet} {deleted : ℕ} {x : Quantity × Quantity}
  {pvcs : List (Obj .persistentVolumeClaim × Quantity)}

theorem shrinkError_ne_notFound (sts : Obj .statefulSet) (name : String) :
    shrinkError sts ≠ .error (notFoundError name) := by
  intro h
  have hflag : false = true := congrArg Error.notFound (Exit.error.inj h)
  cases hflag

theorem countP_patchClaims (h : Handler sig World) (desired : Quantity) :
    (exec h (patchClaims desired pvcs) w).steps.countP (deletesSet sts.key) = 0 := by
  rw [List.countP_eq_zero]
  intro e he hdelete
  have hwrite := (uses_patchClaims desired pvcs).steps he _ _ _ (of_decide_eq_true hdelete)
  cases hwrite.1

theorem countP_turn (h : Handler sig World) (hle : x.2 ≤ x.1) :
    (exec h (expandTemplate sts x.1 x.2 pvcs) w).steps.countP (deletesSet sts.key) =
      changed [x] := by
  rw [expandTemplate, if_neg (not_lt.2 hle), changed_singleton]
  split_ifs with hne
  · have hdelete : ∀ answer, deletesSet sts.key ⟨w, .delete .statefulSet sts true, answer⟩ = true :=
      fun _ => decide_eq_true rfl
    rw [deleteObj, call_bind, exec_call]
    dsimp only
    rw [List.countP_cons_of_pos (hdelete _)]
    cases (h (.delete .statefulSet sts true) w).1 with
    | error err => rfl
    | ok u => exact congrArg (· + 1) (countP_patchClaims h x.1)
  · exact countP_patchClaims h x.1

/-- **The deletions of the loop.** -/
theorem AtTurn.deletedOnce_iff (h : AtTurn w sts deleted pvcs) (henv : env.Calm)
    (des cur : List Quantity) :
    (deleted + (exec (serve env) (expandTemplates sts des cur pvcs) w).steps.countP
        (deletesSet sts.key) ≤ 1 ∧
      (exec (serve env) (expandTemplates sts des cur pvcs) w).res ≠
        .error (.error (notFoundError sts.name))) ↔
    deleted + changed (untilShrink des cur) ≤ 1 := by
  induction des generalizing cur pvcs w deleted with
  | nil => exact ⟨fun h => h.1, fun h => ⟨h, fun herr => by cases herr⟩⟩
  | cons desired des ih =>
      cases cur with
      | nil => exact ⟨fun h => h.1, fun h => ⟨h, fun herr => by cases herr⟩⟩
      | cons current cur =>
          by_cases hlt : desired < current
          · rw [expandTemplates, expandTemplate_of_lt hlt, untilShrink_of_lt hlt]
            refine ⟨fun h => h.1, fun h => ⟨h, fun herr => ?_⟩⟩
            exact shrinkError_ne_notFound sts _ (Except.error.inj herr)
          · have hle : current ≤ desired := not_lt.1 hlt
            have hcount :
                (exec (serve env) (expandTemplate sts desired current pvcs) w).steps.countP
                (deletesSet sts.key) = changed [(desired, current)] :=
              countP_turn (x := (desired, current)) (serve env) hle
            rw [untilShrink_of_le hle, changed_cons, ← Nat.add_assoc, expandTemplates]
            by_cases honce : deleted + changed [(desired, current)] ≤ 1
            · have hpass : Passable deleted [(desired, current)] := ⟨by simpa using hle, honce⟩
              have hres := h.served henv hpass
              rw [exec_bind_ok hres, List.countP_append, hcount, ← Nat.add_assoc]
              exact ih (h.next henv.alone hres).2 cur
            · -- the size has changed, and the StatefulSet is gone
              have hfirst : deleted + (exec (serve env) (expandTemplate sts desired current pvcs >>=
                  fun pvcs => expandTemplates sts des cur pvcs) w).steps.countP
                  (deletesSet sts.key) > 1 := by
                have hbegins := exec_bind_begins (h := serve env)
                  (expandTemplate sts desired current pvcs)
                  (fun pvcs => expandTemplates sts des cur pvcs) w
                have hmore := hbegins.sublist.countP_le (p := deletesSet sts.key)
                omega
              constructor
              · intro hboth
                exact absurd hboth.1 (not_le.2 hfirst)
              · intro hchanged
                omega

end Deletions

/-! ## The whole call -/

/-- The call gets to the loop: every StatefulSet is ready, the one of the group is stored, and it
has claims enough. -/
structure Attended (c : Cluster) (nodeSpec : DruidNodeSpec) (uniqueStr : String) (drd : Druid)
    (sts : Obj .statefulSet) : Prop where
  ready : allReady (c.listed .statefulSet drd.ns (makeLabelsForDruid drd)) = true
  stored : (c.store .statefulSet).find? (drd.ns, uniqueStr) = some sts
  enough : nodeSpec.volumeClaimTemplates.length ≤ (groupClaims c drd uniqueStr).length

/-- What the server sees to: a claim has requests, and one that is being deleted is held back by a
finalizer. -/
def Stocked (c : Cluster) (drd : Druid) (uniqueStr : String) : Prop :=
  ∀ pvc ∈ groupClaims c drd uniqueStr, pvc.body.requests.isSome ∧
    ¬ (pvc.metadata.deletionTimestamp.isSome ∧ pvc.metadata.finalizers = [])

/-- The desired sizes of the group with those of the StatefulSet. -/
def groupSizes (nodeSpec : DruidNodeSpec) (sts : Obj .statefulSet) : List (Quantity × Quantity) :=
  (nodeSpec.volumeClaimTemplates.map storageOf).zip
    (sts.body.spec.volumeClaimTemplates.map storageOf)

section Call

variable {env : Env} {w : World} {nodeSpec : DruidNodeSpec} {uniqueStr : String} {drd : Druid}
  {sts : Obj .statefulSet}

/-- The loop, on the claims of the group. -/
def groupLoop (c : Cluster) (nodeSpec : DruidNodeSpec) (uniqueStr : String) (drd : Druid)
    (sts : Obj .statefulSet) : Code Unit :=
  expandTemplates sts (nodeSpec.volumeClaimTemplates.map storageOf)
    (sts.body.spec.volumeClaimTemplates.map storageOf) (claimsInHand (groupClaims c drd uniqueStr))

theorem Attended.atTurn (h : Attended w.cluster nodeSpec uniqueStr drd sts)
    (hstocked : Stocked w.cluster drd uniqueStr) (calls : ℕ) :
    AtTurn ⟨w.cluster, calls⟩ sts 0 (claimsInHand (groupClaims w.cluster drd uniqueStr)) := by
  refine ⟨?_, fun p hp => ?_, Nat.zero_le 1, fun _ => ?_, fun h => (by cases h)⟩
  · rw [claimsInHand, ← List.map_prod_left_eq_zip, List.map_map]
    exact Cluster.listed_nodup w.cluster .persistentVolumeClaim drd.ns (claimLabels uniqueStr)
  · obtain ⟨hpvc, -⟩ := mem_claimsInHand.1 hp
    obtain ⟨hrequest, hstays⟩ := hstocked p.1 hpvc
    exact ⟨hrequest, p.1, Cluster.stored_of_listed hpvc, rfl, hstays⟩
  · rw [(Table.find?_eq_some.1 h.stored).2, h.stored]
    exact Option.some_ne_none sts

theorem Attended.exec_eq (h : Attended w.cluster nodeSpec uniqueStr drd sts) (henv : env.Calm) :
    ∃ reads, (∀ e ∈ reads, e.req.write = none) ∧
      exec (serve env) (scalePVCForSts nodeSpec uniqueStr drd) w =
        ⟨(exec (serve env) (groupLoop w.cluster nodeSpec uniqueStr drd sts)
            ⟨w.cluster, w.calls + 3⟩).res,
          (exec (serve env) (groupLoop w.cluster nodeSpec uniqueStr drd sts)
            ⟨w.cluster, w.calls + 3⟩).state,
          reads ++ (exec (serve env) (groupLoop w.cluster nodeSpec uniqueStr drd sts)
            ⟨w.cluster, w.calls + 3⟩).steps⟩ := by
  have hfind : w.cluster.find? .statefulSet drd.ns uniqueStr = some sts := h.stored
  have hlist : serve env (.list .statefulSet drd.ns (makeLabelsForDruid drd)) w =
      (.ok (w.cluster.listed .statefulSet drd.ns (makeLabelsForDruid drd)),
        ⟨w.cluster, w.calls + 1⟩) := serve_calm henv _ _
  have hget : serve env (.get .statefulSet drd.ns uniqueStr) ⟨w.cluster, w.calls + 1⟩ =
      (.ok sts, ⟨w.cluster, w.calls + 2⟩) := by
    rw [serve_calm henv, perform, hfind]
  have hclaims : serve env (.list .persistentVolumeClaim drd.ns (claimLabels uniqueStr))
      ⟨w.cluster, w.calls + 2⟩ =
      (.ok (groupClaims w.cluster drd uniqueStr), ⟨w.cluster, w.calls + 3⟩) := serve_calm henv _ _
  obtain ⟨reads, hreads, hexec⟩ := exec_after_lookUps h.ready hlist hget hclaims nodeSpec
  have henough : ¬ (groupClaims w.cluster drd uniqueStr).length <
      (nodeSpec.volumeClaimTemplates.map storageOf).length := by
    simpa using h.enough
  rw [expandClaims_eq_ite, if_neg henough] at hexec
  exact ⟨reads, hreads, hexec⟩

theorem idle_or_attended (henv : env.Alone) (nodeSpec : DruidNodeSpec) (uniqueStr : String)
    (drd : Druid) :
    Idle (exec (serve env) (scalePVCForSts nodeSpec uniqueStr drd) w) ∨
      ∃ sts reads, Attended w.cluster nodeSpec uniqueStr drd sts ∧
        (∀ e ∈ reads, e.req.write = none) ∧
        (exec (serve env) (scalePVCForSts nodeSpec uniqueStr drd) w).steps =
          reads ++ (exec (serve env) (groupLoop w.cluster nodeSpec uniqueStr drd sts)
            ⟨w.cluster, w.calls + 3⟩).steps := by
  by_cases hfound : ∃ sts pvcList, Found (serve env) w drd uniqueStr sts pvcList
  · obtain ⟨sts, pvcList, stss, s₁, s₂, s₃, hready, hlist, hget, hclaims⟩ := hfound
    obtain ⟨reads, hreads, hexec⟩ := exec_after_lookUps hready hlist hget hclaims nodeSpec
    obtain ⟨rfl, rfl⟩ := list_alone henv hlist
    obtain ⟨hstored, rfl⟩ := get_alone henv hget
    obtain ⟨rfl, rfl⟩ := list_alone henv hclaims
    rw [expandClaims_eq_ite] at hexec
    rw [hexec]
    split_ifs with hlength
    · exact .inl ⟨rfl, by simpa using hreads⟩
    · refine .inr ⟨sts, reads, ⟨hready, hstored, ?_⟩, hreads, rfl⟩
      simpa [groupClaims] using hlength
  · exact .inl (idle_of_not_found (fun sts pvcList found => hfound ⟨sts, pvcList, found⟩) nodeSpec)

end Call

theorem growsClaim_of_read {e : Step sig World} (hread : e.req.write = none) : GrowsClaim e := by
  intro base obj hreq
  rw [hreq] at hread
  cases hread

/-- **No claim is shrunk**, whatever fails, exactly if the sizes that the loop gets to grow for each
claim. -/
theorem never_shrunk_iff (nodeSpec : DruidNodeSpec) (uniqueStr : String) (drd : Druid) (w : World)
    (hstocked : Stocked w.cluster drd uniqueStr) :
    (∀ env : Env, env.Alone →
      ∀ e ∈ (exec (serve env) (scalePVCForSts nodeSpec uniqueStr drd) w).steps, GrowsClaim e) ↔
    ∀ sts, Attended w.cluster nodeSpec uniqueStr drd sts →
      SizesGrow 0 (groupSizes nodeSpec sts)
        (claimsInHand (groupClaims w.cluster drd uniqueStr)) := by
  constructor
  · intro hall sts hattended
    have hcalm : Env.Calm {} := ⟨fun _ _ => rfl, fun _ => rfl⟩
    obtain ⟨reads, -, hexec⟩ := hattended.exec_eq hcalm
    refine (hattended.atTurn hstocked (w.calls + 3)).sizesGrow hcalm fun e he => ?_
    exact hall {} hcalm.alone e (by rw [hexec]; exact List.mem_append_right _ he)
  · intro hsizes env henv e he
    rcases idle_or_attended henv nodeSpec uniqueStr drd with hidle |
      ⟨sts, reads, hattended, hreads, hsteps⟩
    · exact growsClaim_of_read (hidle.2 e he)
    · rw [hsteps] at he
      rcases List.mem_append.1 he with he | he
      · exact growsClaim_of_read (hreads e he)
      · exact (hattended.atTurn hstocked (w.calls + 3)).grows henv (hsizes sts hattended) e he

/-- **The StatefulSet is deleted at most once**, with every request served, exactly if at most one
size has changed before the first that shrinks. -/
theorem deleted_once_iff (nodeSpec : DruidNodeSpec) (uniqueStr : String) (drd : Druid) (env : Env)
    (henv : env.Calm) (w : World) (hstocked : Stocked w.cluster drd uniqueStr) :
    DeletedOnce (drd.ns, uniqueStr) (exec (serve env) (scalePVCForSts nodeSpec uniqueStr drd) w) ↔
      ∀ sts, Attended w.cluster nodeSpec uniqueStr drd sts →
        changed (untilShrink (nodeSpec.volumeClaimTemplates.map storageOf)
          (sts.body.spec.volumeClaimTemplates.map storageOf)) ≤ 1 := by
  have hquiet : ∀ steps : List (Step sig World), (∀ e ∈ steps, e.req.write = none) →
      steps.countP (deletesSet (drd.ns, uniqueStr)) = 0 := by
    intro steps hsteps
    rw [List.countP_eq_zero]
    intro e he hdelete
    cases (hsteps e he).symm.trans (of_decide_eq_true hdelete)
  -- the loop of a group that is attended to
  have hloop : ∀ sts, Attended w.cluster nodeSpec uniqueStr drd sts →
      (DeletedOnce (drd.ns, uniqueStr)
        (exec (serve env) (scalePVCForSts nodeSpec uniqueStr drd) w) ↔
        changed (untilShrink (nodeSpec.volumeClaimTemplates.map storageOf)
          (sts.body.spec.volumeClaimTemplates.map storageOf)) ≤ 1) := by
    intro sts hattended
    obtain ⟨reads, hreads, hexec⟩ := hattended.exec_eq henv
    have hkey : sts.key = (drd.ns, uniqueStr) := (Table.find?_eq_some.1 hattended.stored).2
    have hname : sts.name = uniqueStr := congrArg Prod.snd hkey
    have hdeleted := (hattended.atTurn hstocked (w.calls + 3)).deletedOnce_iff henv
      (nodeSpec.volumeClaimTemplates.map storageOf)
      (sts.body.spec.volumeClaimTemplates.map storageOf)
    rw [Nat.zero_add, Nat.zero_add, hkey, hname] at hdeleted
    rw [← hdeleted, DeletedOnce, hexec, List.countP_append, hquiet reads hreads, Nat.zero_add]
    rfl
  constructor
  · exact fun hdeleted sts hattended => (hloop sts hattended).1 hdeleted
  · intro hchanged
    rcases idle_or_attended henv.alone nodeSpec uniqueStr drd (w := w) with hidle |
      ⟨sts, -, hattended, -, -⟩
    · refine ⟨by rw [hquiet _ hidle.2]; exact Nat.zero_le 1, fun herr => ?_⟩
      cases hidle.1.symm.trans herr
    · exact (hloop sts hattended).2 (hchanged sts hattended)

/-! ## Two disks -/

theorem stocked_twoDisks : Stocked (diskWorld twoDisks).cluster diskCluster "s" := by
  unfold Stocked
  rw [groupClaims_twoDisks]
  simp only [List.forall_mem_cons]
  exact ⟨⟨rfl, by decide⟩, ⟨rfl, by decide⟩, fun _ h => by cases h⟩

theorem eq_diskSet {nodeSpec : DruidNodeSpec} {sts : Obj .statefulSet}
    (h : Attended (diskWorld twoDisks).cluster nodeSpec "s" diskCluster sts) :
    sts = diskSet twoDisks :=
  (Option.some.inj h.stored).symm

/-- Only the first disk grows, to the size of the second. -/
theorem never_shrunk_twoDisks :
    Stocked (diskWorld twoDisks).cluster diskCluster "s" ∧
      ∀ e ∈ (expansion 20 20).steps, GrowsClaim e := by
  refine ⟨stocked_twoDisks, ?_⟩
  refine (never_shrunk_iff _ "s" diskCluster _ stocked_twoDisks).2 (fun sts h => ?_) {}
    fun _ _ => rfl
  have hsizes : groupSizes (diskGroup [("a", 20), ("b", 20)]) (diskSet twoDisks) =
    [(20, 10), (20, 20)] := rfl
  have hclaims : (claimsInHand (groupClaims (diskWorld twoDisks).cluster diskCluster "s")) =
    [(sizedClaim "a-s-0" (some (claimLabels "s")) 10, 10),
      (sizedClaim "b-s-0" (some (claimLabels "s")) 20, 20)] := rfl
  rw [eq_diskSet h, hsizes, hclaims, sizesGrow_cons]
  refine fun _ => ⟨?_, sizesGrow_cons.2 fun _ => ⟨?_, sizesGrow_nil _ _⟩⟩
  · simp only [List.forall_mem_cons]
    exact ⟨fun _ => by decide, fun hne => absurd rfl hne, fun _ hp => by cases hp⟩
  · simp only [List.map_cons, List.forall_mem_cons]
    exact ⟨fun _ => by decide, fun hne => absurd rfl hne, fun _ hp => by cases hp⟩

/-- The step patches a claim to less than it has. -/
def shrinksClaim (e : Step sig World) : Bool :=
  match e.req with
  | .patchClaim _ obj => ((e.pre.cluster.store .persistentVolumeClaim).find? obj.key).any
      fun stored => decide (storageOf obj < storageOf stored)
  | _ => false

/-- Each disk has the size of its template. The second claim is given the size of the first
template. -/
theorem claim_shrunk : (expansion 10 20).steps.any shrinksClaim = true ∧
    ∃ e ∈ (expansion 10 20).steps, ¬ GrowsClaim e := by
  have hany : (expansion 10 20).steps.any shrinksClaim = true := by decide +kernel
  refine ⟨hany, ?_⟩
  obtain ⟨e, he, hshrinks⟩ := List.any_eq_true.1 hany
  refine ⟨e, he, fun hgrows => ?_⟩
  unfold shrinksClaim at hshrinks
  split at hshrinks
  · next base obj hreq =>
      obtain ⟨stored, hfind, hlt⟩ := (Option.any_eq_true _ _).1 hshrinks
      exact absurd (hgrows base obj hreq stored hfind) (not_le.2 (of_decide_eq_true hlt))
  · cases hshrinks

theorem deleted_once_twoDisks : DeletedOnce ("d", "s") (expansion 20 20) := by
  refine (deleted_once_iff (diskGroup [("a", 20), ("b", 20)]) "s" diskCluster {}
    ⟨fun _ _ => rfl, fun _ => rfl⟩ _ stocked_twoDisks).2 fun sts h => ?_
  rw [eq_diskSet h]
  decide

/-- Both disks are to grow. The second deletion finds no StatefulSet, and the call ends there. -/
theorem deleted_twice :
    ¬ DeletedOnce ("d", "s") (expansion 15 25) ∧
    (expansion 15 25).steps.countP (deletesSet ("d", "s")) = 2 ∧
    (expansion 15 25).res = .error (.error (notFoundError "s")) ∧
    (((expansion 15 25).state.cluster.store .persistentVolumeClaim).find? ("d", "b-s-0")).map
      storageOf = some 15 := by
  have hrun : (expansion 15 25).steps.countP (deletesSet ("d", "s")) = 2 ∧
      (expansion 15 25).res = .error (.error (notFoundError "s")) ∧
      (((expansion 15 25).state.cluster.store .persistentVolumeClaim).find? ("d", "b-s-0")).map
        storageOf = some 15 := by
    decide +kernel
  exact ⟨fun h => h.2 hrun.2.1, hrun⟩

end DruidOperator.Controller
