import DruidOperator.FinalizersProof
import DruidOperator.FinalizerRuns
import DruidOperator.Lib.Traces

/-!
# The finalizer and the cleanup it waits for

`executePVCFinalizer` lists the claims and the StatefulSets of a resource that is being deleted,
deletes the StatefulSets, deletes the claims, and only then takes the finalizer off. It stops at the
first call that fails. `updateFinalizers` sets the finalizer in the first place.

* `CleanedUp` — the objects of a kind were listed, and every delete of a listed one succeeded.
* `cleanup_completed` — no claim before the StatefulSets, no release before both, and no release
  after a failure.
* `finalizers_exact` — the finalizers that `updateFinalizers` stores, and that it stores them once.
-/

namespace DruidOperator.Controller

open Interaction Prog Kube

/-! ## The parts of the cleanup -/

/-- The selectors of the two lists. -/
def claimSelector (m : Druid) : StrMap := Finmap.singleton "druid_cr" m.name

/-- List, and delete the StatefulSets. -/
def deleteSets (m : Druid) : Code (List (Obj .persistentVolumeClaim)) := do
  let pvcList ← orReturn (← listObjs .persistentVolumeClaim m.ns (claimSelector m))
  let stsList ← orReturn (← listObjs .statefulSet m.ns (makeLabelsForDruid m))
  deleteAll stsList
  return pvcList

/-- List, and delete the StatefulSets and the claims. -/
def deleteListed (m : Druid) : Code Unit := deleteSets m >>= fun pvcList => deleteAll pvcList

/-- Take the finalizer off. -/
def release (m : Druid) : Code Unit := do
  orReturn (← updateObj .druid (withFinalizers m
    (removeString m.metadata.finalizers deletePVCFinalizerName)))

theorem deleteSets_eq (m : Druid) :
    deleteSets m =
      (do orReturn (← listObjs .persistentVolumeClaim m.ns (claimSelector m))) >>= fun pvcList =>
      (do orReturn (← listObjs .statefulSet m.ns (makeLabelsForDruid m))) >>= fun stsList =>
      deleteAll stsList >>= fun _ => .ret pvcList := by
  simp only [deleteSets, Prog.bind_assoc]
  rfl

theorem executePVCFinalizer_eq_release {m : Druid}
    (hfin : deletePVCFinalizerName ∈ m.metadata.finalizers) :
    executePVCFinalizer m = deleteListed m >>= fun _ => release m := by
  rw [executePVCFinalizer, if_pos hfin]
  simp only [deleteListed, deleteSets, deleteSTSAndPVC, Prog.bind_assoc, pure_eq, ret_bind]
  rfl

/-- The objects of a kind were listed, and every delete of a listed one succeeded. -/
def CleanedUp {σ : Type} (k : Kind) (ns : String) (selector : StrMap) (steps : List (Step sig σ)) :
    Prop :=
  ∃ pre objs, ⟨pre, .list k ns selector, .ok objs⟩ ∈ steps ∧
    ∀ obj ∈ objs, ∃ pre, ⟨pre, .delete k obj false, .ok ()⟩ ∈ steps

theorem CleanedUp.mono {σ : Type} {k : Kind} {ns : String} {selector : StrMap}
    {steps steps' : List (Step sig σ)} (hclean : CleanedUp k ns selector steps)
    (hsub : ∀ e ∈ steps, e ∈ steps') : CleanedUp k ns selector steps' := by
  obtain ⟨pre, objs, hlist, hdeleted⟩ := hclean
  refine ⟨pre, objs, hsub _ hlist, fun obj hobj => ?_⟩
  obtain ⟨pre, hdelete⟩ := hdeleted obj hobj
  exact ⟨pre, hsub _ hdelete⟩

section Handler

variable {σ : Type} {h : Handler sig σ} {s : σ}

theorem deleteAll_deleted {k : Kind} {objs : List (Obj k)}
    (hres : (exec h (deleteAll objs) s).res = .ok ()) :
    ∀ obj ∈ objs, ∃ pre,
      ⟨pre, .delete k obj false, .ok ()⟩ ∈ (exec h (deleteAll objs) s).steps := by
  induction objs generalizing s with
  | nil => exact fun obj hobj => absurd hobj List.not_mem_nil
  | cons obj objs ih =>
      rw [deleteAll_cons, exec_call] at hres ⊢
      cases hanswer : (h (.delete k obj false) s).1 with
      | error e =>
          rw [hanswer] at hres
          cases hres
      | ok u =>
          rw [hanswer] at hres
          intro o ho
          rcases List.mem_cons.1 ho with rfl | ho
          · exact ⟨s, List.mem_cons_self⟩
          · obtain ⟨pre, hmem⟩ := ih hres o ho
            exact ⟨pre, List.mem_cons_of_mem _ hmem⟩

theorem listed_of_returned {k : Kind} {ns : String} {selector : StrMap} {objs : List (Obj k)}
    (hres : (exec h (do orReturn (← listObjs k ns selector) : Code (List (Obj k))) s).res =
      .ok objs) :
    ∃ pre, ⟨pre, .list k ns selector, .ok objs⟩ ∈
      (exec h (do orReturn (← listObjs k ns selector) : Code (List (Obj k))) s).steps := by
  simp only [listObjs, call_bind, ret_bind, exec_call] at hres ⊢
  cases hanswer : (h (.list k ns selector) s).1 with
  | error e =>
      rw [hanswer] at hres
      cases hres
  | ok found =>
      rw [hanswer] at hres
      cases hres
      exact ⟨s, List.mem_cons_self⟩

theorem deleteSets_cleanedUp {m : Druid} {pvcList : List (Obj .persistentVolumeClaim)}
    (hres : (exec h (deleteSets m) s).res = .ok pvcList) :
    CleanedUp .statefulSet m.ns (makeLabelsForDruid m) (exec h (deleteSets m) s).steps ∧
      ∃ pre, ⟨pre, .list .persistentVolumeClaim m.ns (claimSelector m), .ok pvcList⟩ ∈
        (exec h (deleteSets m) s).steps := by
  rw [deleteSets_eq] at hres ⊢
  obtain ⟨claims, hclaims, hres, hsteps⟩ := exec_bind_returned hres
  obtain ⟨sets, hlisted, hres, hsteps'⟩ := exec_bind_returned hres
  obtain ⟨⟨⟩, hdeleted, hres, hsteps''⟩ := exec_bind_returned hres
  cases hres
  obtain ⟨pre, hpre⟩ := listed_of_returned hclaims
  obtain ⟨pre', hpre'⟩ := listed_of_returned hlisted
  rw [hsteps, hsteps', hsteps'']
  refine ⟨⟨pre', sets, by simp [hpre'], fun obj hobj => ?_⟩, pre, by simp [hpre]⟩
  obtain ⟨moment, hmoment⟩ := deleteAll_deleted hdeleted obj hobj
  exact ⟨moment, by simp [hmoment]⟩

theorem deleteListed_cleanedUp {m : Druid} (hres : (exec h (deleteListed m) s).res = .ok ()) :
    CleanedUp .statefulSet m.ns (makeLabelsForDruid m) (exec h (deleteListed m) s).steps ∧
      CleanedUp .persistentVolumeClaim m.ns (claimSelector m)
        (exec h (deleteListed m) s).steps := by
  obtain ⟨pvcList, hsets, hdeleted, hsteps⟩ := exec_bind_returned hres
  obtain ⟨hclean, pre, hlist⟩ := deleteSets_cleanedUp hsets
  have hleft : ∀ e ∈ (exec h (deleteSets m) s).steps, e ∈ (exec h (deleteListed m) s).steps :=
    fun e he => hsteps ▸ List.mem_append_left _ he
  refine ⟨hclean.mono hleft, pre, pvcList, hleft _ hlist, fun pvc hpvc => ?_⟩
  obtain ⟨moment, hmoment⟩ := deleteAll_deleted hdeleted pvc hpvc
  exact ⟨moment, hsteps ▸ List.mem_append_right _ hmoment⟩

end Handler

/-! ## Which requests, and what their failure does -/

/-- A list or a delete of the kinds in `ks`. -/
def Cleaning (ks : List Kind) : Request → Prop
  | .list _ _ _ => True
  | .delete k _ _ => k ∈ ks
  | _ => False

theorem uses_deleteAll_cleaning {k : Kind} {ks : List Kind} (hk : k ∈ ks) (objs : List (Obj k)) :
    (deleteAll objs).Uses (Cleaning ks) :=
  Uses.forEach fun obj _ => Uses.bind (by simpa [deleteObj, Cleaning] using hk) fun _ => by simp

theorem uses_deleteSets (m : Druid) : (deleteSets m).Uses (Cleaning [.statefulSet]) := by
  refine Uses.bind (by simp [listObjs, Cleaning]) fun claims => ?_
  refine Uses.bind (by simp) fun pvcList => ?_
  refine Uses.bind (by simp [listObjs, Cleaning]) fun sets => ?_
  refine Uses.bind (by simp) fun stsList => ?_
  exact (uses_deleteAll_cleaning List.mem_cons_self stsList).bind fun _ => trivial

theorem uses_deleteListed (m : Druid) :
    (deleteListed m).Uses (Cleaning [.statefulSet, .persistentVolumeClaim]) := by
  refine Uses.bind ((uses_deleteSets m).mono fun r hr => ?_) fun pvcList =>
    uses_deleteAll_cleaning (by simp) pvcList
  cases r with
  | delete k obj orphan => exact List.mem_cons.2 (.inl (List.mem_singleton.1 hr))
  | list k ns selector => trivial
  | _ => exact hr

/-- The exits with an error of the API server. -/
def Reported : Exit → Prop
  | .error _ => True
  | .panic _ => False

theorem orReturn_failed {α : Type} {x : Except Error α} (hx : x.isOk = false) :
    ∃ e, Reported e ∧ (orReturn x : Code α) = .exit e := by
  cases x with
  | error e => exact ⟨.error e, trivial, rfl⟩
  | ok a => cases hx

theorem failsFast_orReturn {α : Type} (x : Except Error α) :
    (orReturn x : Code α).FailsFast Response.failed Reported := by
  cases x <;> trivial

theorem failsFast_deleteAll {k : Kind} (objs : List (Obj k)) :
    (deleteAll objs).FailsFast Response.failed Reported :=
  FailsFast.forEach fun _ _ x => ⟨orReturn_failed, failsFast_orReturn x⟩

theorem failsFast_deleteListed (m : Druid) :
    (deleteListed m).FailsFast Response.failed Reported := by
  rw [deleteListed, deleteSets_eq]
  refine FailsFast.bind ?_ failsFast_deleteAll
  refine FailsFast.bind (fun x => ⟨orReturn_failed, failsFast_orReturn x⟩) fun pvcList => ?_
  refine FailsFast.bind (fun x => ⟨orReturn_failed, failsFast_orReturn x⟩) fun stsList => ?_
  exact (failsFast_deleteAll stsList).bind fun _ => trivial

theorem failsFast_executePVCFinalizer (m : Druid) :
    (executePVCFinalizer m).FailsFast Response.failed Reported := by
  by_cases hfin : deletePVCFinalizerName ∈ m.metadata.finalizers
  · rw [executePVCFinalizer_eq_release hfin]
    refine (failsFast_deleteListed m).bind fun _ => ?_
    exact fun x => ⟨orReturn_failed, failsFast_orReturn x⟩
  · rw [executePVCFinalizer, if_neg hfin]
    trivial

theorem release_step {m : Druid} {h : Handler sig World} {w : World} {e : Step sig World}
    (he : e ∈ (exec h (release m) w).steps) :
    e = ⟨w, .update .druid (withFinalizers m
        (removeString m.metadata.finalizers deletePVCFinalizerName)), (h _ w).1⟩ ∧
      (exec h (release m) w).state = (h (.update .druid (withFinalizers m
        (removeString m.metadata.finalizers deletePVCFinalizerName))) w).2 := by
  rw [release, updateObj, call_bind, exec_call] at he ⊢
  simp only [ret_bind] at he ⊢
  cases hanswer : (h (.update .druid (withFinalizers m
      (removeString m.metadata.finalizers deletePVCFinalizerName))) w).1 <;>
    exact ⟨by simpa [hanswer] using he, rfl⟩

theorem store_deleteListed {env : Env} (henv : env.Alone) (m : Druid) (w : World) :
    (exec (serve env) (deleteListed m) w).state.cluster.store .druid = w.cluster.store .druid := by
  refine exec_store henv (A := fun _ k _ => k ≠ .druid)
    ((uses_deleteListed m).mono fun r hr v k key hwrite => ?_) fun v key hA => hA rfl
  cases r with
  | list k' ns selector => cases hwrite
  | delete k' obj orphan =>
      obtain ⟨-, rfl, -⟩ := Option.some.inj hwrite
      rintro rfl
      simp [Cleaning] at hr
  | _ => exact absurd hr id

def DeletesClaim (e : Step sig World) : Prop :=
  ∃ pvc orphan, e.req = .delete .persistentVolumeClaim pvc orphan

def UpdatesResource (e : Step sig World) : Prop := ∃ cr, e.req = .update .druid cr

/-- **Finalizer removal implies completed cleanup.** Whatever is stored, whichever calls fail and
whatever others do meanwhile: no claim is deleted before every listed StatefulSet is, and the
resource is not updated before every listed StatefulSet and claim is. If a call fails an error is
returned; and if nobody else writes, and the update is not carried out although it is answered with
an error, the resource is stored with all its finalizers as before. -/
theorem cleanup_completed (env : Env) (m : Druid) (w : World) :
    Preceded DeletesClaim
        (CleanedUp .statefulSet m.ns (makeLabelsForDruid m))
        (exec (serve env) (executePVCFinalizer m) w).steps ∧
    Preceded UpdatesResource
        (fun before => CleanedUp .statefulSet m.ns (makeLabelsForDruid m) before ∧
          CleanedUp .persistentVolumeClaim m.ns (Finmap.singleton "druid_cr" m.name) before)
        (exec (serve env) (executePVCFinalizer m) w).steps ∧
    ∀ e ∈ (exec (serve env) (executePVCFinalizer m) w).steps, Response.failed e.req e.resp →
      (∃ err, (exec (serve env) (executePVCFinalizer m) w).res = .error (.error err)) ∧
      (env.Alone → (∀ cr, e.req = .update .druid cr →
          ∀ f ∈ env.fault e.pre.calls, f.applied = false) →
        ((exec (serve env) (executePVCFinalizer m) w).state.cluster.store .druid).find? m.key =
          (w.cluster.store .druid).find? m.key) := by
  by_cases hfin : deletePVCFinalizerName ∈ m.metadata.finalizers
  · have heq := executePVCFinalizer_eq_release hfin
    refine ⟨?_, ?_, fun e he hfailed => ⟨?_, fun henv hlost => ?_⟩⟩
    · rw [heq, deleteListed, Prog.bind_assoc]
      refine Preceded.bind (fun e he => ?_) fun pvcList hres more =>
        (deleteSets_cleanedUp hres).1.mono fun e he => List.mem_append_left _ he
      rintro ⟨pvc, orphan, hreq⟩
      have hcleaning := (uses_deleteSets m).steps he
      rw [hreq] at hcleaning
      simp [Cleaning] at hcleaning
    · rw [heq]
      refine Preceded.bind (fun e he => ?_) fun _ hres more => ?_
      · rintro ⟨cr, hreq⟩
        have hcleaning := (uses_deleteListed m).steps he
        rw [hreq] at hcleaning
        exact hcleaning
      · obtain ⟨hsets, hclaims⟩ := deleteListed_cleanedUp hres
        exact ⟨hsets.mono fun e he => List.mem_append_left _ he,
          hclaims.mono fun e he => List.mem_append_left _ he⟩
    · obtain ⟨x, hx, hres⟩ := (failsFast_executePVCFinalizer m).result he hfailed
      cases x with
      | error err => exact ⟨err, hres⟩
      | panic msg => cases hx
    · rw [heq] at he ⊢
      have hkept := store_deleteListed henv m w
      cases hres : (exec (serve env) (deleteListed m) w).res with
      | error x => rw [exec_bind_error hres, hkept]
      | ok u =>
          -- nothing has failed so far, so what failed is the update
          rw [exec_bind_ok hres] at he ⊢
          rcases List.mem_append.1 he with he | he
          · obtain ⟨x, -, herror⟩ := (failsFast_deleteListed m).result he hfailed
            rw [hres] at herror
            cases herror
          · generalize (exec (serve env) (deleteListed m) w).state = w' at he hkept ⊢
            obtain ⟨heq, hstate⟩ := release_step he
            subst heq
            rw [hstate, serve_failed henv hfailed (hlost _ rfl), hkept]
  · have hnone : executePVCFinalizer m = .ret () := by
      rw [executePVCFinalizer, if_neg hfin]
      rfl
    rw [hnone]
    refine ⟨.ofNone fun e he => ?_, .ofNone fun e he => ?_, fun e he => ?_⟩ <;> cases he

/-! ## Setting the finalizer -/

/-- What the finalizers are to be: those of others as they are, and the operator's own once at the
end unless it is disabled. -/
def properFinalizers (m : Druid) : List String :=
  m.metadata.finalizers.filter (· ≠ deletePVCFinalizerName) ++
    if m.spec.disablePVCDeletionFinalizer then [] else [deletePVCFinalizerName]

theorem desiredFinalizers_eq (m : Druid) : desiredFinalizers m = properFinalizers m := by
  unfold desiredFinalizers properFinalizers removeString
  by_cases hflag : m.spec.disablePVCDeletionFinalizer = true
  · simp [hflag]
  · simp [hflag]

/-- The proper finalizers are those of a resource that has them. -/
theorem properFinalizers_idem {m m' : Druid} (hspec : m'.spec = m.spec)
    (hproper : m'.metadata.finalizers = properFinalizers m) :
    properFinalizers m' = m'.metadata.finalizers := by
  unfold properFinalizers at hproper ⊢
  rw [hproper, hspec]
  by_cases hflag : m.spec.disablePVCDeletionFinalizer = true
  · simp [hflag, List.filter_filter]
  · simp [hflag, List.filter_filter]

theorem updateFinalizers_quiet {m m' : Druid} (hspec : m'.spec = m.spec)
    (hproper : m'.metadata.finalizers = properFinalizers m) : updateFinalizers m' = .ret m' := by
  rw [updateFinalizers, desiredFinalizers_eq, properFinalizers_idem hspec hproper]
  exact if_neg fun hne => hne rfl

/-- The stored finalizers, none if the resource is gone. -/
def storedFinalizers (c : Cluster) (key : String × String) : List String :=
  ((c.store .druid).find? key).elim [] fun cr => cr.metadata.finalizers

theorem patched_of_ok {env : Env} (henv : env.Alone) {m answer : Druid} {finalizers : List String}
    {w : World} (hok : (serve env (.patchFinalizers m finalizers) w).1 = .ok answer) :
    (serve env (.patchFinalizers m finalizers) w).2.cluster =
      FinalizerRuns.setFinalizers m.key (fun _ => finalizers) w.cluster := by
  cases hfault : env.fault w.calls with
  | some f =>
      rw [serve_fault hfault] at hok
      cases hok
  | none =>
      rw [serve_alone henv hfault]
      rfl

/-- What a call that returns leaves behind: the resource as it was, or as one patch made it. -/
theorem updateFinalizers_returned {env : Env} (henv : env.Alone) {m m' : Druid} {w : World}
    (hres : (exec (serve env) (updateFinalizers m) w).res = .ok m') :
    (m.metadata.finalizers = properFinalizers m ∧ m' = m ∧
        (exec (serve env) (updateFinalizers m) w).state = w) ∨
      (m' = withFinalizers m (properFinalizers m) ∧
        (exec (serve env) (updateFinalizers m) w).state.cluster =
          FinalizerRuns.setFinalizers m.key (fun _ => properFinalizers m) w.cluster) := by
  by_cases hproper : m.metadata.finalizers = properFinalizers m
  · rw [updateFinalizers_quiet rfl hproper] at hres ⊢
    cases hres
    exact .inl ⟨hproper, rfl, rfl⟩
  · rw [updateFinalizers, desiredFinalizers_eq, if_pos hproper] at hres ⊢
    simp only [patchFinalizers, call_bind, ret_bind, exec_call] at hres ⊢
    cases hanswer : (serve env (.patchFinalizers m (properFinalizers m)) w).1 with
    | error e =>
        rw [hanswer] at hres
        cases hres
    | ok u =>
        rw [hanswer] at hres
        cases hres
        exact .inr ⟨rfl, patched_of_ok henv hanswer⟩

/-- **`updateFinalizers` is exact and idempotent.** Let nobody else write. After a call that
returns, the stored finalizers of the resource are the proper ones, and a second call, with the copy
in hand or with the resource as it is stored by then, sends nothing. A resource that is not being
deleted is still there. -/
theorem finalizers_exact {env : Env} (henv : env.Alone) {m m' : Druid} {w : World}
    (hstored : (w.cluster.store .druid).find? m.key = some m)
    (hres : (exec (serve env) (updateFinalizers m) w).res = .ok m') :
    storedFinalizers (exec (serve env) (updateFinalizers m) w).state.cluster m.key =
        m.metadata.finalizers.filter (· ≠ deletePVCFinalizerName) ++
          (if m.spec.disablePVCDeletionFinalizer then [] else [deletePVCFinalizerName]) ∧
      (m.metadata.deletionTimestamp = none →
        ((exec (serve env) (updateFinalizers m) w).state.cluster.store .druid).find? m.key ≠ none) ∧
      ∀ again, again = m' ∨
          ((exec (serve env) (updateFinalizers m) w).state.cluster.store .druid).find? m.key =
            some again →
        ∀ env' w', (exec (serve env') (updateFinalizers again) w').steps = [] := by
  have hquiet : ∀ again : Druid, again.spec = m.spec →
      again.metadata.finalizers = properFinalizers m →
      ∀ env' w', (exec (serve env') (updateFinalizers again) w').steps = [] := by
    intro again hspec hproper env' w'
    rw [updateFinalizers_quiet hspec hproper]
    rfl
  rcases updateFinalizers_returned henv hres with ⟨hproper, rfl, hstate⟩ | ⟨rfl, hstate⟩
  · rw [hstate, storedFinalizers, hstored]
    refine ⟨hproper, fun _ => Option.some_ne_none _, fun again hagain => ?_⟩
    rcases hagain with rfl | hagain
    · exact hquiet _ rfl hproper
    · cases hagain
      exact hquiet _ rfl hproper
  · have hread : FinalizerRuns.stored m.key ⟨w, none, []⟩ = some m := hstored
    have hfound := FinalizerRuns.stored_setFinalizers (f := fun _ => properFinalizers m) hread
    rw [← hstate] at hfound
    rw [storedFinalizers, hfound]
    by_cases hgone : m.metadata.deletionTimestamp.isSome ∧ properFinalizers m = []
    · rw [if_pos hgone]
      refine ⟨hgone.2.symm, fun hnone => ?_, fun again hagain => ?_⟩
      · rw [hnone] at hgone
        cases hgone.1
      · rcases hagain with rfl | hagain
        · exact hquiet _ rfl rfl
        · cases hagain
    · rw [if_neg hgone]
      refine ⟨rfl, fun _ => Option.some_ne_none _, fun again hagain => ?_⟩
      rcases hagain with rfl | hagain
      · exact hquiet _ rfl rfl
      · cases hagain
        exact hquiet _ rfl rfl

/-- A resource with finalizers of others, and the operator's own twice. -/
def crowded : Druid where
  metadata :=
    { name := "c"
      ns := "d"
      finalizers := [deletePVCFinalizerName, "backup/protect", deletePVCFinalizerName,
        "backup/protect"] }
  body := { spec := {} }

theorem finalizers_exact_crowded :
    (exec (serve {}) (updateFinalizers crowded) (storedAlone crowded)).res =
      .ok (withFinalizers crowded ["backup/protect", "backup/protect", deletePVCFinalizerName]) ∧
    storedFinalizers (exec (serve {}) (updateFinalizers crowded)
      (storedAlone crowded)).state.cluster
        crowded.key = ["backup/protect", "backup/protect", deletePVCFinalizerName] := by
  have hres : (exec (serve {}) (updateFinalizers crowded) (storedAlone crowded)).res =
      .ok (withFinalizers crowded ["backup/protect", "backup/protect",
        deletePVCFinalizerName]) := by
    rfl
  exact ⟨hres, (finalizers_exact (fun _ _ => rfl) rfl hres).1⟩

end DruidOperator.Controller
