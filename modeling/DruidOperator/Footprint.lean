import DruidOperator.Plan

/-!
# What each part of the reconcile can write

One lemma for each function of the controller: every request it can issue, whatever it is
answered, stays within the writes it is there for. The last section says what one `createOrUpdate`
can come to.
-/

namespace DruidOperator.Controller

open Interaction Prog Kube

variable {k : Kind} {updaterFn : Obj k → Obj k → Obj k} {A : Verb → Kind → String × String → Prop}

/-- Create or update the one object with this kind and key. -/
def applies (k : Kind) (key : String × String) : Verb → Kind → String × String → Prop :=
  fun v k' key' => (v = .create ∨ v = .update) ∧ k' = k ∧ key' = key

/-- Create or update objects of this kind. -/
def appliesKind (k : Kind) : Verb → Kind → String × String → Prop :=
  fun v k' _ => (v = .create ∨ v = .update) ∧ k' = k

theorem appliesKind_of_applies {key : String × String} (v : Verb) (k' : Kind)
    (key' : String × String) (h : applies k key v k' key') : appliesKind k v k' key' := ⟨h.1, h.2.1⟩

@[simp] theorem prepare_key (hash : Hash) (drd : Druid) (obj : Obj k) :
    (prepare hash drd obj).key = obj.key := rfl

@[simp] theorem prepare_name (hash : Hash) (drd : Druid) (obj : Obj k) :
    (prepare hash drd obj).name = obj.name := rfl

theorem hashOf_prepare (hash : Hash) (drd : Druid) (obj : Obj k) :
    hashOf (prepare hash drd obj) = hash k (addOwnerRefToObject obj (asOwner drd)) := by
  simp [hashOf, prepare, addHashToObject, StrMap.getD]

theorem keepClusterIP_key (prev curr : Obj .service) :
    (keepClusterIP prev curr).key = curr.key := rfl

theorem uses_createOrUpdate {isEqualFn : Obj k → Obj k → Bool}
    (hkey : ∀ prev curr, (updaterFn prev curr).key = curr.key) (obj : Obj k) :
    (createOrUpdate isEqualFn updaterFn obj).Uses (Request.Within (applies k obj.key)) := by
  unfold createOrUpdate
  refine (reads_getObj _ _ _).bind fun answer => ?_
  cases answer with
  | error err =>
      dsimp only
      split_ifs
      · refine Uses.bind (by simp [applies]) fun answer => Uses.bind (by simp) fun _ => trivial
      · simp
  | ok prevObj =>
      dsimp only
      split_ifs
      · refine Uses.bind ?_ fun answer => Uses.bind (by simp) fun _ => trivial
        rw [uses_updateObj, Request.within_update, hkey]
        exact ⟨.inr rfl, rfl, rfl⟩
      · trivial

theorem uses_applyObj (hkey : ∀ prev curr, (updaterFn prev curr).key = curr.key) (obj : Obj k) :
    (applyObj updaterFn obj).Uses (Request.Within (applies k obj.key)) :=
  (uses_createOrUpdate hkey obj).bind fun _ => trivial

theorem uses_applyOption {obj : Option (Obj k)}
    (hA : ∀ o, obj = some o → ∀ v, (v = .create ∨ v = .update) → A v k o.key) :
    (applyOption obj).Uses (Request.Within A) := by
  cases obj with
  | none => trivial
  | some o =>
      refine (uses_applyObj (fun _ _ => rfl) o).mono fun r hr => hr.mono ?_
      rintro v k' key' ⟨hv, rfl, rfl⟩
      exact hA o rfl v hv

/-! ## Workloads -/

/-- Volume expansion deletes StatefulSets and patches claims. -/
def expands : Verb → Kind → String × String → Prop :=
  fun v k _ => (v = .delete ∧ k = .statefulSet) ∨ (v = .patch ∧ k = .persistentVolumeClaim)

theorem uses_setStorage {φ : Request → Prop} (pvc : Obj .persistentVolumeClaim) (size : Quantity) :
    (setStorage pvc size).Uses φ := by
  unfold setStorage
  split <;> trivial

def patchesClaims : Verb → Kind → String × String → Prop :=
  fun v k _ => v = .patch ∧ k = .persistentVolumeClaim

theorem uses_patchClaims (desired : Quantity)
    (pvcs : List (Obj .persistentVolumeClaim × Quantity)) :
    (patchClaims desired pvcs).Uses (Request.Within patchesClaims) := by
  induction pvcs with
  | nil => trivial
  | cons p rest ih =>
      obtain ⟨pvc, size⟩ := p
      unfold patchClaims
      split_ifs
      · refine (uses_setStorage pvc desired).bind fun resized => ?_
        refine Uses.bind (by simp [patchesClaims]) fun answer => ?_
        exact Uses.bind (by simp) fun _ => ih.bind fun _ => trivial
      · exact ih.bind fun _ => trivial

/-- Volume expansion for one StatefulSet deletes at most that one. -/
def expandsSet (key : String × String) : Verb → Kind → String × String → Prop :=
  fun v k key' => (v = .delete ∧ k = .statefulSet ∧ key' = key) ∨ patchesClaims v k key'

theorem expands_of_expandsSet {key : String × String} (v : Verb) (k : Kind) (key' : String × String)
    (h : expandsSet key v k key') : expands v k key' := h.imp_left fun h => ⟨h.1, h.2.1⟩

theorem uses_expandTemplates (sts : Obj .statefulSet) (des cur : List Quantity)
    (pvcs : List (Obj .persistentVolumeClaim × Quantity)) :
    (expandTemplates sts des cur pvcs).Uses (Request.Within (expandsSet sts.key)) := by
  induction des generalizing cur pvcs with
  | nil => trivial
  | cons desired des ih =>
      cases cur with
      | nil => trivial
      | cons current cur =>
          refine Uses.bind ?_ fun pvcs => ih cur pvcs
          have hpatch : (patchClaims desired pvcs).Uses (Request.Within (expandsSet sts.key)) :=
            (uses_patchClaims desired pvcs).mono fun r hr => hr.mono fun _ _ _ h => .inr h
          unfold expandTemplate
          split_ifs
          · simp
          · refine Uses.bind (by simp [expandsSet]) fun answer => ?_
            exact Uses.bind (by simp) fun _ => hpatch
          · exact hpatch

theorem uses_expandClaims (nodeSpec : DruidNodeSpec) (sts : Obj .statefulSet)
    (pvcList : List (Obj .persistentVolumeClaim)) :
    (expandClaims nodeSpec sts pvcList).Uses (Request.Within (expandsSet sts.key)) := by
  simp only [expandClaims]
  split_ifs
  · trivial
  · exact uses_expandTemplates sts _ _ _

theorem uses_scalePVCForSts (nodeSpec : DruidNodeSpec) (uniqueStr : String) (drd : Druid) :
    (scalePVCForSts nodeSpec uniqueStr drd).Uses (Request.Within expands) := by
  unfold scalePVCForSts
  refine (reads_listObjs _ _ _).bind fun answer => ?_
  cases answer with
  | error err => trivial
  | ok getSTSList =>
      dsimp only
      split_ifs
      · refine (reads_getObj _ _ _).bind fun answer => ?_
        cases answer with
        | error err => trivial
        | ok sts =>
            refine (reads_listObjs _ _ _).bind fun answer => ?_
            cases answer with
            | error err => trivial
            | ok pvcList =>
                exact (uses_expandClaims nodeSpec sts pvcList).mono fun r hr =>
                  hr.mono expands_of_expandsSet
      · trivial

theorem uses_isVolumeExpansionEnabled (m : Druid)
    (templates : List (Object PersistentVolumeClaim)) :
    (isVolumeExpansionEnabled m templates).Uses (Request.Within A) := by
  cases templates with
  | nil => trivial
  | cons nodeVCT rest =>
      unfold isVolumeExpansionEnabled
      split
      · trivial
      · refine (reads_getObj _ _ _).bind fun answer => Uses.bind (by simp) fun sc => ?_
        simp [differsFromBoolFalse]

theorem uses_expandIfAsked (nodeSpec : DruidNodeSpec) (uniqueStr : String) (m : Druid) :
    (expandIfAsked nodeSpec uniqueStr m).Uses (Request.Within expands) := by
  unfold expandIfAsked
  split_ifs
  · refine (uses_isVolumeExpansionEnabled m _).bind fun isEnabled => ?_
    split_ifs
    · exact uses_scalePVCForSts nodeSpec uniqueStr m
    · trivial
  · trivial

/-- The check for crashing pods deletes pods. -/
def deletesKind (k : Kind) : Verb → Kind → String × String → Prop :=
  fun v k' _ => v = .delete ∧ k' = k

theorem uses_checkPod (p : Obj .pod) : (checkPod p).Uses (Request.Within (deletesKind .pod)) := by
  have hdelete : (do orReturn (← deleteObj .pod p false) : Code Unit).Uses
      (Request.Within (deletesKind .pod)) :=
    Uses.bind (by simp [deletesKind]) fun _ => by simp
  unfold checkPod
  split_ifs
  · exact hdelete
  · refine Uses.forEach fun condition _ => ?_
    split_ifs
    · refine Uses.forEach fun containerStatus _ => ?_
      split_ifs
      · exact hdelete
      · trivial
    · trivial

theorem uses_execCheckCrashStatus (nodeSpec : DruidNodeSpec) (m : Druid) (uniqueStr : String) :
    (execCheckCrashStatus nodeSpec m uniqueStr).Uses (Request.Within (deletesKind .pod)) := by
  unfold execCheckCrashStatus
  split_ifs
  · refine Uses.bind (Uses.attempt ?_) fun _ => trivial
    unfold checkCrashStatus
    refine (reads_listObjs _ _ _).bind fun answer => Uses.bind (by simp) fun podList => ?_
    exact Uses.forEach fun p _ => uses_checkPod p
  · trivial

theorem uses_whenDeployed {uniqueStr : String} {drd : Druid} {rest : Code Bool}
    (hrest : rest.Uses (Request.Within A)) :
    (whenDeployed k uniqueStr drd rest).Uses (Request.Within A) := by
  unfold whenDeployed isObjFullyDeployed
  refine Uses.bind ((reads_getObj _ _ _).bind fun answer => ?_) fun done => ?_
  · cases answer <;> trivial
  · obtain ⟨done, err⟩ := done
    cases done with
    | true => exact hrest
    | false => cases err <;> trivial

theorem uses_afterDeployment (uniqueStr : String) (m : Druid) (status : DruidNodeStatus) :
    (afterDeployment uniqueStr m status).Uses (Request.Within A) := by
  unfold afterDeployment
  split_ifs
  · trivial
  · exact uses_whenDeployed trivial
  · trivial
  · trivial

theorem uses_thenCheckCrash (nodeSpec : DruidNodeSpec) (uniqueStr : String) (m : Druid) :
    (thenCheckCrash nodeSpec uniqueStr m).Uses (Request.Within (deletesKind .pod)) :=
  (uses_execCheckCrashStatus nodeSpec m uniqueStr).bind fun _ => trivial

theorem uses_afterStatefulSet (nodeSpec : DruidNodeSpec) (uniqueStr : String) (m : Druid)
    (status : DruidNodeStatus) :
    (afterStatefulSet nodeSpec uniqueStr m status).Uses (Request.Within (deletesKind .pod)) := by
  unfold afterStatefulSet
  split_ifs
  · trivial
  · exact (uses_execCheckCrashStatus nodeSpec m uniqueStr).bind fun _ =>
      uses_whenDeployed (uses_thenCheckCrash nodeSpec uniqueStr m)
  · exact (uses_execCheckCrashStatus nodeSpec m uniqueStr).bind fun _ =>
      uses_thenCheckCrash nodeSpec uniqueStr m
  · exact uses_thenCheckCrash nodeSpec uniqueStr m

/-- Deploying a workload writes the one workload; expansion and the check for crashing pods come
with StatefulSets. -/
def deploysWorkload (k : Kind) (key : String × String) : Verb → Kind → String × String → Prop :=
  fun v k' key' => applies k key v k' key' ∨ expands v k' key' ∨ deletesKind .pod v k' key'

theorem plannedStatefulSet_key (hash : Hash) (commonConfigSHA : String) (m : Druid)
    (g : ServiceGroup) :
    (plannedStatefulSet hash commonConfigSHA m g).key = (m.ns, groupName m g) := by
  rw [← (sameIdentity_afterServices hash m g).ns_eq]
  rfl

theorem plannedDeployment_key {hash : Hash} {commonConfigSHA : String} {m : Druid}
    {g : ServiceGroup} {obj : Obj .deployment}
    (h : plannedDeployment hash commonConfigSHA m g = .ok obj) :
    obj.key = (m.ns, groupName m g) := by
  obtain ⟨made, hmade, rfl⟩ := plannedDeployment_made h
  rw [← (sameIdentity_afterServices hash m g).ns_eq]
  exact (prepare_key _ _ made).trans (makeDeployment_key hmade)

theorem uses_applyWorkload (hash : Hash) (commonConfigSHA : String) (m : Druid)
    (g : ServiceGroup) :
    (applyWorkload hash commonConfigSHA m g).Uses
      (Request.Within (deploysWorkload (workloadKind g.spec) (m.ns, groupName m g))) := by
  unfold applyWorkload workloadKind
  split_ifs
  · split
    · trivial
    · next obj hobj =>
        refine Uses.bind ?_ fun _ => uses_afterDeployment _ _ _
        refine (uses_createOrUpdate (fun _ _ => rfl) obj).mono fun r hr => hr.mono ?_
        rw [plannedDeployment_key hobj]
        exact fun _ _ _ h => .inl h
  · refine ((uses_expandIfAsked _ _ _).mono fun r hr => hr.mono ?_).bind fun _ => ?_
    · exact fun _ _ _ h => .inr (.inl h)
    · refine Uses.bind ?_ fun _ => (uses_afterStatefulSet _ _ _ _).mono fun r hr => hr.mono ?_
      · refine (uses_createOrUpdate (fun _ _ => rfl) _).mono fun r hr => hr.mono ?_
        rw [plannedStatefulSet_key]
        exact fun _ _ _ h => .inl h
      · exact fun _ _ _ h => .inr (.inr h)

/-! ## A whole group -/

/-- The kinds applied after the workload. -/
def appliesRest : Verb → Kind → String × String → Prop :=
  fun v k _ => (v = .create ∨ v = .update) ∧ (k = .ingress ∨ k = .podDisruptionBudget ∨
    k = .horizontalPodAutoscaler ∨ k = .persistentVolumeClaim)

theorem uses_applyRest (hash : Hash) (ls : StrMap) (m : Druid) (g : ServiceGroup) :
    (applyRest hash ls m g).Uses (Request.Within appliesRest) := by
  refine (uses_applyOption fun o _ v hv => ⟨hv, by simp⟩).bind fun _ => ?_
  refine (uses_applyOption fun o _ v hv => ⟨hv, by simp⟩).bind fun _ => ?_
  refine (uses_applyOption fun o _ v hv => ⟨hv, by simp⟩).bind fun _ => ?_
  refine Uses.forEach fun pvc _ => (uses_applyObj (fun _ _ => rfl) pvc).mono fun r hr => hr.mono ?_
  rintro v k' key' ⟨hv, rfl, -⟩
  exact ⟨hv, by simp⟩

theorem workloadKind_cases (nodeSpec : DruidNodeSpec) :
    workloadKind nodeSpec = .statefulSet ∨ workloadKind nodeSpec = .deployment := by
  unfold workloadKind
  split_ifs <;> simp

/-- What deploying one group writes: its workload under its own name, objects of the other kinds
of a group, and what volume expansion and the check for crashing pods delete. -/
def deploysNode (k : Kind) (key : String × String) : Verb → Kind → String × String → Prop :=
  fun v k' key' => deploysWorkload k key v k' key' ∨ appliesKind .configMap v k' key' ∨
    appliesKind .service v k' key' ∨ appliesRest v k' key'

theorem uses_applyGroup (hash : Hash) (ls : StrMap) (commonConfigSHA : String) (l : Loop)
    (g : ServiceGroup) :
    (applyGroup hash ls commonConfigSHA l g).Uses
      (Request.Within (deploysNode (workloadKind g.spec) (l.m.ns, groupName l.m g))) := by
  refine ((uses_applyObj (fun _ _ => rfl) _).mono fun r hr => hr.mono ?_).bind fun _ => ?_
  · exact fun v k key h => .inr (.inl (appliesKind_of_applies v k key h))
  refine Uses.bind (Uses.forEach fun svc _ => ?_) fun _ => ?_
  · refine (uses_applyObj keepClusterIP_key svc).mono fun r hr => hr.mono ?_
    exact fun v k key h => .inr (.inr (.inl (appliesKind_of_applies v k key h)))
  refine ((uses_applyWorkload _ _ _ _).mono fun r hr => hr.mono ?_).bind fun goOn => ?_
  · exact fun _ _ _ h => .inl h
  split_ifs
  · refine ((uses_applyRest _ _ _ _).mono fun r hr => hr.mono ?_).bind fun _ => trivial
    exact fun _ _ _ h => .inr (.inr (.inr h))
  · trivial

/-! ## Around the loop -/

theorem uses_makeCommonConfigMap (m : Druid) (ls : StrMap) :
    (makeCommonConfigMap m ls).Uses (Request.Within A) := by
  refine Uses.bind (by simp) fun data => Uses.bind ?_ fun data => trivial
  refine Uses.accumulate (fun data cmRef _ => ?_) data
  exact (reads_getObj _ _ _).bind fun answer => by cases answer <;> trivial

theorem yields_makeCommonConfigMap (m : Druid) (ls : StrMap) :
    (makeCommonConfigMap m ls).Yields fun obj => obj.key = (m.ns, commonConfigName m) :=
  (yields_true _).bind fun _ _ => (yields_true _).bind fun _ _ => rfl

theorem uses_applyCommonConfig (hash : Hash) (m : Druid) :
    (applyCommonConfig hash m).Uses
      (Request.Within (applies .configMap (m.ns, commonConfigName m))) := by
  refine (uses_makeCommonConfigMap m _).bind fun _ => ?_
  refine (uses_makeCommonConfigMap m _).bindYields (yields_makeCommonConfigMap m _)
    fun obj hobj => Uses.bind ?_ fun _ => trivial
  rw [← hobj]
  exact uses_createOrUpdate (fun _ _ => rfl) (prepare hash m obj)

/-- Patching the finalizers and the status of the resource. -/
def patchesCR (key : String × String) : Verb → Kind → String × String → Prop :=
  fun v k' key' => v = .patch ∧ k' = .druid ∧ key' = key

theorem uses_updateFinalizers (m : Druid) (decoding : Decoding := .same) :
    (updateFinalizers m decoding).Uses (Request.Within (patchesCR m.key)) := by
  unfold updateFinalizers
  split_ifs
  · exact Uses.bind (by simp [patchesCR]) fun _ => Uses.bind (by simp) fun _ => trivial
  · trivial

/-- Deleting the claims and the StatefulSets of a resource, and then updating it. -/
def finalizes (key : String × String) : Verb → Kind → String × String → Prop :=
  fun v k' key' => (v = .delete ∧ (k' = .statefulSet ∨ k' = .persistentVolumeClaim)) ∨
    (v = .update ∧ k' = .druid ∧ key' = key)

theorem uses_deleteAll (objs : List (Obj k)) :
    (deleteAll objs).Uses (Request.Within (deletesKind k)) :=
  Uses.forEach fun obj _ => Uses.bind (by simp [deletesKind]) fun _ => by simp

theorem uses_executeFinalizers (m : Druid) :
    (executeFinalizers m).Uses (Request.Within (finalizes m.key)) := by
  unfold executeFinalizers executePVCFinalizer
  split_ifs
  · refine (reads_listObjs _ _ _).bind fun answer => Uses.bind (by simp) fun pvcList => ?_
    refine (reads_listObjs _ _ _).bind fun answer => Uses.bind (by simp) fun stsList => ?_
    refine Uses.bind (Uses.bind ?_ fun _ => ?_) fun _ => ?_
    · refine (uses_deleteAll stsList).mono fun r hr => hr.mono ?_
      exact fun v k key h => .inl ⟨h.1, .inl h.2⟩
    · refine (uses_deleteAll pvcList).mono fun r hr => hr.mono ?_
      exact fun v k key h => .inl ⟨h.1, .inr h.2⟩
    · refine Uses.bind ?_ fun _ => by simp
      rw [uses_updateObj, Request.within_update]
      exact .inr ⟨rfl, rfl, rfl⟩
  · trivial
  · trivial

theorem uses_deleteUnusedResources (k : Kind) (drd : Druid) (names : List String)
    (selectorLabels : StrMap) :
    (deleteUnusedResources k drd names selectorLabels).Uses (Request.Within (deletesKind k)) := by
  unfold deleteUnusedResources
  refine (reads_listObjs _ _ _).bind fun answer => ?_
  cases answer with
  | error e => trivial
  | ok items =>
      refine Uses.accumulate (fun survivorNames s _ => ?_) []
      split_ifs
      · trivial
      · exact Uses.bind (by simp [deletesKind]) fun answer => by cases answer <;> trivial

theorem uses_druidClusterStatusPatcher (updatedStatus : DruidClusterStatus) (m : Druid) :
    (druidClusterStatusPatcher updatedStatus m).Uses (Request.Within (patchesCR m.key)) := by
  unfold druidClusterStatusPatcher
  split_ifs
  · exact Uses.bind (by simp [patchesCR]) fun _ => trivial
  · trivial

/-- Collecting unused objects of the seven kinds, and patching the status. -/
def collects (key : String × String) : Verb → Kind → String × String → Prop :=
  fun v k' key' => (v = .delete ∧ k' ≠ .persistentVolumeClaim ∧ k' ≠ .druid) ∨
    patchesCR key v k' key'

theorem uses_updateStatus (ls : StrMap) (l : Loop) :
    (updateStatus ls l).Uses (Request.Within (collects l.m.key)) := by
  have hgc : ∀ k : Kind, k ≠ .persistentVolumeClaim ∧ k ≠ .druid →
      (deleteUnusedResources k l.m (l.names k) ls).Uses (Request.Within (collects l.m.key)) := by
    intro k hk
    refine (uses_deleteUnusedResources _ _ _ _).mono fun r hr => hr.mono ?_
    rintro v k' key' ⟨hv, rfl⟩
    exact .inl ⟨hv, hk⟩
  unfold updateStatus
  refine (hgc .statefulSet (by decide)).bind fun _ => ?_
  refine (hgc .deployment (by decide)).bind fun _ => ?_
  refine (hgc .horizontalPodAutoscaler (by decide)).bind fun _ => ?_
  refine (hgc .ingress (by decide)).bind fun _ => ?_
  refine (hgc .podDisruptionBudget (by decide)).bind fun _ => ?_
  refine (hgc .service (by decide)).bind fun _ => ?_
  refine (hgc .configMap (by decide)).bind fun _ => ?_
  refine (reads_listObjs _ _ _).bind fun _ => ?_
  refine (uses_druidClusterStatusPatcher _ _).mono fun r hr => hr.mono ?_
  exact fun _ _ _ h => .inr h

/-- A pass over the claims. -/
def collectsClaims : Verb → Kind → String × String → Prop :=
  fun v k' _ => (v = .update ∨ v = .delete) ∧ k' = .persistentVolumeClaim

theorem uses_collectOrphans (m : Druid) :
    (collectOrphans m).Uses (Request.Within collectsClaims) := by
  unfold collectOrphans deleteOrphanPVC
  split_ifs
  · refine (reads_listObjs _ _ _).bind fun answer => Uses.bind (by simp) fun podList => ?_
    refine (reads_listObjs _ _ _).bind fun answer => Uses.bind (by simp) fun pvcList => ?_
    split_ifs
    · refine Uses.forEach fun pvc _ => (uses_collectPVC _ pvc).mono fun r hr => hr.mono ?_
      exact fun v k key h => ⟨h.1, h.2.1⟩
    · trivial
  · trivial

section Course

variable {σ : Type} {h : Handler sig σ}

/-! ## The course of one `createOrUpdate` -/

/-- The object as it is sent in an update. -/
def sent {k : Kind} (updaterFn : Obj k → Obj k → Obj k) (obj prev : Obj k) : Obj k :=
  updaterFn prev (obj.withResourceVersion prev.metadata.resourceVersion)

/-- The result of a write that was answered so. -/
def written (status : DruidNodeStatus) : Except Error Unit → Except Exit DruidNodeStatus
  | .ok _ => .ok status
  | .error e => .error (.error e)

/-- What `createOrUpdate` can come to: it stops at the answer to its first request, or at the
answer to the one write that follows it. -/
inductive Course {k : Kind} (h : Handler sig σ) (isEqualFn : Obj k → Obj k → Bool)
    (updaterFn : Obj k → Obj k → Obj k) (obj : Obj k) (s : σ) :
    Outcome sig σ Exit DruidNodeStatus → Prop where
  | getFailed (err : Error) (hget : (h (.get k obj.ns obj.name) s).1 = .error err)
      (hfound : err.notFound = false) (msg : String) :
      Course h isEqualFn updaterFn obj s ⟨.error (.error ⟨msg, false⟩),
        (h (.get k obj.ns obj.name) s).2, [⟨s, .get k obj.ns obj.name, .error err⟩]⟩
  | created (err : Error) (hget : (h (.get k obj.ns obj.name) s).1 = .error err)
      (hfound : err.notFound = true) (t : σ) (ht : (h (.get k obj.ns obj.name) s).2 = t)
      (answer : Except Error Unit) (hcreate : (h (.create k obj) t).1 = answer) :
      Course h isEqualFn updaterFn obj s ⟨written .resourceCreated answer, (h (.create k obj) t).2,
        [⟨s, .get k obj.ns obj.name, .error err⟩, ⟨t, .create k obj, answer⟩]⟩
  | unchanged (prev : Obj k) (hget : (h (.get k obj.ns obj.name) s).1 = .ok prev)
      (hhash : hashOf obj = hashOf prev) :
      Course h isEqualFn updaterFn obj s ⟨.ok .unchanged,
        (h (.get k obj.ns obj.name) s).2, [⟨s, .get k obj.ns obj.name, .ok prev⟩]⟩
  | updated (prev : Obj k) (hget : (h (.get k obj.ns obj.name) s).1 = .ok prev)
      (hhash : hashOf obj ≠ hashOf prev ∨ isEqualFn prev obj = false) (t : σ)
      (ht : (h (.get k obj.ns obj.name) s).2 = t)
      (answer : Except Error Unit)
        (hupdate : (h (.update k (sent updaterFn obj prev)) t).1 = answer) :
      Course h isEqualFn updaterFn obj s ⟨written .resourceUpdated answer,
        (h (.update k (sent updaterFn obj prev)) t).2,
        [⟨s, .get k obj.ns obj.name, .ok prev⟩, ⟨t, .update k (sent updaterFn obj prev), answer⟩]⟩

theorem exec_createOrUpdate (isEqualFn : Obj k → Obj k → Bool) (updaterFn : Obj k → Obj k → Obj k)
    (obj : Obj k) (s : σ) :
    Course h isEqualFn updaterFn obj s (exec h (createOrUpdate isEqualFn updaterFn obj) s) := by
  unfold createOrUpdate getObj createObj updateObj
  simp only [call_bind, ret_bind, exec_call]
  generalize hget : (h (.get k obj.ns obj.name) s).1 = answer
  cases answer with
  | error err =>
      dsimp only
      split_ifs with hfound
      · simp only [exec_call]
        generalize hcreate : (h (.create k obj) (h (.get k obj.ns obj.name) s).2).1 = answer
        cases answer with
        | ok u => exact .created err hget hfound _ rfl _ hcreate
        | error e => exact .created err hget hfound _ rfl _ hcreate
      · exact .getFailed err hget (by simpa using hfound) _
  | ok prev =>
      dsimp only
      split_ifs with hhash
      · simp only [exec_call]
        generalize hupdate : (h (.update k (updaterFn prev (Object.withResourceVersion obj
          prev.metadata.resourceVersion))) (h (.get k obj.ns obj.name) s).2).1 = answer
        cases answer with
        | ok u => exact .updated prev hget hhash _ rfl _ hupdate
        | error e => exact .updated prev hget hhash _ rfl _ hupdate
      · rw [not_or, not_not] at hhash
        exact .unchanged prev hget hhash.1

end Course

/-! ## An object applied by the API server -/

section Server

variable {env : Env} {w : World}

/-- What applying an object does to the cluster where no call fails. -/
inductive Applied {k : Kind} (isEqualFn : Obj k → Obj k → Bool) (updaterFn : Obj k → Obj k → Obj k)
    (obj : Obj k) (c : Cluster) : DruidNodeStatus → Cluster → Prop where
  | created (hstored : (c.store k).find? obj.key = none) :
      Applied isEqualFn updaterFn obj c .resourceCreated
        (c.modify k fun version t => t.insert (accepted obj version))
  | unchanged (prev : Obj k) (hstored : (c.store k).find? obj.key = some prev)
      (hhash : hashOf obj = hashOf prev) : Applied isEqualFn updaterFn obj c .unchanged c
  | updated (prev : Obj k) (hstored : (c.store k).find? obj.key = some prev)
      (hhash : hashOf obj ≠ hashOf prev ∨ isEqualFn prev obj = false) :
      Applied isEqualFn updaterFn obj c .resourceUpdated
        (c.modify k (Cluster.put k (Kube.updated k prev (sent updaterFn obj prev))))

theorem createOrUpdate_applied (henv : env.Alone) (hk : k ≠ .storageClass)
    (isEqualFn : Obj k → Obj k → Bool) (hkey : ∀ prev curr, (updaterFn prev curr).key = curr.key)
    (hversion : ∀ prev curr, (updaterFn prev curr).metadata.resourceVersion =
      curr.metadata.resourceVersion) (obj : Obj k) (hfault : env.fault w.calls = none)
    (hfault' : env.fault (w.calls + 1) = none) :
    ∃ status, (exec (serve env) (createOrUpdate isEqualFn updaterFn obj) w).res = .ok status ∧
      Applied isEqualFn updaterFn obj w.cluster status
        (exec (serve env) (createOrUpdate isEqualFn updaterFn obj) w).state.cluster := by
  have hfind : w.cluster.find? k obj.ns obj.name = (w.cluster.store k).find? obj.key := by
    rw [Cluster.find?, Cluster.scope, if_neg hk]
  have hserve := fun r => serve_alone (r := r) (w := ⟨w.cluster, w.calls + 1⟩) henv hfault'
  unfold createOrUpdate getObj createObj updateObj
  simp only [call_bind, ret_bind, exec_call]
  rw [serve_alone henv hfault, perform_read rfl, perform, hfind]
  cases hstored : (w.cluster.store k).find? obj.key with
  | none =>
      refine ⟨.resourceCreated, ?_⟩
      simp only [notFoundError, if_true, exec_call]
      rw [hserve, perform, hstored]
      exact ⟨rfl, .created hstored⟩
  | some prev =>
      by_cases hhash : hashOf obj ≠ hashOf prev ∨ isEqualFn prev obj = false
      · have hsent : (sent updaterFn obj prev).key = obj.key := hkey ..
        have hsame : (sent updaterFn obj prev).metadata.resourceVersion =
          prev.metadata.resourceVersion := hversion ..
        refine ⟨.resourceUpdated, ?_⟩
        have hupdate : serve env (.update k (updaterFn prev (Object.withResourceVersion obj
            prev.metadata.resourceVersion))) ⟨w.cluster, w.calls + 1⟩ =
            (.ok (), ⟨w.cluster.modify k (Cluster.put k
              (Kube.updated k prev (sent updaterFn obj prev))), w.calls + 1 + 1⟩) := by
          change serve env (.update k (sent updaterFn obj prev)) _ = _
          rw [hserve, perform, hsent]
          simp only [hstored]
          rw [if_neg fun h => h.2 hsame]
        simp only [if_pos hhash, exec_call, hupdate]
        exact ⟨rfl, .updated prev hstored hhash⟩
      · refine ⟨.unchanged, ?_⟩
        simp only [if_neg hhash]
        rw [not_or, not_not] at hhash
        exact ⟨rfl, .unchanged prev hstored hhash.1⟩

theorem createOrUpdate_ok (hgenuine : env.Genuine) {isEqualFn : Obj k → Obj k → Bool} {obj : Obj k}
    {status : DruidNodeStatus}
    (hres : (exec (serve env) (createOrUpdate isEqualFn updaterFn obj) w).res = .ok status) :
    env.fault w.calls = none ∧ (env.fault (w.calls + 1) = none ∨
      (exec (serve env) (createOrUpdate isEqualFn updaterFn obj) w).state.calls = w.calls + 1) := by
  have hcourse := exec_createOrUpdate (h := serve env) isEqualFn updaterFn obj w
  generalize exec (serve env) (createOrUpdate isEqualFn updaterFn obj) w = o at hcourse hres ⊢
  -- a call that fails is answered with the error of the failure
  have hfault : ∀ {r t f}, env.fault t.calls = some f →
      (serve env r t).1 = Response.fail r (perform env.clock r (env.seen t)).1 f.err :=
    fun h => serve_fault h _
  have hget : ∀ f, env.fault w.calls = some f →
      (serve env (.get k obj.ns obj.name) w).1 = .error f.err := fun f hf => hfault hf
  cases hcourse with
  | getFailed err hanswer hfound msg => cases hres
  | created err hanswer hfound t ht answer hcreate =>
      subst ht hcreate
      refine ⟨Option.eq_none_iff_forall_ne_some.2 fun f hf => ?_,
        .inl (Option.eq_none_iff_forall_ne_some.2 fun f hf => ?_)⟩
      · rw [hget f hf] at hanswer
        cases hanswer
        rw [hgenuine _ f hf] at hfound
        cases hfound
      · rw [hfault (by rwa [serve_calls])] at hres
        cases hres
  | unchanged prev hanswer hhash =>
      refine ⟨Option.eq_none_iff_forall_ne_some.2 fun f hf => ?_, .inr (serve_calls ..)⟩
      rw [hget f hf] at hanswer
      cases hanswer
  | updated prev hanswer hhash t ht answer hupdate =>
      subst ht hupdate
      refine ⟨Option.eq_none_iff_forall_ne_some.2 fun f hf => ?_,
        .inl (Option.eq_none_iff_forall_ne_some.2 fun f hf => ?_)⟩
      · rw [hget f hf] at hanswer
        cases hanswer
      · rw [hfault (by rwa [serve_calls])] at hres
        cases hres

theorem noopUpdaterFn_key (prev curr : Obj k) :
    (noopUpdaterFn prev curr).key = curr.key := rfl

theorem noopUpdaterFn_version (prev curr : Obj k) :
    (noopUpdaterFn prev curr).metadata.resourceVersion = curr.metadata.resourceVersion := rfl

end Server

end DruidOperator.Controller
