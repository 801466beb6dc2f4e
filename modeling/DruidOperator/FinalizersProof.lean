import DruidOperator.ExtraConfig

/-!
# Deleting a `Druid` resource

A reconcile of a resource that is being deleted goes through validation, the common ConfigMap and
its own flag before it comes to the finalizer. `finalised_iff` says exactly when it gets there.
-/

namespace DruidOperator.Controller

open Interaction Prog Kube

variable {env : Env} {w : World}

variable {m : Druid} {c : Cluster}

/-! ## Applying the common ConfigMap -/

theorem applyCommonConfig_ok (henv : env.Alone) (hgenuine : env.Genuine) {hash : Hash}
    {common : String × String}
    (hres : (exec (serve env) (applyCommonConfig hash m) w).res = .ok common) :
    (∃ data, commonConfigData m = .ok data) ∧ env.fault (commonCall m w) = none ∧
      (env.fault (commonCall m w + 1) = none ∨
        (exec (serve env) (applyCommonConfig hash m) w).state.calls = commonCall m w + 1) := by
  cases hdata : commonConfigData m with
  | error e =>
      rw [applyCommonConfig_no_data _ hdata] at hres
      cases hres
  | ok data =>
      obtain ⟨reads, -, hrun⟩ := exec_applyCommonConfig henv hash hdata w
      rw [hrun, applyMade] at hres ⊢
      refine ⟨⟨data, rfl⟩, ?_⟩
      cases happly : (exec (serve env) (createOrUpdate alwaysTrueIsEqualsFn noopUpdaterFn
          (plannedCommon hash m (writtenData env m w data))) ⟨w.cluster, commonCall m w⟩).res with
      | error e => simp [exec_bind_error happly] at hres
      | ok status =>
          rw [exec_bind_ok happly]
          exact createOrUpdate_ok hgenuine happly

theorem applyCommonConfig_served (henv : env.Alone) (hash : Hash) {data : StrMap}
    (hdata : commonConfigData m = .ok data) (hfault : env.fault (commonCall m w) = none)
    (hfault' : env.fault (commonCall m w + 1) = none) :
    ∃ common, (exec (serve env) (applyCommonConfig hash m) w).res = .ok common := by
  obtain ⟨reads, -, hrun⟩ := exec_applyCommonConfig henv hash hdata w
  obtain ⟨status, happly, -⟩ := createOrUpdate_applied (w := ⟨w.cluster, commonCall m w⟩) henv
    (by decide) alwaysTrueIsEqualsFn noopUpdaterFn_key noopUpdaterFn_version
    (plannedCommon hash m (writtenData env m w data)) hfault hfault'
  rw [hrun, applyMade, exec_bind_ok happly]
  exact ⟨_, rfl⟩

/-! ## The finalizer -/

theorem deleteAll_cons {k : Kind} (obj : Obj k) (objs : List (Obj k)) :
    deleteAll (obj :: objs) =
      .call (.delete k obj false) fun answer => orReturn answer >>= fun _ => deleteAll objs := rfl

theorem deleteAll_served (henv : env.Alone) {k : Kind} {objs : List (Obj k)}
    (hnodup : (objs.map Object.key).Nodup)
    (hstored : ∀ o ∈ objs, (w.cluster.store k).find? o.key ≠ none)
    (hserved : ∀ e ∈ (exec (serve env) (deleteAll objs) w).steps, env.fault e.pre.calls = none) :
    (exec (serve env) (deleteAll objs) w).res = .ok () ∧
      ∀ key, ((exec (serve env) (deleteAll objs) w).state.cluster.store k).find? key =
        if key ∈ objs.map Object.key then none else (w.cluster.store k).find? key := by
  induction objs generalizing w with
  | nil => exact ⟨rfl, fun key => (if_neg List.not_mem_nil).symm⟩
  | cons obj objs ih =>
      rw [List.map_cons, List.nodup_cons] at hnodup
      obtain ⟨stored, hfind⟩ := Option.ne_none_iff_exists'.1 (hstored obj List.mem_cons_self)
      rw [deleteAll_cons, exec_call] at hserved ⊢
      have hdelete : serve env (.delete k obj false) w = (.ok (),
          ⟨w.cluster.modify k fun _ t => t.erase obj.key, w.calls + 1⟩) := by
        rw [serve_alone henv (hserved _ List.mem_cons_self), perform]
        simp only [hfind]
      rw [hdelete] at hserved ⊢
      have herase : ∀ key, ((w.cluster.modify k fun _ t => t.erase obj.key).store k).find? key =
          if obj.key = key then none else (w.cluster.store k).find? key := by
        intro key
        rw [Cluster.modify_store_self, Table.find?_erase]
      have hrest : ∀ o ∈ objs, ((w.cluster.modify k fun _ t => t.erase obj.key).store k).find?
          o.key ≠ none := by
        intro o ho
        have hne : obj.key ≠ o.key := fun hkey => hnodup.1 (hkey ▸ List.mem_map_of_mem ho)
        rw [herase, if_neg hne]
        exact hstored o (List.mem_cons_of_mem _ ho)
      obtain ⟨hres, hfinal⟩ :=
        ih (w := ⟨w.cluster.modify k fun _ t => t.erase obj.key, w.calls + 1⟩)
        hnodup.2 hrest (fun e he => hserved e (List.mem_cons_of_mem _ he))
      refine ⟨hres, fun key => (hfinal key).trans ?_⟩
      rw [herase, List.map_cons]
      by_cases hkey : obj.key = key
      · simp [hkey]
      · simp [hkey, Ne.symm hkey]

/-- The calls of the finalizer path. -/
def FinalizerCall : Request → Prop
  | .list _ _ _ => True
  | .delete _ _ _ => True
  | .update .druid _ => True
  | _ => False

/-- What deletion is to come to. -/
structure Finalised (m : Druid) (c c' : Cluster) : Prop where
  /-- The stored resource, if it is still there, has lost the finalizer. -/
  removed : ∀ stored, (c'.store .druid).find? m.key = some stored →
    deletePVCFinalizerName ∉ stored.metadata.finalizers
  statefulSets : m.spec.disablePVCDeletionFinalizer = false →
    ∀ sts ∈ c.listed .statefulSet m.ns (makeLabelsForDruid m),
      (c'.store .statefulSet).find? sts.key = none
  claims : m.spec.disablePVCDeletionFinalizer = false →
    ∀ pvc ∈ c.listed .persistentVolumeClaim m.ns (Finmap.singleton "druid_cr" m.name),
      (c'.store .persistentVolumeClaim).find? pvc.key = none
  kept : m.spec.disablePVCDeletionFinalizer = true →
    c'.store .persistentVolumeClaim = c.store .persistentVolumeClaim

theorem put_withFinalizers {t : Store .druid} {version : ℕ} {finalizers : List String}
    (hstored : t.find? m.key = some m) {stored : Druid}
    (hfind : (Cluster.put .druid (Kube.updated .druid m (withFinalizers m finalizers)) version
      t).find? m.key = some stored) : stored.metadata.finalizers = finalizers := by
  unfold Cluster.put at hfind
  split_ifs at hfind
  · rw [Table.find?_erase, if_pos (by exact rfl)] at hfind
    cases hfind
  · have hold : t.find? (Object.key (Kube.updated .druid m (withFinalizers m finalizers))) ≠ none :=
      fun h => by
        rw [show Object.key (Kube.updated .druid m (withFinalizers m finalizers)) = m.key from rfl,
          hstored] at h
        cases h
    rw [Table.find?_replace (by exact hold), if_pos (by exact rfl)] at hfind
    cases hfind
    rfl

/-- What comes after the two lists. -/
def deleteThenRelease (m : Druid) (pvcList : List (Obj .persistentVolumeClaim))
    (stsList : List (Obj .statefulSet)) : Code Unit :=
  deleteAll stsList >>= fun _ => deleteAll pvcList >>= fun _ =>
    .call (.update .druid (withFinalizers m
      (removeString m.metadata.finalizers deletePVCFinalizerName))) orReturn

theorem executePVCFinalizer_eq (hfin : deletePVCFinalizerName ∈ m.metadata.finalizers) :
    executePVCFinalizer m =
      .call (.list .persistentVolumeClaim m.ns (Finmap.singleton "druid_cr" m.name)) fun claims =>
        orReturn claims >>= fun pvcList =>
          .call (.list .statefulSet m.ns (makeLabelsForDruid m)) fun sets =>
            orReturn sets >>= fun stsList => deleteThenRelease m pvcList stsList := by
  rw [executePVCFinalizer, if_pos hfin]
  unfold listObjs updateObj
  simp only [call_bind, ret_bind]
  congr 1
  funext claims
  refine bind_congr fun pvcList => ?_
  congr 1
  funext sets
  refine bind_congr fun stsList => ?_
  rw [deleteSTSAndPVC, Prog.bind_assoc]
  rfl

/-- The update goes through, since the resource is still the one that was read. -/
theorem release_served (henv : env.Alone) (hstored : (w.cluster.store .druid).find? m.key = some m)
    {finalizers : List String}
    (hserved : ∀ e ∈ (exec (serve env) (.call (.update .druid (withFinalizers m finalizers))
      orReturn : Code Unit) w).steps, env.fault e.pre.calls = none) :
    (exec (serve env) (.call (.update .druid (withFinalizers m finalizers)) orReturn : Code Unit)
      w).state.cluster = w.cluster.modify .druid
        (Cluster.put .druid (Kube.updated .druid m (withFinalizers m finalizers))) := by
  have hfault : env.fault w.calls = none :=
    hserved ⟨w, .update .druid (withFinalizers m finalizers), _⟩ List.mem_cons_self
  have hfind : (w.cluster.store .druid).find? (Object.key (withFinalizers m finalizers)) = some m :=
    hstored
  rw [exec_call, serve_alone henv hfault, perform]
  simp only [hfind]
  rw [if_neg fun h => h.2 (by rfl)]
  rfl

theorem deleteThenRelease_served (henv : env.Alone)
    (hstored : (w.cluster.store .druid).find? m.key = some m)
    {pvcList : List (Obj .persistentVolumeClaim)} {stsList : List (Obj .statefulSet)}
    (hpvc : (pvcList.map Object.key).Nodup)
    (hpvc' : ∀ o ∈ pvcList, (w.cluster.store .persistentVolumeClaim).find? o.key ≠ none)
    (hsts : (stsList.map Object.key).Nodup)
    (hsts' : ∀ o ∈ stsList, (w.cluster.store .statefulSet).find? o.key ≠ none)
    (hserved : ∀ e ∈ (exec (serve env) (deleteThenRelease m pvcList stsList) w).steps,
      env.fault e.pre.calls = none)
    (hc : (exec (serve env) (deleteThenRelease m pvcList stsList) w).state.cluster = c) :
    (∀ stored, (c.store .druid).find? m.key = some stored →
        deletePVCFinalizerName ∉ stored.metadata.finalizers) ∧
      (∀ sts ∈ stsList, (c.store .statefulSet).find? sts.key = none) ∧
      ∀ pvc ∈ pvcList, (c.store .persistentVolumeClaim).find? pvc.key = none := by
  unfold deleteThenRelease at hserved hc
  obtain ⟨hres, hsets⟩ := deleteAll_served (w := w) henv hsts hsts'
    fun e he => hserved e ((exec_bind_begins ..).subset he)
  rw [exec_bind_ok hres] at hserved hc
  have hcr : (exec (serve env) (deleteAll stsList) w).state.cluster.store .druid =
      w.cluster.store .druid := exec_store henv (uses_deleteAll stsList) (by simp [deletesKind])
  have hclaim : (exec (serve env) (deleteAll stsList) w).state.cluster.store
      .persistentVolumeClaim =
      w.cluster.store .persistentVolumeClaim :=
    exec_store henv (uses_deleteAll stsList) (by simp [deletesKind])
  generalize (exec (serve env) (deleteAll stsList) w).state = w₁ at hserved hc hcr hclaim hsets
  obtain ⟨hres', hclaims⟩ := deleteAll_served (w := w₁) henv hpvc (by rwa [hclaim])
    fun e he => hserved e (List.mem_append_right _ ((exec_bind_begins ..).subset he))
  rw [exec_bind_ok hres'] at hserved hc
  have hcr' : (exec (serve env) (deleteAll pvcList) w₁).state.cluster.store .druid =
      w₁.cluster.store .druid := exec_store henv (uses_deleteAll pvcList) (by simp [deletesKind])
  have hset : (exec (serve env) (deleteAll pvcList) w₁).state.cluster.store .statefulSet =
      w₁.cluster.store .statefulSet :=
    exec_store henv (uses_deleteAll pvcList) (by simp [deletesKind])
  generalize (exec (serve env) (deleteAll pvcList) w₁).state = w₂ at hserved hc hcr' hset hclaims
  have hfound : (w₂.cluster.store .druid).find? m.key = some m := by rw [hcr', hcr, hstored]
  rw [release_served henv hfound fun e he =>
    hserved e (List.mem_append_right _ (List.mem_append_right _ he))] at hc
  subst hc
  refine ⟨fun stored hfind => ?_, fun sts hmem => ?_, fun pvc hmem => ?_⟩
  · rw [Cluster.modify_store_self] at hfind
    rw [put_withFinalizers hfound hfind]
    simp [removeString]
  · rw [Cluster.modify_store_of_ne _ _ (by decide), hset, hsets,
      if_pos (List.mem_map_of_mem hmem)]
  · rw [Cluster.modify_store_of_ne _ _ (by decide), hclaims, if_pos (List.mem_map_of_mem hmem)]

theorem executeFinalizers_calls (m : Druid) : (executeFinalizers m).Uses FinalizerCall := by
  unfold executeFinalizers
  split_ifs
  · by_cases hfin : deletePVCFinalizerName ∈ m.metadata.finalizers
    · rw [executePVCFinalizer_eq hfin]
      have hall : ∀ {k : Kind} (objs : List (Obj k)), (deleteAll objs).Uses FinalizerCall :=
        fun objs => Uses.forEach fun obj _ => Uses.bind ⟨trivial, fun _ => trivial⟩ fun _ => by simp
      refine ⟨trivial, fun claims => Uses.bind (by simp) fun pvcList => ?_⟩
      refine ⟨trivial, fun sets => Uses.bind (by simp) fun stsList => ?_⟩
      exact (hall stsList).bind fun _ => (hall pvcList).bind fun _ => ⟨trivial, fun _ => by simp⟩
    · rw [executePVCFinalizer, if_neg hfin]
      trivial
  · trivial

theorem exec_list (henv : env.Alone) {k : Kind} {ns : String} {selector : StrMap} {α : Type}
    {f : List (Obj k) → Code α} (hfault : env.fault w.calls = none) {o : Outcome sig World Exit α}
    (ho : exec (serve env) (f (w.cluster.listed k ns selector)) ⟨w.cluster, w.calls + 1⟩ = o) :
    exec (serve env) (.call (.list k ns selector) fun answer => orReturn answer >>= f) w =
      ⟨o.res, o.state,
        ⟨w, .list k ns selector, .ok (w.cluster.listed k ns selector)⟩ :: o.steps⟩ := by
  rw [exec_call, serve_alone henv hfault, ← ho]
  rfl

theorem executeFinalizers_first (hfin : deletePVCFinalizerName ∈ m.metadata.finalizers)
    (hflag : m.spec.disablePVCDeletionFinalizer = false)
    (hserved : ∀ e ∈ (exec (serve env) (executeFinalizers m) w).steps,
      env.fault e.pre.calls = none) : env.fault w.calls = none := by
  rw [executeFinalizers, if_pos hflag, executePVCFinalizer_eq hfin] at hserved
  exact hserved ⟨w, .list _ _ _, _⟩ List.mem_cons_self

/-- With all its calls served, the finalizer path deletes what it lists and releases the
resource. -/
theorem executeFinalizers_finalised (henv : env.Alone)
    (hfin : deletePVCFinalizerName ∈ m.metadata.finalizers)
    (hflag : m.spec.disablePVCDeletionFinalizer = false)
    (hstored : (w.cluster.store .druid).find? m.key = some m)
    (hserved : ∀ e ∈ (exec (serve env) (executeFinalizers m) w).steps,
      env.fault e.pre.calls = none) :
    Finalised m w.cluster (exec (serve env) (executeFinalizers m) w).state.cluster := by
  have hfault := executeFinalizers_first hfin hflag hserved
  rw [executeFinalizers, if_pos hflag, executePVCFinalizer_eq hfin] at hserved ⊢
  rw [exec_list henv hfault rfl] at hserved ⊢
  have hfault' : env.fault (w.calls + 1) = none :=
    hserved ⟨⟨w.cluster, w.calls + 1⟩, .list _ _ _, _⟩ (List.mem_cons_of_mem _ List.mem_cons_self)
  rw [exec_list (w := ⟨w.cluster, w.calls + 1⟩) henv hfault' rfl] at hserved ⊢
  have hstored' : ∀ {k : Kind} {ns : String} {selector : StrMap},
      ∀ o ∈ w.cluster.listed k ns selector, (w.cluster.store k).find? o.key ≠ none :=
    fun o ho => by rw [Cluster.stored_of_listed ho]; exact Option.some_ne_none o
  obtain ⟨hremoved, hsets, hclaims⟩ := deleteThenRelease_served
    (w := ⟨w.cluster, w.calls + 1 + 1⟩) henv hstored (Cluster.listed_nodup ..) hstored'
      (Cluster.listed_nodup ..)
    hstored' (fun e he => hserved e (List.mem_cons_of_mem _ (List.mem_cons_of_mem _ he))) rfl
  exact ⟨hremoved, fun _ => hsets, fun _ => hclaims, fun h => by rw [hflag] at h; cases h⟩

/-! ## The whole call -/

theorem not_finalised_of_kept {c' : Cluster} (finalizers : List String)
    (hkept : ((c'.store .druid).find? m.key).map (·.metadata.finalizers) = some finalizers)
    (hfin : deletePVCFinalizerName ∈ finalizers) : ¬ Finalised m c c' := by
  intro h
  obtain ⟨stored, hfind, rfl⟩ := Option.map_eq_some_iff.1 hkept
  exact h.removed stored hfind hfin

theorem not_finalised {c' : Cluster} (hfin : deletePVCFinalizerName ∈ m.metadata.finalizers)
    (hstored : (c.store .druid).find? m.key = some m) (hsame : c'.store .druid = c.store .druid) :
    ¬ Finalised m c c' :=
  not_finalised_of_kept _ (by rw [hsame, hstored]; rfl) hfin

/-- Only the StatefulSets and the claims matter of the cluster before. -/
theorem Finalised.congr {c₁ c' : Cluster} (h : Finalised m c₁ c')
    (hsets : c₁.store .statefulSet = c.store .statefulSet)
    (hclaims : c₁.store .persistentVolumeClaim = c.store .persistentVolumeClaim) :
    Finalised m c c' where
  removed := h.removed
  statefulSets hflag := by
    have := h.statefulSets hflag
    unfold Cluster.listed at this ⊢
    rwa [hsets] at this
  claims hflag := by
    have := h.claims hflag
    unfold Cluster.listed at this ⊢
    rwa [hclaims] at this
  kept hflag := (h.kept hflag).trans hclaims

/-- **When a deleted resource is finalised.** Let every List, Delete and Update call of the
finalizer path succeed. The call takes the finalizer off, having deleted what it should, exactly if
the spec passes validation, the files of the common ConfigMap can be made, that ConfigMap can be
read and written, and the resource does not disable the finalizer. -/
theorem finalised_iff (hash : Hash) (o : MapOrders) {m : Druid} (henv : env.Alone)
    (hgenuine : env.Genuine) (hdel : m.metadata.deletionTimestamp.isSome)
    (hfin : deletePVCFinalizerName ∈ m.metadata.finalizers)
    (hstored : (w.cluster.store .druid).find? m.key = some m)
    (hserved : ∀ e ∈ (exec (serve env) (deployDruidCluster hash o m) w).steps,
      FinalizerCall e.req → env.fault e.pre.calls = none) :
    Finalised m w.cluster (exec (serve env) (deployDruidCluster hash o m) w).state.cluster ↔
      verifyDruidSpec o m = .ok () ∧ (∃ data, commonConfigData m = .ok data) ∧
        env.fault (commonCall m w) = none ∧ env.fault (commonCall m w + 1) = none ∧
        m.spec.disablePVCDeletionFinalizer = false := by
  rw [deployDruidCluster_eq] at hserved ⊢
  have hcr : (exec (serve env) (applyCommonConfig hash m) w).state.cluster.store .druid =
      w.cluster.store .druid := exec_store henv (uses_applyCommonConfig hash m) (by simp [applies])
  cases hverify : verifyDruidSpec o m with
  | error e =>
      constructor
      · exact fun h => absurd h (not_finalised hfin hstored rfl)
      · exact fun h => by cases h.1
  | ok u =>
      simp only [hverify, if_pos hdel, true_and] at hserved ⊢
      cases hres : (exec (serve env) (applyCommonConfig hash m) w).res with
      | error e =>
          rw [exec_bind_error hres]
          refine ⟨fun h => absurd h (not_finalised hfin hstored hcr), ?_⟩
          rintro ⟨⟨data, hdata⟩, hfault, hfault', -⟩
          obtain ⟨common, hok⟩ := applyCommonConfig_served henv hash hdata hfault hfault'
          rw [hres] at hok
          cases hok
      | ok common =>
          obtain ⟨hdata, hfault, hlast⟩ := applyCommonConfig_ok henv hgenuine hres
          rw [exec_bind_ok hres] at hserved ⊢
          have hcalls := fun e he => hserved e (List.mem_append_right _ he)
            ((executeFinalizers_calls m).steps he)
          have hsets : (exec (serve env) (applyCommonConfig hash m) w).state.cluster.store
              .statefulSet = w.cluster.store .statefulSet :=
            exec_store henv (uses_applyCommonConfig hash m) (by simp [applies])
          have hclaims : (exec (serve env) (applyCommonConfig hash m) w).state.cluster.store
              .persistentVolumeClaim = w.cluster.store .persistentVolumeClaim :=
            exec_store henv (uses_applyCommonConfig hash m) (by simp [applies])
          generalize (exec (serve env) (applyCommonConfig hash m) w).state = w₁ at *
          cases hflag : m.spec.disablePVCDeletionFinalizer with
          | true =>
              have hskip : executeFinalizers m = .ret () := by simp [executeFinalizers, hflag]
              rw [hskip]
              refine ⟨fun h => absurd h (not_finalised hfin hstored hcr), fun h => by simp at h⟩
          | false =>
              have hdone := executeFinalizers_finalised henv hfin hflag
                  (by rw [hcr, hstored]) hcalls
              refine ⟨fun _ => ⟨hdata, hfault, ?_, rfl⟩, fun _ => hdone.congr hsets hclaims⟩
              -- where the ConfigMap was not written, the call after its read is the first list
              exact hlast.elim id fun hlast => hlast ▸ executeFinalizers_first hfin hflag hcalls

/-! ## A stuck resource -/

/-- A resource that is being deleted. -/
def terminating (spec : DruidSpec) : Druid where
  metadata := {
    name := "c"
    ns := "d"
    finalizers := [deletePVCFinalizerName]
    deletionTimestamp := some 0 }
  body := { spec := spec }

def brokerOnly : DruidSpec where
  image := "druid"
  nodes := ⟨[⟨"b", { nodeType := .broker, druidPort := 8082, replicas := 1 }⟩], by decide⟩

/-- The state in which a reconcile leaves the cluster when every call succeeds. -/
def afterDeletion (m : Druid) : Cluster :=
  (exec (serve {}) (deployDruidCluster (fun _ obj => obj.metadata.name) {} m)
    (storedAlone m)).state.cluster

theorem finalised_broker :
    Finalised (terminating brokerOnly) (storedAlone (terminating brokerOnly)).cluster
      (afterDeletion (terminating brokerOnly)) :=
  (finalised_iff (fun _ obj => obj.metadata.name) {} (fun _ _ => rfl)
    (fun _ _ hf => by cases hf) rfl List.mem_cons_self rfl (fun _ _ _ => rfl)).2
    ⟨by decide +kernel, ⟨_, rfl⟩, rfl, rfl, rfl⟩

/-- The finalizer stays where the flag was switched after it had been added, and where the spec
does not pass validation. -/
theorem finalizer_stuck :
    ¬ Finalised (terminating { brokerOnly with disablePVCDeletionFinalizer := true })
        (storedAlone (terminating { brokerOnly with disablePVCDeletionFinalizer := true })).cluster
        (afterDeletion (terminating { brokerOnly with disablePVCDeletionFinalizer := true })) ∧
      ¬ Finalised (terminating { brokerOnly with image := "" })
        (storedAlone (terminating { brokerOnly with image := "" })).cluster
        (afterDeletion (terminating { brokerOnly with image := "" })) :=
  ⟨not_finalised_of_kept [deletePVCFinalizerName] (by decide +kernel) List.mem_cons_self,
    not_finalised_of_kept [deletePVCFinalizerName] (by decide +kernel) List.mem_cons_self⟩

end DruidOperator.Controller
