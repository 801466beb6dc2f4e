import DruidOperator.GroupOrder
import DruidOperator.Workers

/-!
# Objects that are none of the operator's business

The operator shares its namespaces with everything else that is deployed there. It writes the
objects it generates, and it deletes and patches what it finds by two labels: `druid_cr`, with the
name of the resource, and `nodeSpecUniqueStr`, with the name of a group. This file shows that there
is no third way, over all interleavings of all workers.

* `Claimed` — the labels say that an object belongs to a resource.
* `NotGenerated` — the versions of the resource ask for no object of this kind and key.
* `usesIf_deployDruidCluster` — one call, as long as it is answered truly.
* `apart_untouched` — no worker of a resource writes an object that the resource neither generates
  nor claims.
* `bystander_untouched` — an object without the labels that no resource generates stays as it is.
-/

namespace DruidOperator.Controller

open Interaction Prog Kube Runs

/-- The labels say that the object belongs to the resource of this name. -/
def Claimed (name : String) (labels : Option StrMap) : Prop :=
  (labels.getD ∅).lookup "druid_cr" = some name ∨
    ∃ group, (labels.getD ∅).lookup "nodeSpecUniqueStr" = some ("druid-" ++ name ++ "-" ++ group)

/-- A call that read the node groups of `m`, and goes on with `updated`, gives no object of the kind
this name. -/
def Unnamed (hash : Hash) (m updated : Druid) (k : Kind) (name : String) : Prop :=
  (k = .configMap → name ≠ commonConfigName m) ∧
    ∀ g ∈ m.spec.nodes.items, name ∉ groupNames hash (makeLabelsForDruid m) updated g k

/-- The versions of a resource ask for no object of this kind and key: neither one of them, nor what
a worker that read one gets by decoding another into it. -/
def NotGenerated (hash : Hash) (decoding : Decoding) (versions : Set DruidSpec)
    (cr : String × String) (k : Kind) (key : String × String) : Prop :=
  key.1 = cr.1 → ∀ m : Druid, m.key = cr → m.spec ∈ versions → Unnamed hash m m k key.2 ∧
    ∀ answer : Druid, answer.key = cr → answer.spec ∈ versions →
      Unnamed hash m (decoding.into m answer) k key.2

/-- The request does not write the object. -/
def Spares (k : Kind) (key : String × String) (r : Request) : Prop :=
  ∀ v, r.write ≠ some (v, k, key)

/-- True answers to the resource `cr`: the object is not listed by the labels of the resource, what
is read under a key has this key, and of the resource one of its versions is seen. -/
def Answers (versions : Set DruidSpec) (cr : String × String) (k₀ : Kind) (key₀ : String × String) :
    (r : Request) → Response r → Prop
  | .list k ns ls, .ok items =>
      ns = cr.1 → Claimed cr.2 (some ls) → ∀ o ∈ items, k = k₀ → o.key ≠ key₀
  | .get .druid ns name, .ok m => (ns, name) = cr → m.key = cr ∧ m.spec ∈ versions
  | .get k ns name, .ok obj => k ≠ .storageClass → obj.key = (ns, name)
  | .patchFinalizers m _, .ok answer => m.key = cr → answer.key = cr ∧ answer.spec ∈ versions
  | _, _ => True

/-! ## Labels -/

theorem Claimed.of_matches {name : String} {ls : StrMap} {labels : Option StrMap}
    (h : Claimed name (some ls)) (hmatches : ls.Matches labels) : Claimed name labels := by
  rw [StrMap.matches_iff] at hmatches
  rcases h with hcr | ⟨group, hgroup⟩
  · exact .inl (hmatches _ _ hcr)
  · exact .inr ⟨group, hmatches _ _ hgroup⟩

theorem claimed_makeLabelsForDruid (m : Druid) : Claimed m.name (some (makeLabelsForDruid m)) := by
  refine .inl ?_
  show (makeLabelsForDruid m).lookup "druid_cr" = some m.name
  rw [makeLabelsForDruid, Finmap.lookup_insert_of_ne _ (by decide), Finmap.lookup_singleton_eq]

theorem claimed_singleton (name : String) :
    Claimed name (some (Finmap.singleton "druid_cr" name)) :=
  .inl (Finmap.lookup_singleton_eq ..)

theorem claimed_claimLabels (m : Druid) (g : ServiceGroup) :
    Claimed m.name (some (claimLabels (groupName m g))) :=
  .inr ⟨g.key, Finmap.lookup_singleton_eq ..⟩

theorem claimed_makeLabelsForNodeSpec (nodeSpec : DruidNodeSpec) (m : Druid)
    (name uniqueStr : String) :
    Claimed name (some (makeLabelsForNodeSpec nodeSpec m name uniqueStr)) := by
  refine .inl ?_
  show (makeLabelsForNodeSpec nodeSpec m name uniqueStr).lookup "druid_cr" = some name
  rw [makeLabelsForNodeSpec, Finmap.lookup_insert_of_ne _ (by decide),
    Finmap.lookup_insert_of_ne _ (by decide), Finmap.lookup_insert]

/-! ## Programs that spare the object -/

section Spares

variable {versions : Set DruidSpec} {k₀ : Kind} {key₀ : String × String}

theorem spares_of_within {A : Verb → Kind → String × String → Prop} {r : Request}
    (hr : r.Within A) (hA : ∀ v, ¬ A v k₀ key₀) : Spares k₀ key₀ r :=
  fun v hwrite => hA v (hr v k₀ key₀ hwrite)

theorem spares_of_uses {α : Type} {p : Code α} {A : Verb → Kind → String × String → Prop}
    (hp : p.Uses (Request.Within A)) (hA : ∀ v, ¬ A v k₀ key₀) : p.Uses (Spares k₀ key₀) :=
  hp.mono fun _ hr => spares_of_within hr hA

theorem spares_delete {k : Kind} {obj : Obj k} (orphan : Bool) (h : k = k₀ → obj.key ≠ key₀) :
    Spares k₀ key₀ (.delete k obj orphan) := by
  intro v hwrite
  simp only [Request.write, Option.some.injEq, Prod.mk.injEq] at hwrite
  exact h hwrite.2.1 hwrite.2.2

theorem spares_read {r : Request} (hr : r.write = none) : Spares k₀ key₀ r := by
  intro v hwrite
  rw [hr] at hwrite
  cases hwrite

theorem spares_createOrUpdate {k : Kind} (isEqualFn : Obj k → Obj k → Bool)
    {updaterFn : Obj k → Obj k → Obj k} (hkey : ∀ prev curr, (updaterFn prev curr).key = curr.key)
    {obj : Obj k} (h : k = k₀ → obj.key ≠ key₀) :
    (createOrUpdate isEqualFn updaterFn obj).Uses (Spares k₀ key₀) := by
  refine spares_of_uses (uses_createOrUpdate hkey obj) fun v hw => ?_
  exact h hw.2.1.symm hw.2.2.symm

theorem spares_applyObj {k : Kind} {updaterFn : Obj k → Obj k → Obj k}
    (hkey : ∀ prev curr, (updaterFn prev curr).key = curr.key) {obj : Obj k}
    (h : k = k₀ → obj.key ≠ key₀) : (applyObj updaterFn obj).Uses (Spares k₀ key₀) :=
  (spares_createOrUpdate _ hkey h).bind fun _ => trivial

theorem spares_applyOption {k : Kind} {obj : Option (Obj k)}
    (h : ∀ o ∈ obj, k = k₀ → o.key ≠ key₀) : (applyOption obj).Uses (Spares k₀ key₀) := by
  cases obj with
  | none => trivial
  | some o => exact spares_applyObj (fun _ _ => rfl) (h o rfl)

theorem spares_deleteAll {k : Kind} {objs : List (Obj k)} (h : ∀ o ∈ objs, k = k₀ → o.key ≠ key₀) :
    (deleteAll objs).Uses (Spares k₀ key₀) := by
  refine Uses.forEach fun o ho => Uses.bind ?_ fun _ => uses_orReturn _
  rw [uses_deleteObj]
  exact spares_delete false (h o ho)

/-! ### Volume expansion -/

theorem yields_setStorage_key (pvc : Obj .persistentVolumeClaim) (size : Quantity) :
    (setStorage pvc size).Yields fun resized => resized.key = pvc.key := by
  unfold setStorage
  split <;> trivial

theorem yields_patchClaims_keys (desired : Quantity)
    (pvcs : List (Obj .persistentVolumeClaim × Quantity)) :
    (patchClaims desired pvcs).Yields fun resized =>
      resized.map (fun p => p.1.key) = pvcs.map fun p => p.1.key := by
  induction pvcs with
  | nil => rfl
  | cons p rest ih =>
      obtain ⟨pvc, size⟩ := p
      rw [patchClaims]
      split_ifs
      · refine (yields_setStorage_key pvc desired).bind fun resized hkey =>
          (yields_true _).bind fun _ _ =>
          (yields_true _).bind fun _ _ => ih.bind fun resizedRest hrest => ?_
        simp [hkey, hrest]
      · refine ih.bind fun resizedRest hrest => ?_
        simp [hrest]

theorem spares_patchClaims (desired : Quantity)
    {pvcs : List (Obj .persistentVolumeClaim × Quantity)}
    (h : k₀ = .persistentVolumeClaim → key₀ ∉ pvcs.map fun p => p.1.key) :
    (patchClaims desired pvcs).Uses (Spares k₀ key₀) := by
  induction pvcs with
  | nil => trivial
  | cons p rest ih =>
      obtain ⟨pvc, size⟩ := p
      have hrest := ih fun hk hmem => h hk (List.mem_cons_of_mem _ hmem)
      rw [patchClaims]
      split_ifs
      · refine (uses_setStorage pvc desired).bindYields (yields_setStorage_key pvc desired)
          fun resized hkey => Uses.bind ?_ fun _ =>
            Uses.bind (uses_orReturn _) fun _ => hrest.bind fun _ => trivial
        rw [uses_patchClaim]
        intro v hwrite
        simp only [Request.write, Option.some.injEq, Prod.mk.injEq] at hwrite
        obtain ⟨-, hk, hkey₀⟩ := hwrite
        exact h hk.symm (List.mem_cons.2 (.inl (hkey₀.symm.trans hkey)))
      · exact hrest.bind fun _ => trivial

theorem spares_expandTemplates {sts : Obj .statefulSet} (hsts : k₀ = .statefulSet → sts.key ≠ key₀)
    (des cur : List Quantity) {pvcs : List (Obj .persistentVolumeClaim × Quantity)}
    (h : k₀ = .persistentVolumeClaim → key₀ ∉ pvcs.map fun p => p.1.key) :
    (expandTemplates sts des cur pvcs).Uses (Spares k₀ key₀) := by
  induction des generalizing cur pvcs with
  | nil => trivial
  | cons desired des ih =>
      cases cur with
      | nil => trivial
      | cons current cur =>
          have hclaims := spares_patchClaims desired h
          rw [expandTemplates]
          refine Uses.bindYields (R := fun resized : List (Obj .persistentVolumeClaim × Quantity) =>
            resized.map (fun p => p.1.key) = pvcs.map fun p => p.1.key) ?_ ?_
            fun resized hkeys => ih cur (by rwa [hkeys])
          · unfold expandTemplate
            split_ifs
            · trivial
            · refine Uses.bind ?_ fun _ => Uses.bind (uses_orReturn _) fun _ => hclaims
              rw [uses_deleteObj]
              exact spares_delete true fun hk => hsts hk.symm
            · exact hclaims
          · unfold expandTemplate
            split_ifs
            · trivial
            · exact (yields_true _).bind fun _ _ => (yields_true _).bind fun _ _ =>
                yields_patchClaims_keys desired pvcs
            · exact yields_patchClaims_keys desired pvcs

theorem spares_expandClaims (nodeSpec : DruidNodeSpec) {sts : Obj .statefulSet}
    (hsts : k₀ = .statefulSet → sts.key ≠ key₀) {pvcList : List (Obj .persistentVolumeClaim)}
    (h : k₀ = .persistentVolumeClaim → ∀ pvc ∈ pvcList, pvc.key ≠ key₀) :
    (expandClaims nodeSpec sts pvcList).Uses (Spares k₀ key₀) := by
  unfold expandClaims
  dsimp only
  split_ifs
  · trivial
  · refine spares_expandTemplates hsts _ _ fun hk hmem => ?_
    obtain ⟨p, hp, hkey⟩ := List.mem_map.1 hmem
    exact h hk p.1 (List.of_mem_zip hp).1 hkey

/-- Volume expansion touches the StatefulSet of the group and the claims that carry its name. -/
theorem usesIf_expandIfAsked (nodeSpec : DruidNodeSpec) {m : Druid} {g : ServiceGroup}
    (hname : k₀ = .statefulSet → (m.ns, groupName m g) ≠ key₀) :
    (expandIfAsked nodeSpec (groupName m g) m).UsesIf (Answers versions m.key k₀ key₀)
      (Spares k₀ key₀) := by
  unfold expandIfAsked expandStatefulSetVolumes
  split_ifs
  · refine UsesIf.bind ?_ fun isEnabled => ?_
    · exact (spares_of_uses (uses_isVolumeExpansionEnabled (A := fun _ _ _ => False) m _)
        fun _ h => h).usesIf
    · split_ifs
      · unfold scalePVCForSts listObjs getObj
        simp only [call_bind, ret_bind]
        refine ⟨spares_read rfl, fun answer _ => ?_⟩
        cases answer with
        | error err => trivial
        | ok getSTSList =>
            dsimp only
            split_ifs
            · refine ⟨spares_read rfl, fun answer hget => ?_⟩
              cases answer with
              | error err => trivial
              | ok sts =>
                  have hkey : sts.key = (m.ns, groupName m g) := hget (by decide)
                  refine ⟨spares_read rfl, fun answer hlist => ?_⟩
                  cases answer with
                  | error err => trivial
                  | ok pvcList =>
                      refine (spares_expandClaims nodeSpec (fun hk => hkey ▸ hname hk)
                        fun hk pvc hpvc => ?_).usesIf
                      exact hlist rfl (claimed_claimLabels m g) pvc hpvc hk.symm
            · trivial
      · trivial
  · trivial

/-! ### Crashing pods -/

theorem spares_checkPod {p : Obj .pod} (h : k₀ = .pod → p.key ≠ key₀) :
    (checkPod p).Uses (Spares k₀ key₀) := by
  have hdelete : (deleteObj .pod p false >>= orReturn : Code Unit).Uses (Spares k₀ key₀) := by
    refine Uses.bind ?_ fun _ => uses_orReturn _
    rw [uses_deleteObj]
    exact spares_delete false fun hk => h hk.symm
  unfold checkPod
  split_ifs
  · exact hdelete
  · refine Uses.forEach fun condition _ => ?_
    split_ifs
    · refine Uses.forEach fun containerStatus _ => ?_
      split_ifs
      · exact hdelete
      · trivial
    · trivial

theorem usesIf_execCheckCrashStatus (nodeSpec : DruidNodeSpec) (m : Druid)
    (uniqueStr : String) :
    (execCheckCrashStatus nodeSpec m uniqueStr).UsesIf (Answers versions m.key k₀ key₀)
      (Spares k₀ key₀) := by
  unfold execCheckCrashStatus
  split_ifs
  · refine UsesIf.bind (UsesIf.attempt ?_) fun _ => trivial
    unfold checkCrashStatus listObjs
    simp only [call_bind, ret_bind]
    refine ⟨spares_read rfl, fun answer hlist => ?_⟩
    cases answer with
    | error err => trivial
    | ok podList =>
        refine (Uses.forEach fun p hp => spares_checkPod fun hk => ?_).usesIf
        exact hlist rfl (claimed_makeLabelsForNodeSpec ..) p hp hk.symm
  · trivial

theorem usesIf_whenDeployed {A : (r : Request) → Response r → Prop} (k : Kind) (uniqueStr : String)
    (drd : Druid) {rest : Code Bool} (hrest : rest.UsesIf A (Spares k₀ key₀)) :
    (whenDeployed k uniqueStr drd rest).UsesIf A (Spares k₀ key₀) := by
  unfold whenDeployed isObjFullyDeployed getObj
  refine UsesIf.bind ?_ fun done => ?_
  · refine ⟨spares_read rfl, fun answer _ => ?_⟩
    cases answer <;> trivial
  · obtain ⟨done, err⟩ := done
    cases done with
    | true => exact hrest
    | false => cases err <;> trivial

theorem usesIf_afterStatefulSet (nodeSpec : DruidNodeSpec) (uniqueStr : String)
    (m : Druid) (status : DruidNodeStatus) :
    (afterStatefulSet nodeSpec uniqueStr m status).UsesIf (Answers versions m.key k₀ key₀)
      (Spares k₀ key₀) := by
  have hcheck : (execCheckCrashStatus nodeSpec m uniqueStr).UsesIf (Answers versions m.key k₀ key₀)
      (Spares k₀ key₀) := usesIf_execCheckCrashStatus nodeSpec m uniqueStr
  have hthen : (thenCheckCrash nodeSpec uniqueStr m).UsesIf (Answers versions m.key k₀ key₀)
      (Spares k₀ key₀) := hcheck.bind fun _ => trivial
  unfold afterStatefulSet
  split_ifs
  · trivial
  · exact hcheck.bind fun _ => usesIf_whenDeployed _ _ _ hthen
  · exact hcheck.bind fun _ => hthen
  · exact hthen

end Spares

/-! ## One group -/

section Group

variable {hash : Hash} {versions : Set DruidSpec} {k₀ : Kind} {key₀ : String × String}

theorem usesIf_applyWorkload (commonConfigSHA : String) {m : Druid} {g : ServiceGroup}
    (h : workloadKind g.spec = k₀ → (m.ns, groupName m g) ≠ key₀) :
    (applyWorkload hash commonConfigSHA m g).UsesIf (Answers versions m.key k₀ key₀)
      (Spares k₀ key₀) := by
  unfold applyWorkload
  by_cases hkind : g.spec.kind = "Deployment"
  · rw [workloadKind, if_pos hkind] at h
    rw [if_pos hkind]
    split
    · trivial
    · next obj hobj =>
        rw [← plannedDeployment_key hobj] at h
        refine UsesIf.bind (spares_createOrUpdate _ (fun _ _ => rfl) h).usesIf fun status => ?_
        exact (spares_of_uses (uses_afterDeployment (A := fun _ _ _ => False) _ _ status)
          fun _ hw => hw).usesIf
  · rw [workloadKind, if_neg hkind] at h
    rw [if_neg hkind]
    have hid := sameIdentity_afterServices hash m g
    have hid' := sameIdentity_afterGroup hash commonConfigSHA m g
    have hkey : (afterServices hash m g).key = m.key := Prod.ext hid.ns_eq hid.name_eq
    have hkey' : (afterGroup hash commonConfigSHA m g).key = m.key :=
      Prod.ext hid'.ns_eq hid'.name_eq
    have hexpand : (expandIfAsked (withDruidPort g.spec) (groupName (afterServices hash m g) g)
        (afterServices hash m g)).UsesIf (Answers versions (afterServices hash m g).key k₀ key₀)
        (Spares k₀ key₀) := by
      refine usesIf_expandIfAsked _ ?_
      rw [hid.ns_eq, groupName_congr hid.name_eq]
      exact fun hk => h hk.symm
    rw [hkey, groupName_congr hid.name_eq] at hexpand
    refine hexpand.bind fun _ => UsesIf.bind (spares_createOrUpdate _ (fun _ _ => rfl) ?_).usesIf
      fun status => ?_
    · rw [plannedStatefulSet_key]
      exact h
    · rw [← hkey']
      exact usesIf_afterStatefulSet _ _ _ status

/-- **A turn of the loop** writes what the group generates, and what the labels of the resource
claim. -/
theorem usesIf_applyGroup (ls : StrMap) (commonConfigSHA : String) {l : Loop} {g : ServiceGroup}
    (h : key₀.1 = l.m.ns → key₀.2 ∉ groupNames hash ls l.m g k₀) :
    (applyGroup hash ls commonConfigSHA l g).UsesIf (Answers versions l.m.key k₀ key₀)
      (Spares k₀ key₀) := by
  -- an object with a name of the group is another one
  have hother : ∀ {k : Kind} {obj : Obj k}, obj.ns = l.m.ns →
      obj.name ∈ groupNames hash ls l.m g k → k = k₀ → obj.key ≠ key₀ := by
    rintro k obj hns hname rfl rfl
    exact h hns hname
  have hns : ∀ {k : Kind} {obj : Obj k}, obj ∈ groupObjects hash commonConfigSHA ls l.m g k →
      obj.ns = l.m.ns := fun hobj => groupObjects_ns hash commonConfigSHA ls l.m g hobj
  have hworkload : workloadKind g.spec = k₀ → (l.m.ns, groupName l.m g) ≠ key₀ := by
    rintro hk rfl
    refine h rfl ?_
    rw [← hk]
    by_cases hkind : g.spec.kind = "Deployment" <;> simp [workloadKind, groupNames, hkind]
  unfold applyGroup
  refine UsesIf.bind ?_ fun _ => UsesIf.bind ?_ fun _ =>
    (usesIf_applyWorkload commonConfigSHA hworkload).bind fun goOn => ?_
  · exact (spares_applyObj (fun _ _ => rfl) (hother rfl (List.mem_singleton.2 rfl))).usesIf
  · refine (Uses.forEach fun svc hsvc => spares_applyObj keepClusterIP_key (hother ?_ ?_)).usesIf
    · exact hns (k := .service) hsvc
    · exact List.mem_map_of_mem hsvc
  · split_ifs
    · refine UsesIf.bind (Uses.usesIf ?_) fun _ => trivial
      refine (spares_applyOption fun o ho => hother (hns (k := .ingress) (Option.mem_toList.2 ho))
        (List.mem_map_of_mem (Option.mem_toList.2 ho))).bind fun _ => ?_
      refine (spares_applyOption fun o ho => hother
        (hns (k := .podDisruptionBudget) (Option.mem_toList.2 ho))
        (List.mem_map_of_mem (Option.mem_toList.2 ho))).bind fun _ => ?_
      refine (spares_applyOption fun o ho => hother
        (hns (k := .horizontalPodAutoscaler) (Option.mem_toList.2 ho))
        (List.mem_map_of_mem (Option.mem_toList.2 ho))).bind fun _ => ?_
      exact Uses.forEach fun pvc hpvc => spares_applyObj (fun _ _ => rfl)
        (hother (hns (k := .persistentVolumeClaim) hpvc) (List.mem_map_of_mem hpvc))
    · trivial

end Group

/-! ## The whole call -/

section Call

variable {hash : Hash} {versions : Set DruidSpec} {k₀ : Kind} {key₀ : String × String}

theorem usesIf_deleteUnusedResources (k : Kind) (drd : Druid) (names : List String) {ls : StrMap}
    (hls : Claimed drd.name (some ls)) :
    (deleteUnusedResources k drd names ls).UsesIf (Answers versions drd.key k₀ key₀)
      (Spares k₀ key₀) := by
  rw [deleteUnusedResources_eq]
  refine ⟨spares_read rfl, fun answer hlist => ?_⟩
  cases answer with
  | error err => trivial
  | ok items =>
      refine UsesIf.accumulate (fun survivorNames o ho => ?_) []
      unfold dropUnused
      split_ifs
      · trivial
      · refine ⟨spares_delete false (hlist rfl hls o ho), fun answer _ => ?_⟩
        cases answer <;> trivial

theorem usesIf_collectOrphans (m : Druid) :
    (collectOrphans m).UsesIf (Answers versions m.key k₀ key₀) (Spares k₀ key₀) := by
  unfold collectOrphans deleteOrphanPVC listObjs
  split_ifs
  · simp only [call_bind, ret_bind]
    refine ⟨spares_read rfl, fun answer _ => ?_⟩
    cases answer with
    | error err => trivial
    | ok podList =>
        simp only [orReturn_ok, ret_bind]
        refine ⟨spares_read rfl, fun answer hlist => ?_⟩
        cases answer with
        | error err => trivial
        | ok pvcList =>
            simp only [orReturn_ok, ret_bind]
            split_ifs
            · refine (Uses.forEach fun pvc hpvc => spares_of_uses (uses_collectPVC _ pvc) ?_).usesIf
              rintro v ⟨-, hk, hkey⟩
              exact hlist rfl (claimed_singleton m.name) pvc hpvc hk.symm hkey.symm
            · trivial
  · trivial

theorem spares_patchesCR {α : Type} {p : Code α} {cr : String × String}
    (hp : p.Uses (Request.Within (patchesCR cr))) (hcr : k₀ = .druid → key₀ ≠ cr) :
    p.Uses (Spares k₀ key₀) :=
  spares_of_uses hp fun _ hw => hcr hw.2.1 hw.2.2

theorem usesIf_finishDeploy {ls : StrMap} {l : Loop} (hls : Claimed l.m.name (some ls))
    (hcr : k₀ = .druid → key₀ ≠ l.m.key) :
    (finishDeploy ls l).UsesIf (Answers versions l.m.key k₀ key₀) (Spares k₀ key₀) := by
  unfold finishDeploy updateStatus
  refine (usesIf_collectOrphans l.m).bind fun _ => ?_
  iterate 7 refine (usesIf_deleteUnusedResources _ l.m _ hls).bind fun _ => ?_
  unfold listObjs
  simp only [call_bind, ret_bind]
  refine ⟨spares_read rfl, fun answer _ => ?_⟩
  exact (spares_patchesCR (uses_druidClusterStatusPatcher _ l.m) hcr).usesIf

theorem usesIf_executeFinalizers {m : Druid} (hcr : k₀ = .druid → key₀ ≠ m.key) :
    (executeFinalizers m).UsesIf (Answers versions m.key k₀ key₀) (Spares k₀ key₀) := by
  unfold executeFinalizers executePVCFinalizer listObjs
  split_ifs
  · simp only [call_bind, ret_bind]
    refine ⟨spares_read rfl, fun answer hclaims => ?_⟩
    cases answer with
    | error err => trivial
    | ok pvcList =>
        simp only [orReturn_ok, ret_bind]
        refine ⟨spares_read rfl, fun answer hsets => ?_⟩
        cases answer with
        | error err => trivial
        | ok stsList =>
            simp only [orReturn_ok, ret_bind]
            refine UsesIf.bind (Uses.usesIf (Uses.bind (spares_deleteAll ?_) fun _ =>
              spares_deleteAll ?_)) fun _ => Uses.usesIf (Uses.bind ?_ fun _ => uses_orReturn _)
            · exact hsets rfl (claimed_makeLabelsForDruid m)
            · exact hclaims rfl (claimed_singleton m.name)
            · rw [uses_updateObj]
              intro v hwrite
              simp only [Request.write, Option.some.injEq, Prod.mk.injEq] at hwrite
              exact hcr hwrite.2.1.symm hwrite.2.2.symm
  · trivial
  · trivial

theorem usesIf_loop (ls : StrMap) (commonConfigSHA : String) {m : Druid}
    {groups : List ServiceGroup}
    (h : ∀ g ∈ groups, key₀.1 = m.ns → key₀.2 ∉ groupNames hash ls m g k₀) {l : Loop}
    (hl : Shares m l.m) :
    (iterate (applyGroup hash ls commonConfigSHA) l groups).UsesIf (Answers versions m.key k₀ key₀)
      (Spares k₀ key₀) := by
  refine UsesIf.iterate (I := fun l : Loop => Shares m l.m) (fun l hl g hg => ⟨?_, ?_⟩) hl
  · have hkey : l.m.key = m.key := by
      obtain ⟨_, _, _, _, _, heq, -⟩ := hl
      rw [heq]
      rfl
    rw [← hkey]
    refine usesIf_applyGroup ls commonConfigSHA fun hns => ?_
    rw [groupNames_congr hl]
    exact h g hg (hns.trans (congrArg Prod.fst hkey))
  · refine (yields_applyGroup hash ls commonConfigSHA l g).mono fun x hx l' heq => ?_
    obtain ⟨-, rfl⟩ := hx l' heq
    exact hl.afterGroup hash commonConfigSHA g

theorem usesIf_loopThenFinish {o : MapOrders} (commonConfigSHA : String)
    (names : Kind → List String) {m updated : Druid} (hkey : updated.key = m.key)
    (h : key₀.1 = m.ns → Unnamed hash m updated k₀ key₀.2) (hcr : k₀ = .druid → key₀ ≠ m.key) :
    (loopThenFinish hash (makeLabelsForDruid m) commonConfigSHA ⟨updated, names⟩
      (getNodeSpecsByOrder o.groups m)).UsesIf (Answers versions m.key k₀ key₀)
        (Spares k₀ key₀) := by
  have hgroups : ∀ g ∈ getNodeSpecsByOrder o.groups m, key₀.1 = updated.ns →
      key₀.2 ∉ groupNames hash (makeLabelsForDruid m) updated g k₀ := by
    intro g hg hns
    exact (h (hns.trans (congrArg Prod.fst hkey))).2 g (mem_getNodeSpecsByOrder.1 hg).1
  have hloop : (iterate (applyGroup hash (makeLabelsForDruid m) commonConfigSHA) ⟨updated, names⟩
      (getNodeSpecsByOrder o.groups m)).UsesIf (Answers versions updated.key k₀ key₀)
        (Spares k₀ key₀) :=
    usesIf_loop _ commonConfigSHA hgroups (.refl _)
  rw [hkey, ← iterate_deployNode] at hloop
  refine UsesIf.bindYields hloop (Manager.yields_loop (m := m) _ _ _ hkey) fun x hx => ?_
  cases x with
  | none => trivial
  | some l =>
      have hkey := hx l rfl
      show (finishDeploy (makeLabelsForDruid m) l).UsesIf _ _
      rw [← hkey] at hcr ⊢
      refine usesIf_finishDeploy ?_ hcr
      rw [show l.m.name = m.name from congrArg Prod.snd hkey]
      exact claimed_makeLabelsForDruid m

variable {decoding : Decoding}

/-- **One call.** As long as it is answered truly, a call does not write an object that no version
of the resource generates or claims. -/
theorem usesIf_deployDruidCluster {o : MapOrders} {m : Druid} (hm : m.spec ∈ versions)
    (h : NotGenerated hash decoding versions m.key k₀ key₀) (hcr : k₀ = .druid → key₀ ≠ m.key) :
    (deployDruidCluster hash o m decoding).UsesIf (Answers versions m.key k₀ key₀)
      (Spares k₀ key₀) := by
  rw [deployDruidCluster_eq]
  split
  · trivial
  · refine UsesIf.bind (spares_of_uses (uses_applyCommonConfig hash m) ?_).usesIf fun common => ?_
    · rintro v ⟨-, rfl, rfl⟩
      exact (h rfl m rfl hm).1.1 rfl rfl
    split_ifs
    · exact usesIf_executeFinalizers hcr
    rw [deployNodes_eq]
    unfold updateFinalizers patchFinalizers
    split_ifs
    · simp only [call_bind, ret_bind]
      refine ⟨fun v hwrite => ?_, fun answer hanswer => ?_⟩
      · simp only [Request.write, Option.some.injEq, Prod.mk.injEq] at hwrite
        exact hcr hwrite.2.1.symm hwrite.2.2.symm
      cases answer with
      | error err => trivial
      | ok answer =>
          obtain ⟨hkey, hspec⟩ := hanswer rfl
          -- the finalizers make no difference to the names
          exact usesIf_loopThenFinish common.1 _ (decoding.key_eq _ _) (fun hns =>
            (h hns (withFinalizers m (desiredFinalizers m)) rfl hm).2 answer hkey hspec) hcr
    · exact usesIf_loopThenFinish common.1 _ rfl (fun hns => (h hns m rfl hm).1) hcr

/-- **One reconcile.** -/
theorem usesIf_reconcile (o : MapOrders) (dynamicConfigs : Except Error Unit) {cr : String × String}
    (h : NotGenerated hash decoding versions cr k₀ key₀) (hcr : k₀ = .druid → key₀ ≠ cr) :
    (reconcile hash o dynamicConfigs cr decoding).UsesIf (Answers versions cr k₀ key₀)
      (Spares k₀ key₀) := by
  rw [reconcile_eq]
  refine ⟨spares_read rfl, fun answer hget => ?_⟩
  cases answer with
  | error err =>
      dsimp only
      split_ifs <;> trivial
  | ok m =>
      obtain ⟨rfl, hm⟩ : m.key = cr ∧ m.spec ∈ versions := hget rfl
      refine (usesIf_deployDruidCluster hm h hcr).bind fun _ => ?_
      exact UsesIf.bind (uses_orReturn _).usesIf fun _ => trivial

end Call

/-! ## All workers -/

namespace Manager

/-- The object is none of the resource's: a version of the resource is stored, and the labels of the
object do not claim it for the resource. -/
structure Apart (versions : Set DruidSpec) (cr : String × String) (k : Kind) (key : String × String)
    (c : Cluster) : Prop where
  versions : ∀ m, (c.store .druid).find? cr = some m → m.spec ∈ versions
  labels : key.1 = cr.1 → ∀ obj, (c.store k).find? key = some obj →
    ¬ Claimed cr.2 obj.metadata.labels

section Workers

variable {hash : Hash} {denyList : List String} {decoding : Decoding} {cr : String × String}
  {k : Kind} {key : String × String} {c : Cluster}

/-- What is answered to a patch of the finalizers is the stored resource. -/
theorem answer_patchFinalizers {clock : Int} {fault : Option Fault} {m answer : Druid}
    {finalizers : List String}
    (h : Manager.answer clock fault (.patchFinalizers m finalizers) c = .ok answer) :
    ∃ stored, (c.store .druid).find? m.key = some stored ∧ answer.key = stored.key ∧
      answer.spec = stored.spec := by
  simp only [Manager.answer, serve, workerEnv, perform, Cluster.answered, Env.seen] at h
  cases fault with
  | some f =>
      simp only [Response.fail] at h
      cases h
  | none =>
      cases hstored : (c.store .druid).find? m.key with
      | none =>
          simp only [hstored] at h
          cases h
      | some stored =>
          simp only [hstored] at h
          cases h
          exact ⟨stored, rfl, rfl, rfl⟩

theorem Apart.answers {versions : Set DruidSpec} (h : Apart versions cr k key c) (clock : Int)
    (fault : Option Fault) (req : Request) :
    Answers versions cr k key req (answer clock fault req c) := by
  cases req with
  | list k' ns ls =>
      cases hlist : answer clock fault (.list k' ns ls) c with
      | error err => trivial
      | ok items =>
          rintro rfl hls o ho rfl rfl
          have hitems := eq_listed_of_list hlist
          rw [seen_alone (workerEnv_alone clock fault)] at hitems
          rw [hitems, Cluster.listed, List.mem_filter, decide_eq_true_eq] at ho
          refine h.labels ho.2.1 o ?_ (hls.of_matches ho.2.2)
          exact Table.find?_eq_some.2 ⟨ho.1, rfl⟩
  | get k' ns name =>
      cases hget : answer clock fault (.get k' ns name) c with
      | error err => cases k' <;> trivial
      | ok obj =>
          have hfound := find?_of_get hget
          rw [seen_alone (workerEnv_alone clock fault)] at hfound
          have hkey := (Table.find?_eq_some.1 hfound).2
          by_cases hdruid : k' = .druid
          · subst hdruid
            rintro rfl
            exact ⟨hkey, h.versions obj hfound⟩
          · have hscope : k' ≠ .storageClass → obj.key = (ns, name) := by
              intro hclass
              rw [hkey, Cluster.scope, if_neg hclass]
            cases k' <;> first | exact absurd rfl hdruid | exact hscope
  | patchFinalizers m finalizers =>
      cases hpatch : answer clock fault (.patchFinalizers m finalizers) c with
      | error err => trivial
      | ok answer =>
          rintro rfl
          obtain ⟨stored, hstored, hkey, hspec⟩ := answer_patchFinalizers hpatch
          exact ⟨hkey.trans (Table.find?_eq_some.1 hstored).2, hspec ▸ h.versions stored hstored⟩
  | _ => trivial

/-- **What is not a resource's is left alone by its workers.** As long as the stored versions of the
resource are among some that do not generate the object, and the resource does not claim it by its
labels, no reconcile of the resource writes it, whatever other workers, users and controllers do in
between. -/
theorem apart_untouched {versions : Set DruidSpec}
    (hversions : NotGenerated hash decoding versions cr k key) (hcr : k = .druid → key ≠ cr)
    {acts : List Action}
    (hacts : Meets (step hash denyList) (fun s a => Apart versions cr k key s.cluster ∧
      a.DecodesIn {decoding}) { cluster := c } acts) :
    Meets (step hash denyList) (Requests fun _ cr' req => cr' = cr → Spares k key req)
      { cluster := c } acts := by
  have hd : Discipline hash {decoding} (Apart versions cr k key) (fun _ _ => True)
      (fun _ cr' rest => cr' = cr → rest.UsesIf (Answers versions cr k key) (Spares k key))
      fun _ cr' req => cr' = cr → Spares k key req := by
    refine ⟨?_, ?_, ?_, ?_⟩
    · rintro c cr' o dynamicConfigs _ rfl - rfl
      exact usesIf_reconcile o dynamicConfigs hversions hcr
    · exact fun c cr' req rest hc hrest heq => (hrest heq).1
    · refine fun c cr' req rest clock fault hc hrest => ⟨trivial, fun heq => ?_⟩
      exact (hrest heq).2 _ (hc.answers clock fault req)
    · exact fun c c' cr' rest _ _ hrest => hrest
  exact hd.meets (hacts.imp fun s a _ ha => ⟨ha.1, ha.2, fun _ _ => trivial⟩)

/-- The tiers are deployed in one namespace, and a StatefulSet is in another. -/
theorem apart_untouched_tiers :
    Meets (step imageHash []) (Requests fun _ cr req =>
        cr = ("d", "c") → Spares .statefulSet ("e", "druid-c-hot") req) {}
      (.store (tieredCluster "v1") :: reconciled 50) := by
  have hversions : NotGenerated imageHash .same Set.univ ("d", "c") .statefulSet
      ("e", "druid-c-hot") :=
    fun hns => absurd hns (by decide)
  refine apart_untouched hversions (by decide) (meets_iff.2 fun before a after heq => ⟨?_, ?_⟩)
  · exact ⟨fun _ _ => trivial, fun hns => absurd hns (by decide)⟩
  · exact reconciled_same 50 (by simp [heq])

/-! ## Bystanders -/

/-- Neither of the two labels is there. -/
def Unlabelled (labels : Option StrMap) : Prop :=
  (labels.getD ∅).lookup "druid_cr" = none ∧ (labels.getD ∅).lookup "nodeSpecUniqueStr" = none

theorem Unlabelled.not_claimed {labels : Option StrMap} (h : Unlabelled labels) (name : String) :
    ¬ Claimed name labels := by
  rintro (hcr | ⟨group, hgroup⟩)
  · rw [h.1] at hcr
    cases hcr
  · rw [h.2] at hgroup
    cases hgroup

/-- Of every resource one of its versions is stored, and the object has none of the labels of the
operator. -/
structure Bystander (versions : String × String → Set DruidSpec) (k : Kind) (key : String × String)
    (c : Cluster) : Prop where
  versions : ∀ cr m, (c.store .druid).find? cr = some m → m.spec ∈ versions cr
  labels : ∀ obj, (c.store k).find? key = some obj → Unlabelled obj.metadata.labels

/-- Users store no other versions, and nobody gives the object one of the labels. -/
def KeepsOut (versions : String × String → Set DruidSpec) (k : Kind) (key : String × String)
    (s : State) : Action → Prop
  | .store cr => cr.spec ∈ versions cr.key
  | .outside change => ∀ obj, ((change s.cluster).store k).find? key = some obj →
      Unlabelled obj.metadata.labels
  | _ => True

/-- The step of a worker leaves the object as it is. -/
def WorkerLeaves (hash : Hash) (denyList : List String) (k : Kind) (key : String × String)
    (s : State) : Action → Prop
  | .advance i clock fault =>
      ((step hash denyList s (.advance i clock fault)).cluster.store k).find? key =
        (s.cluster.store k).find? key
  | _ => True

variable {versions : String × String → Set DruidSpec}

theorem Bystander.apart (h : Bystander versions k key c) (cr : String × String) :
    Apart (versions cr) cr k key c where
  versions := h.versions cr
  labels _ obj hobj := (h.labels obj hobj).not_claimed cr.2

/-- What a worker may send: no write of the object, and no other version of a resource. -/
structure Careful (versions : String × String → Set DruidSpec) (k : Kind) (key : String × String)
    (req : Request) : Prop where
  spares : Spares k key req
  create : ∀ obj, req ≠ .create .druid obj
  update : ∀ obj, req = .update .druid obj → obj.spec ∈ versions obj.key

theorem ne_of_read {req : Request} (hread : req.write = none) :
    (∀ obj, req ≠ .create .druid obj) ∧ ∀ obj, req ≠ .update .druid obj := by
  constructor
  · intro obj hreq
    rw [hreq] at hread
    cases hread
  · intro obj hreq
    rw [hreq] at hread
    cases hread

theorem usesIf_careful (hk : k ≠ .druid) (cr : String × String) (o : MapOrders)
    (h : NotGenerated hash decoding (versions cr) cr k key) (dynamicConfigs : Except Error Unit) :
    (reconcile hash o dynamicConfigs cr decoding).UsesIf (Answers (versions cr) cr k key)
      (Careful versions k key) := by
  -- the second half: resources are written as they were read
  have hupdates : (reconcile hash o dynamicConfigs cr decoding).UsesIf
      (Answers (versions cr) cr k key) fun req : Request => (∀ obj, req ≠ .create .druid obj) ∧
        ∀ obj, req = .update .druid obj → obj.spec ∈ versions obj.key := by
    rw [reconcile_eq]
    obtain ⟨hcreate, hupdate⟩ := @ne_of_read (.get .druid cr.1 cr.2) rfl
    refine ⟨⟨hcreate, fun obj h => absurd h (hupdate obj)⟩, fun answer hget => ?_⟩
    cases answer with
    | error err =>
        dsimp only
        split_ifs <;> trivial
    | ok m =>
        obtain ⟨rfl, hm⟩ : m.key = cr ∧ m.spec ∈ versions cr := hget rfl
        refine UsesIf.bind (((polite_deployDruidCluster hash o m decoding).mono
          fun req hreq => ?_).usesIf) fun _ => UsesIf.bind (uses_orReturn _).usesIf fun _ => trivial
        refine ⟨hreq.ne_create, fun obj hobj => ?_⟩
        obtain ⟨-, finalizers, rfl⟩ := hreq.update obj hobj
        exact hm
  refine ((usesIf_reconcile o dynamicConfigs h fun h => absurd h hk).and hupdates).mono
    fun req hreq => ?_
  exact ⟨hreq.1, hreq.2.1, hreq.2.2⟩

theorem Careful.find?_eq {req : Request} (hreq : Careful versions k key req) (clock : Int)
    (fault : Option Fault) (c : Cluster) :
    ((afterRequest clock fault req c).store k).find? key = (c.store k).find? key := by
  rcases afterRequest_cases clock fault req c with heq | heq <;> rw [heq]
  exact perform_frame hreq.spares

theorem Careful.keeps (hsent : ∀ cr, ∀ spec ∈ versions cr, sentSpec spec ∈ versions cr)
    {req : Request} (hreq : Careful versions k key req) (hc : Bystander versions k key c)
    (clock : Int) (fault : Option Fault) :
    Bystander versions k key (afterRequest clock fault req c) where
  versions cr m hm := by
    rcases afterRequest_cases clock fault req c with heq | heq
    · rw [heq] at hm
      exact stored_perform (P := fun cr spec => spec ∈ versions cr) hreq.create
        (fun obj hobj => hsent _ _ (hreq.update obj hobj)) hc.versions hm
    · rw [heq] at hm
      exact hc.versions cr m hm
  labels obj hobj := by
    rw [hreq.find?_eq] at hobj
    exact hc.labels obj hobj

theorem Bystander.user (hk : k ≠ .druid) {s : State} (hs : Bystander versions k key s.cluster)
    {a : Action} (ha : KeepsOut versions k key s a) {c' : Cluster}
    (hc' : c' ∈ userCluster s.cluster a) : Bystander versions k key c' := by
  cases a with
  | store cr =>
      cases hc'
      refine ⟨fun cr' m hm => ?_, fun obj hobj => hs.labels obj ?_⟩
      · by_cases heq : cr' = cr.key
        · subst heq
          rw [eq_of_find?_storeCR hm]
          exact ha
        · exact hs.versions cr' m ((find?_storeCR_of_ne heq).symm.trans hm)
      · unfold storeCR at hobj
        split at hobj <;> rwa [Cluster.modify_store_of_ne _ _ hk] at hobj
  | delete cr t =>
      cases hc'
      refine ⟨fun cr' m hm => ?_, fun obj hobj => hs.labels obj ?_⟩
      · obtain ⟨stored, hstored, hspec⟩ := find?_deleteCR_cases hm
        exact hspec ▸ hs.versions cr' stored hstored
      · rwa [deleteCR, Cluster.patch_store_of_ne hk] at hobj
  | outside change =>
      cases hc'
      refine ⟨fun cr' m hm => hs.versions cr' m ?_, fun obj hobj => ha obj ?_⟩
      · simpa using hm
      · simpa [Function.update_of_ne hk] using hobj
  | _ => cases hc'

/-- **Bystanders are left alone.** Where no version of a resource that users store generates the
object, alone or mixed with another one, and nobody gives it a label of the operator, no step of any
worker changes it: over all interleavings, with any requests that fail. -/
theorem bystander_untouched (hk : k ≠ .druid)
    (hversions : ∀ cr, NotGenerated hash decoding (versions cr) cr k key)
    (hsent : ∀ cr, ∀ spec ∈ versions cr, sentSpec spec ∈ versions cr)
    (hc : Bystander versions k key c) {acts : List Action}
    (hacts : Meets (step hash denyList) (fun s a => KeepsOut versions k key s a ∧
      a.DecodesIn {decoding}) { cluster := c } acts) :
    Meets (step hash denyList) (WorkerLeaves hash denyList k key) { cluster := c } acts := by
  have hd : Discipline hash {decoding} (Bystander versions k key) (fun _ _ => True)
      (fun _ cr rest => rest.UsesIf (Answers (versions cr) cr k key) (Careful versions k key))
      fun _ _ req => Careful versions k key req := by
    refine ⟨?_, ?_, ?_, ?_⟩
    · rintro c cr o dynamicConfigs _ rfl -
      exact usesIf_careful hk cr o (hversions cr) dynamicConfigs
    · exact fun c cr req rest hc hrest => hrest.1
    · exact fun c cr req rest clock fault hc hrest =>
        ⟨trivial, hrest.2 _ ((hc.apart cr).answers clock fault req)⟩
    · exact fun c c' cr rest _ _ hrest => hrest
  have hmeets := hd.meets_kept
    (fun c cr req rest clock fault hc hrest => hrest.1.keeps hsent hc clock fault) hc
    (hacts.imp fun s a _ ha => ⟨ha.2, fun hs c' hc' => ⟨hs.user hk ha.1 hc', trivial⟩⟩)
  refine hmeets.imp fun s a _ hs => ?_
  cases a with
  | advance i clock fault =>
      simp only [WorkerLeaves, step]
      cases hi : s.running[i]? with
      | none => rfl
      | some r =>
          dsimp only
          rw [advance_cluster]
          cases hnext : r.next with
          | none => rfl
          | some req => exact (hs.2 r hi req hnext).find?_eq clock fault s.cluster
  | _ => trivial

/-- A ConfigMap of somebody else in the namespace of the tiers. -/
def settings : Obj .configMap where
  metadata := { name := "settings", ns := "d" }
  body := ∅

theorem append_ne_settings (name : String) {s : String} (hlast : s.toList.getLast? = some 'g') :
    name ++ s ≠ settings.name := by
  intro heq
  have := congrArg (fun text : String => text.toList.getLast?) heq
  simp [List.getLast?_append, hlast, settings, Object.name] at this

theorem bystander_untouched_settings :
    Meets (step imageHash []) (WorkerLeaves imageHash [] .configMap settings.key)
      { cluster := (Cluster.modify {} .configMap fun _ t => t.insert settings) }
      (.store (tieredCluster "v1") :: reconciled 50) := by
  have hunnamed : ∀ m updated : Druid, Unnamed imageHash m updated .configMap settings.key.2 := by
    refine fun m updated => ⟨fun _ heq => ?_, fun g _ hmem => ?_⟩
    · exact append_ne_settings _ (by decide) heq.symm
    · exact append_ne_settings _ (by decide) (List.mem_singleton.1 hmem).symm
  have hversions : ∀ cr, NotGenerated imageHash .same Set.univ cr .configMap settings.key :=
    fun cr _ m _ _ => ⟨hunnamed m m, fun answer _ _ => hunnamed m _⟩
  refine bystander_untouched (by decide) hversions (fun _ _ _ => trivial)
    ⟨fun cr m hm => trivial, fun obj hobj => ?_⟩ (meets_iff.2 fun before a after heq => ⟨?_, ?_⟩)
  · obtain rfl : settings = obj := Option.some.inj hobj
    exact ⟨rfl, rfl⟩
  · have ha : a ∈ .store (tieredCluster "v1") :: reconciled 50 := by simp [heq]
    rcases List.mem_cons.1 ha with rfl | ha
    · trivial
    · rcases List.mem_cons.1 ha with rfl | ha
      · trivial
      · rw [List.eq_of_mem_replicate ha]
        trivial
  · exact reconciled_same 50 (by simp [heq])

end Workers

end Manager

end DruidOperator.Controller
