import DruidOperator.GeneratedObjects
import DruidOperator.SharedServices

/-!
# The order of the groups

A group is made from the resource as the groups before it leave it, and groups of one type come in
the order in which Go ranges over a map. This file says when that makes no difference: what a call
generates then depends on the resource alone.

* `Unmoved` — what the earlier groups leave behind makes no difference to any object of the group.
* `SameObjects` — two orders, each with groups that are unmoved, or one and the same sequence.
* `mem_callObjects_of_same` — in both orders the same objects are generated.
-/

namespace DruidOperator.Controller

open Interaction Prog Kube

/-! ## Service templates -/

/-- A template without annotations once the services of the groups in `done` are made. -/
def templateLeft (m : Druid) (done : List ServiceGroup) (svc : Object Service) : Object Service :=
  { svc with
    metadata := { svc.metadata with labels := svc.metadata.labels.map (mapLeft m done) }
    body := { svc.body with selector := svc.body.selector.map (mapLeft m done) } }

/-- The services of the group are made as if there were no other group: it has templates of its own,
or it finds those of the cluster spec without a label that shows, and without a hash. -/
structure ServicesUndisturbed (m : Druid) (done : List ServiceGroup) (g : ServiceGroup) : Prop where
  labels : g.spec.services = none → NothingLeft m done g
  annotations : g.spec.services = none → (∀ g' ∈ done, g'.spec.services.isSome) ∨
    ∀ svc ∈ clusterTemplates m, svc.metadata.annotations = none

section Services

variable (hash : Hash) (commonConfigSHA : String) {m : Druid} {done : List ServiceGroup}

theorem clusterTemplates_own (hdone : ∀ g ∈ done, g.spec.services.isSome) :
    clusterTemplates (seenAfter hash commonConfigSHA m done) = clusterTemplates m := by
  induction done using List.reverseRecOn with
  | nil => rfl
  | append_singleton done g ih =>
      rw [seenAfter_append_singleton, clusterTemplates_afterGroup, if_pos (hdone g (by simp))]
      exact ih fun g' hg' => hdone g' (List.mem_append_left _ hg')

/-- Templates without annotations keep what the groups write into their labels. -/
theorem clusterTemplates_left
    (hnone : ∀ svc ∈ clusterTemplates m, svc.metadata.annotations = none) :
    clusterTemplates (seenAfter hash commonConfigSHA m done) =
      (clusterTemplates m).map (templateLeft m done) := by
  induction done using List.reverseRecOn with
  | nil =>
      refine (List.map_id (clusterTemplates m)).symm.trans (List.map_congr_left fun svc _ => ?_)
      simp [templateLeft, mapLeft_nil]
  | append_singleton done g ih =>
      have hlabels : groupLabels (seenAfter hash commonConfigSHA m done) g = groupLabels m g :=
        ((shares_seenAfter hash commonConfigSHA m done).group_eq hash commonConfigSHA g).1
      rw [seenAfter_append_singleton, clusterTemplates_afterGroup, ih]
      split_ifs with hown
      · refine List.map_congr_left fun svc _ => ?_
        simp [templateLeft, mapLeft_append_singleton, hown]
      · rw [List.map_map]
        refine List.map_congr_left fun svc hsvc => ?_
        have hann := hnone svc hsvc
        simp only [Function.comp_apply, templateLeft, serviceTemplateAfter, plannedService, prepare,
          addHashToObject, addOwnerRefToObject, makeService, sharedMap, stampLabels,
          mapLeft_append_singleton, hown, hlabels, hann]
        cases svc.metadata.labels <;> cases svc.body.selector <;> rfl

theorem plannedService_congr {m' : Druid} (hm : Shares m m') (g : ServiceGroup)
    (svc : Object Service) : plannedService hash m' g svc = plannedService hash m g svc := by
  obtain ⟨_, _, _, _, _, rfl, -⟩ := hm
  rfl

/-- Labels that do not show make no difference to a service. -/
theorem plannedService_left {g : ServiceGroup} (hleft : NothingLeft m done g) {svc : Object Service}
    (hsvc : svc ∈ clusterTemplates m) :
    plannedService hash m g (templateLeft m done svc) = plannedService hash m g svc := by
  have hlabels := (stampLabels_mapLeft_iff m done svc.metadata.labels (groupLabels m g)).2
    fun labels heq => hleft svc hsvc labels (.inr heq)
  have hselector := (stampLabels_mapLeft_iff m done svc.body.selector (groupLabels m g)).2
    fun labels heq => hleft svc hsvc labels (.inl heq)
  unfold plannedService makeService templateLeft
  dsimp only
  rw [hlabels, hselector]

/-- **The services of an undisturbed group.** -/
theorem plannedServices_undisturbed {g : ServiceGroup} (hkept : ServicesUndisturbed m done g) :
    plannedServices hash (seenAfter hash commonConfigSHA m done) g = plannedServices hash m g := by
  have hshares := shares_seenAfter hash commonConfigSHA m done
  unfold plannedServices
  rw [List.map_congr_left fun svc _ => plannedService_congr hash hshares g svc]
  cases hown : g.spec.services with
  | some own =>
      simp only [serviceTemplates, hown, firstNonNilValue, Option.some_or]
  | none =>
      have htemplates : ∀ m : Druid, serviceTemplates m g = clusterTemplates m := by
        intro m
        simp only [serviceTemplates, clusterTemplates, hown, firstNonNilValue, Option.none_or]
      rw [htemplates, htemplates]
      rcases hkept.annotations hown with hothers | hnone
      · rw [clusterTemplates_own hash commonConfigSHA hothers]
      · rw [clusterTemplates_left hash commonConfigSHA hnone, List.map_map]
        refine List.map_congr_left fun svc hsvc => ?_
        exact plannedService_left hash (hkept.labels hown) hsvc

end Services

/-! ## All objects of a group -/

/-- What the groups in `done` leave behind makes no difference to the objects of the group. -/
structure Unmoved (m : Druid) (done : List ServiceGroup) (g : ServiceGroup) : Prop where
  workload : Undisturbed m done g
  services : ServicesUndisturbed m done g

section Group

variable (hash : Hash) (commonConfigSHA : String) {m m' : Druid} {g : ServiceGroup}

theorem plannedDeployment_eq_map (m : Druid) (g : ServiceGroup) :
    plannedDeployment hash commonConfigSHA m g =
      (hashedDeployment hash commonConfigSHA m g).map (addHashToObject hash) := by
  unfold plannedDeployment hashedDeployment
  cases makeDeployment (withDruidPort g.spec) (afterServices hash m g) (groupLabels m g)
    (groupName m g) (groupConfigSHA hash commonConfigSHA m g) <;> rfl

theorem plannedWorkload_congr (hm : Shares m m') (hview : SameView m m' g) :
    plannedStatefulSet hash commonConfigSHA m' g = plannedStatefulSet hash commonConfigSHA m g ∧
      plannedDeployment hash commonConfigSHA m' g = plannedDeployment hash commonConfigSHA m g := by
  obtain ⟨hset, hdeployment⟩ := hashedWorkload_congr hm hview hash commonConfigSHA
  refine ⟨congrArg (addHashToObject hash) hset, ?_⟩
  rw [plannedDeployment_eq_map, plannedDeployment_eq_map, hdeployment]

/-- What comes after the workload is made from values that no group writes into. -/
theorem restObjects_congr (hm : Shares m m') (ls : StrMap) (k : Kind) :
    restObjects hash ls m' g k = restObjects hash ls m g k := by
  obtain ⟨_, _, _, _, _, rfl, -⟩ := hm
  cases k <;> rfl

/-- **The objects of a group that is not moved.** -/
theorem groupObjects_unmoved {done : List ServiceGroup} (hmakes : ∀ g' ∈ done, MakesWorkload g')
    (hkept : Unmoved m done g) (ls : StrMap) (k : Kind) :
    groupObjects hash commonConfigSHA ls (seenAfter hash commonConfigSHA m done) g k =
      groupObjects hash commonConfigSHA ls m g k := by
  have hshares := shares_seenAfter hash commonConfigSHA m done
  obtain ⟨hset, hdeployment⟩ := plannedWorkload_congr hash commonConfigSHA hshares
    (sameView_seenAfter hmakes hkept.workload hash commonConfigSHA)
  cases k with
  | configMap =>
      obtain ⟨_, _, _, _, _, heq, -⟩ := hshares
      simp only [groupObjects, heq]
      rfl
  | service => exact plannedServices_undisturbed hash commonConfigSHA hkept.services
  | statefulSet =>
      simp only [groupObjects, workloadObjects]
      rw [hset]
  | deployment =>
      simp only [groupObjects, workloadObjects]
      rw [hdeployment]
  | _ => simp only [groupObjects, restObjects_congr hash hshares ls]

end Group

/-! ## Two orders -/

/-- No group is moved by those before it. -/
def AllUnmoved (o : MapOrders) (m : Druid) : Prop :=
  ∀ done g rest, getNodeSpecsByOrder o.groups m = done ++ g :: rest → Unmoved m done g

/-- The groups come in one sequence in both orders, or it makes no difference in which. -/
def SameObjects (o o' : MapOrders) (m : Druid) : Prop :=
  getNodeSpecsByOrder o'.groups m = getNodeSpecsByOrder o.groups m ∨
    AllUnmoved o m ∧ AllUnmoved o' m

section Orders

variable {hash : Hash} {o o' : MapOrders} {m : Druid} {files : StrMap}

theorem makes_of_order (hmakes : ∀ g ∈ getNodeSpecsByOrder o.groups m, MakesWorkload g) :
    ∀ g ∈ getNodeSpecsByOrder o'.groups m, MakesWorkload g :=
  fun g hg => hmakes g (mem_getNodeSpecsByOrder.2 (mem_getNodeSpecsByOrder.1 hg))

/-- Where no group is moved, the objects are those of each group on its own. -/
theorem mem_loopObjects_unmoved (hmakes : ∀ g ∈ getNodeSpecsByOrder o.groups m, MakesWorkload g)
    (hkept : AllUnmoved o m) {commonConfigSHA : String} {ls : StrMap} {k : Kind} {obj : Obj k} :
    obj ∈ loopObjects hash commonConfigSHA ls m (getNodeSpecsByOrder o.groups m) k ↔
      ∃ g ∈ getNodeSpecsByOrder o.groups m, obj ∈ groupObjects hash commonConfigSHA ls m g k := by
  have hgroup : ∀ done g rest, getNodeSpecsByOrder o.groups m = done ++ g :: rest →
      groupObjects hash commonConfigSHA ls (seenAfter hash commonConfigSHA m done) g k =
        groupObjects hash commonConfigSHA ls m g k := by
    intro done g rest heq
    refine groupObjects_unmoved hash commonConfigSHA (fun g' hg' => hmakes g' ?_)
      (hkept done g rest heq) ls k
    exact heq ▸ List.mem_append_left _ hg'
  rw [mem_loopObjects]
  constructor
  · rintro ⟨done, g, rest, heq, hobj⟩
    rw [hgroup done g rest heq] at hobj
    exact ⟨g, by simp [heq], hobj⟩
  · rintro ⟨g, hg, hobj⟩
    obtain ⟨done, rest, heq⟩ := List.append_of_mem hg
    exact ⟨done, g, rest, heq, (hgroup done g rest heq).symm ▸ hobj⟩

/-- **The same objects are generated in both orders.** -/
theorem mem_callObjects_of_same (hmakes : ∀ g ∈ getNodeSpecsByOrder o.groups m, MakesWorkload g)
    (hsame : SameObjects o o' m) {k : Kind} {obj : Obj k}
    (hobj : obj ∈ callObjects hash o' m files k) : obj ∈ callObjects hash o m files k := by
  rcases hsame with heq | ⟨hkept, hkept'⟩
  · unfold callObjects at hobj ⊢
    rwa [← heq]
  · refine List.mem_append.2 ((List.mem_append.1 hobj).imp_right fun hloop => ?_)
    obtain ⟨g, hg, hgroup⟩ := (mem_loopObjects_unmoved (makes_of_order hmakes) hkept').1 hloop
    refine (mem_loopObjects_unmoved hmakes hkept).2 ⟨g, ?_, hgroup⟩
    exact mem_getNodeSpecsByOrder.2 (mem_getNodeSpecsByOrder.1 hg)

theorem mem_generatedNames_iff {k : Kind} {name : String} :
    name ∈ generatedNames hash o' m k ↔ name ∈ generatedNames hash o m k := by
  simp only [generatedNames, List.mem_append, List.mem_flatMap, mem_getNodeSpecsByOrder]

end Orders

end DruidOperator.Controller
