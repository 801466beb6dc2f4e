import DruidOperator.ValidSpecs
import DruidOperator.GeneratedObjects
import DruidOperator.SharedProbes

/-!
# The pods of a node group

Two facts about the pod templates that the controller makes.

The main container is named after the node group, and the validation looks for duplicates among the
additional containers only: an additional container may take the name of the main one.

The labels of a group are those of the pods with the four reserved ones written over them, and the
workload and the disruption budget of the group select by all of them. One of the reserved labels is
the name of the group, so no group selects the pods of another.

* `containerNames_iff` — when the names of the containers of a pod are distinct.
* `selectors_disjoint` — which pods the objects of a group select.
-/

namespace DruidOperator.Controller

open Interaction Prog Kube

/-! ## Containers -/

/-- The names of all containers of a pod, the init containers included. -/
def containerNames (podSpec : PodSpec) : List String :=
  (podSpec.containers ++ podSpec.initContainers).map Container.name

theorem containerNames_addAdditionalContainers (m : Druid) (nodeSpec : DruidNodeSpec)
    (podSpec : PodSpec) :
    (containerNames (addAdditionalContainers m nodeSpec podSpec)).Perm
      (containerNames podSpec ++
        (getAllAdditionalContainers m nodeSpec).map AdditionalContainer.containerName) := by
  unfold addAdditionalContainers
  induction getAllAdditionalContainers m nodeSpec generalizing podSpec with
  | nil => simp
  | cons additional rest ih =>
      rw [List.foldl_cons, List.map_cons, List.append_cons]
      refine (ih _).trans (List.Perm.append_right _ ?_)
      by_cases hinit : additional.runAsInit = true
      · simp [containerNames, hinit, convertAdditionalContainer]
      · rw [if_neg hinit]
        simp only [containerNames, List.map_append, List.append_assoc, List.map_cons, List.map_nil]
        exact List.perm_append_comm.append_left _

theorem containerNames_makePodSpec (nodeSpec : DruidNodeSpec) (m : Druid)
    (uniqueStr configMapSHA : String) :
    (containerNames (makePodSpec nodeSpec m uniqueStr configMapSHA)).Perm
      (uniqueStr ::
        (getAllAdditionalContainers m nodeSpec).map AdditionalContainer.containerName) :=
  containerNames_addAdditionalContainers m nodeSpec _

/-- **The containers of a pod.** In an accepted spec, the names of all containers of a node group
are distinct exactly if no additional container has the name of the group. -/
theorem containerNames_iff {o : MapOrders} {m : Druid} (haccepted : verifyDruidSpec o m = .ok ())
    {g : ServiceGroup} (hg : g ∈ m.spec.nodes.items) (configMapSHA : String) :
    (containerNames (makePodSpec g.spec m (makeNodeSpecificUniqueString m g.key)
        configMapSHA)).Nodup ↔
      ∀ additional ∈ m.spec.additionalContainer ++ g.spec.additionalContainer,
        additional.containerName ≠ makeNodeSpecificUniqueString m g.key := by
  have hnodup := ((verify_iff o m).1 haccepted g hg).1.containers
  rw [(containerNames_makePodSpec g.spec m _ configMapSHA).nodup_iff, List.nodup_cons,
    List.mem_map, and_iff_left hnodup, getAllAdditionalContainers]
  constructor
  · intro hfresh additional hmem hname
    exact hfresh ⟨additional, hmem, hname⟩
  · intro hother hmem
    obtain ⟨additional, hmem, hname⟩ := hmem
    exact hother additional hmem hname

/-- A broker with one additional container. -/
def sidecarCluster (containerName : String) : Druid where
  metadata := { name := "c", ns := "d" }
  body := { spec := {
    image := "v1"
    additionalContainer := [{ image := "v1", containerName := containerName }]
    nodes :=
      Table.insert .empty ⟨"b", { nodeType := .broker, druidPort := 8082, replicas := 1 }⟩ } }

theorem containerNames_shipper :
    verifyDruidSpec {} (sidecarCluster "log-shipper") = .ok () ∧
    ∀ g ∈ (sidecarCluster "log-shipper").spec.nodes.items,
      (containerNames (makePodSpec g.spec (sidecarCluster "log-shipper")
        (makeNodeSpecificUniqueString (sidecarCluster "log-shipper") g.key) "sha")).Nodup := by
  have haccepted : verifyDruidSpec {} (sidecarCluster "log-shipper") = .ok () := by decide +kernel
  refine ⟨haccepted, fun g hg => (containerNames_iff haccepted hg "sha").2 ?_⟩
  obtain rfl := List.mem_singleton.1 hg
  decide +kernel

/-- The additional container has the name of the main one, and the spec is accepted. -/
theorem containerNames_clash :
    verifyDruidSpec {} (sidecarCluster "druid-c-b") = .ok () ∧
    ¬ ∀ g ∈ (sidecarCluster "druid-c-b").spec.nodes.items,
      (containerNames (makePodSpec g.spec (sidecarCluster "druid-c-b")
        (makeNodeSpecificUniqueString (sidecarCluster "druid-c-b") g.key) "sha")).Nodup := by
  refine ⟨by decide +kernel, fun h => ?_⟩
  exact absurd (h _ List.mem_cons_self) (by decide +kernel)

/-! ## Selectors -/

/-- The labels by which an object selects pods. -/
def podSelector : (k : Kind) → Obj k → Option StrMap
  | .statefulSet, obj => some obj.body.spec.selector
  | .deployment, obj => some obj.body.spec.selector
  | .podDisruptionBudget, obj => obj.body.selector
  | _, _ => none

theorem lookup_groupLabels_name (m : Druid) (g : ServiceGroup) :
    (groupLabels m g).lookup "nodeSpecUniqueStr" = some (groupName m g) := by
  unfold groupLabels makeLabelsForNodeSpec
  rw [Finmap.lookup_insert_of_ne _ (by decide), Finmap.lookup_insert]

section Selectors

variable {hash : Hash} {commonConfigSHA : String} {ls : StrMap} {m : Druid} {g : ServiceGroup}

theorem PlannedWorkload.podSelector_eq {k : Kind} {obj : Obj k}
    (hp : PlannedWorkload hash commonConfigSHA m g k obj) :
    podSelector k obj = some (groupLabels m g) := by
  cases hp with
  | statefulSet hkind => rfl
  | deployment hkind obj hobj =>
      obtain ⟨made, hmade, rfl⟩ := plannedDeployment_made hobj
      obtain ⟨ru, -, rfl⟩ := makeDeployment_made hmade
      rfl

/-- The workload and the budget of a group select by its labels. -/
theorem podSelector_groupObjects {k : Kind}
    (hk : k ∈ [Kind.statefulSet, .deployment, .podDisruptionBudget]) {obj : Obj k}
    (hobj : obj ∈ groupObjects hash commonConfigSHA ls m g k) :
    podSelector k obj = some (groupLabels m g) := by
  simp only [List.mem_cons, List.not_mem_nil, or_false] at hk
  rcases hk with rfl | rfl | rfl
  · exact (plannedWorkload_of_mem hobj).podSelector_eq
  · exact (plannedWorkload_of_mem hobj).podSelector_eq
  · obtain ⟨pdbSpec, -, rfl⟩ := Option.map_eq_some_iff.1 (Option.mem_toList.1 hobj)
    rfl

theorem labels_podTemplate {k : Kind} {obj : Obj k}
    (hobj : obj ∈ workloadObjects hash commonConfigSHA m g k) {template : PodTemplateSpec}
    (htemplate : podTemplate k obj = some template) : template.labels = groupLabels m g := by
  rw [(plannedWorkload_of_mem hobj).podTemplate_eq] at htemplate
  cases htemplate
  rfl

theorem groupLabels_matches_self : (groupLabels m g).Matches (some (groupLabels m g)) :=
  fun _ he => he

/-- A selector with the name of one group selects no pod of another. -/
theorem not_matches_of_key_ne {g' : ServiceGroup} (hkey : g.key ≠ g'.key) :
    ¬ (groupLabels m g).Matches (some (groupLabels m g')) := by
  intro hmatch
  have hname := StrMap.matches_iff.1 hmatch _ _ (lookup_groupLabels_name m g)
  rw [Option.getD_some, lookup_groupLabels_name] at hname
  exact hkey (groupName_inj (Option.some.inj hname).symm)

end Selectors

/-- **Workload selectors are disjoint.** Let two node groups of a resource have different keys,
wherever they stand in the loop. The workload and the budget of the first group select the pods of
its own workload and not those of the other's, and the pods of both carry the labels of the
resource. -/
theorem selectors_disjoint (hash : Hash) (commonConfigSHA : String) (ls : StrMap) (m : Druid)
    {a b : ServiceGroup} (hkey : a.key ≠ b.key) (doneA doneB : List ServiceGroup) {k kA kB : Kind}
    (hk : k ∈ [Kind.statefulSet, .deployment, .podDisruptionBudget]) {obj : Obj k}
    (hobj : obj ∈ groupObjects hash commonConfigSHA ls (seenAfter hash commonConfigSHA m doneA) a k)
    {workloadA : Obj kA} (hA : workloadA ∈
      workloadObjects hash commonConfigSHA (seenAfter hash commonConfigSHA m doneA) a kA)
    {workloadB : Obj kB} (hB : workloadB ∈
      workloadObjects hash commonConfigSHA (seenAfter hash commonConfigSHA m doneB) b kB)
    {podsA podsB : PodTemplateSpec} (hpodsA : podTemplate kA workloadA = some podsA)
    (hpodsB : podTemplate kB workloadB = some podsB) :
    ∃ selector, podSelector k obj = some selector ∧
      selector.Matches (some podsA.labels) ∧ ¬ selector.Matches (some podsB.labels) ∧
      (makeLabelsForDruid m).Matches (some podsA.labels) ∧
      (makeLabelsForDruid m).Matches (some podsB.labels) := by
  have hseen : ∀ done g, groupLabels (seenAfter hash commonConfigSHA m done) g = groupLabels m g :=
    fun done g => ((shares_seenAfter hash commonConfigSHA m done).group_eq hash commonConfigSHA g).1
  have hselector := podSelector_groupObjects hk hobj
  have hlabelsA := labels_podTemplate hA hpodsA
  have hlabelsB := labels_podTemplate hB hpodsB
  rw [hseen] at hselector hlabelsA hlabelsB
  rw [hlabelsA, hlabelsB]
  exact ⟨_, hselector, groupLabels_matches_self, not_matches_of_key_ne hkey,
    matches_groupLabels m a, matches_groupLabels m b⟩

/-- A tier with a budget. -/
def budgetTier : ServiceGroup :=
  ⟨"hot", {
    nodeType := .historical
    druidPort := 8083
    replicas := 1
    podDisruptionBudgetSpec := some {} }⟩

/-- A tier whose pods ask for the name of the other one. -/
def maskedTier : ServiceGroup :=
  ⟨"cold", {
    nodeType := .historical
    druidPort := 8083
    replicas := 1
    podLabels := some (Finmap.singleton "nodeSpecUniqueStr" "druid-c-hot") }⟩

def maskedTiers : Druid where
  metadata := { name := "c", ns := "d" }
  body := { spec := { image := "v1", nodes := ⟨[budgetTier, maskedTier], by decide⟩ } }

theorem selectors_disjoint_masked :
    budgetTier.key ≠ maskedTier.key ∧
    ∃ selector, podSelector .podDisruptionBudget (prepare (fun _ _ => "") maskedTiers
        (makePodDisruptionBudget {} maskedTiers
          (groupLabels maskedTiers budgetTier) "druid-c-hot")) =
          some selector ∧
      selector.Matches (some (plannedTemplate (fun _ _ => "") "" maskedTiers budgetTier).labels) ∧
      ¬ selector.Matches
        (some (plannedTemplate (fun _ _ => "") "" maskedTiers maskedTier).labels) := by
  have hkey : budgetTier.key ≠ maskedTier.key := by decide
  obtain ⟨selector, hselector, hown, hother, -⟩ :=
    selectors_disjoint (fun _ _ => "") "" ∅ maskedTiers
    hkey [] [] (k := .podDisruptionBudget) (by decide) (List.mem_singleton_self _)
    (List.mem_singleton_self (plannedStatefulSet (fun _ _ => "") "" maskedTiers budgetTier))
    (List.mem_singleton_self (plannedStatefulSet (fun _ _ => "") "" maskedTiers maskedTier)) rfl rfl
  exact ⟨hkey, selector, hselector, hown, hother⟩

end DruidOperator.Controller
