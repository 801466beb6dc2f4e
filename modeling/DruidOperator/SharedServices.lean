import DruidOperator.SentObjects
import DruidOperator.WorkloadAnnotations

/-!
# Service templates of the cluster spec

The loop over the groups copies a service template but not its maps. `makeService` writes the labels
of the group into the labels and the selector of the template where there are any, so a label one
group has and a later one lacks is still there when the service of the later group is made.

* `Selected` — the services of a group have the selectors and labels the templates ask for.
* `NothingLeft` — no earlier group leaves a label that shows in a service of the group.
-/

namespace DruidOperator.Controller

open Interaction Prog Kube

/-! ## Labels left in a map of a template -/

/-- The map of a template once the services of the groups in `done` are made. -/
def mapLeft (m : Druid) (done : List ServiceGroup) (labels : StrMap) : StrMap :=
  done.foldl (fun labels g =>
    if g.spec.services.isSome then labels else labels.overlay (groupLabels m g)) labels

/-- The values that the groups in `done` write under the key, in their order. -/
def labelsWritten (m : Druid) (done : List ServiceGroup) (key : String) : List String :=
  done.filterMap fun g => if g.spec.services.isSome then none else (groupLabels m g).lookup key

theorem mapLeft_nil (m : Druid) : mapLeft m [] = id := rfl

theorem mapLeft_append_singleton (m : Druid) (done : List ServiceGroup) (g : ServiceGroup) :
    mapLeft m (done ++ [g]) = fun labels =>
      if g.spec.services.isSome then mapLeft m done labels
      else (mapLeft m done labels).overlay (groupLabels m g) := by
  funext labels
  simp [mapLeft]

theorem lookup_mapLeft (m : Druid) (done : List ServiceGroup) (labels : StrMap) (key : String) :
    (mapLeft m done labels).lookup key =
      (labelsWritten m done key).getLast?.or (labels.lookup key) := by
  induction done using List.reverseRecOn with
  | nil => rfl
  | append_singleton done g ih =>
      rw [mapLeft_append_singleton, labelsWritten, List.filterMap_append, ← labelsWritten]
      dsimp only
      by_cases hown : g.spec.services.isSome
      · simp [hown, ih]
      · rw [if_neg hown, StrMap.lookup_overlay]
        split_ifs with hkey
        · obtain ⟨value, hvalue⟩ := Option.isSome_iff_exists.1 (Finmap.lookup_isSome.2 hkey)
          simp [hown, hvalue]
        · simp [hown, Finmap.lookup_eq_none.2 hkey, ih]

/-- What is left of a map shows in an object of the group unless the group overrides it. -/
theorem stampLabels_mapLeft_iff (m : Druid) (done : List ServiceGroup) (template : Option StrMap)
    (ls : StrMap) :
    stampLabels (template.map (mapLeft m done)) ls = stampLabels template ls ↔
      ∀ labels, template = some labels → ∀ key value, key ∉ ls →
        (labelsWritten m done key).getLast? = some value → labels.lookup key = some value := by
  cases template with
  | none => simp [stampLabels]
  | some labels =>
      have hleft : ∀ key, (mapLeft m done labels).lookup key = labels.lookup key ↔
          ∀ value, (labelsWritten m done key).getLast? = some value →
            labels.lookup key = some value := by
        intro key
        rw [lookup_mapLeft]
        cases hlast : (labelsWritten m done key).getLast? with
        | none => simp
        | some value => simp [eq_comm]
      constructor
      · intro heq labels' hlabels key value hkey hvalue
        cases hlabels
        have hlookup := congrArg (Finmap.lookup key) heq
        simp only [stampLabels, Option.map_some, StrMap.lookup_overlay, if_neg hkey] at hlookup
        exact (hleft key).1 hlookup value hvalue
      · intro hnone
        refine Finmap.ext_lookup fun key => ?_
        simp only [stampLabels, Option.map_some, StrMap.lookup_overlay]
        split_ifs with hkey
        · rfl
        · exact (hleft key).2 fun value hvalue => hnone labels rfl key value hkey hvalue

/-! ## The templates in the loop -/

/-- The two maps of a service that the labels of a group are written into. -/
def stampedMaps (svc : Object Service) : Option StrMap × Option StrMap :=
  (svc.body.selector, svc.metadata.labels)

/-- The maps of a template as the groups in `done` leave them. -/
def stampedMapsLeft (m : Druid) (done : List ServiceGroup) (svc : Object Service) :
    Option StrMap × Option StrMap :=
  (svc.body.selector.map (mapLeft m done), svc.metadata.labels.map (mapLeft m done))

/-- The templates of the cluster spec. -/
def clusterTemplates (m : Druid) : List (Object Service) := m.spec.services.getD []

theorem clusterTemplates_afterGroup (hash : Hash) (commonConfigSHA : String) (m : Druid)
    (g : ServiceGroup) :
    clusterTemplates (afterGroup hash commonConfigSHA m g) =
      if g.spec.services.isSome then clusterTemplates m
      else (clusterTemplates m).map fun svc =>
        serviceTemplateAfter svc (plannedService hash m g svc) := by
  show clusterTemplates (afterServices hash m g) = _
  unfold afterServices druidAfterServices
  split_ifs with hown
  · rfl
  · have hnone : g.spec.services = none := by simpa using hown
    unfold clusterTemplates serviceTemplates
    rw [hnone]
    show (m.spec.services.map fun _ => _).getD [] = _
    cases m.spec.services with
    | none => rfl
    | some svcs => rfl

theorem stampedMaps_after (hash : Hash) (m : Druid) (g : ServiceGroup) (svc : Object Service) :
    stampedMaps (serviceTemplateAfter svc (plannedService hash m g svc)) =
      (svc.body.selector.map (·.overlay (groupLabels m g)),
        svc.metadata.labels.map (·.overlay (groupLabels m g))) := by
  unfold stampedMaps serviceTemplateAfter sharedMap
  cases hselector : svc.body.selector <;> cases hlabels : svc.metadata.labels <;>
    simp [plannedService, prepare, addHashToObject, addOwnerRefToObject, makeService, stampLabels,
      hselector, hlabels]

/-- **The templates as a group finds them.** -/
theorem clusterTemplates_seenAfter (hash : Hash) (commonConfigSHA : String) (m : Druid)
    (done : List ServiceGroup) :
    (clusterTemplates (seenAfter hash commonConfigSHA m done)).map stampedMaps =
      (clusterTemplates m).map (stampedMapsLeft m done) := by
  induction done using List.reverseRecOn with
  | nil =>
      refine List.map_congr_left fun svc _ => ?_
      simp [stampedMaps, stampedMapsLeft, mapLeft_nil]
  | append_singleton done g ih =>
      have hlabels : groupLabels (seenAfter hash commonConfigSHA m done) g = groupLabels m g :=
        ((shares_seenAfter hash commonConfigSHA m done).group_eq hash commonConfigSHA g).1
      rw [seenAfter_append_singleton, clusterTemplates_afterGroup]
      by_cases hown : g.spec.services.isSome
      · rw [if_pos hown, ih]
        refine List.map_congr_left fun svc _ => ?_
        simp [stampedMapsLeft, mapLeft_append_singleton, hown]
      · have hstep : ∀ svc, stampedMaps (serviceTemplateAfter svc (plannedService hash
            (seenAfter hash commonConfigSHA m done) g svc)) =
            ((stampedMaps svc).1.map (·.overlay (groupLabels m g)),
              (stampedMaps svc).2.map (·.overlay (groupLabels m g))) := by
          intro svc
          rw [stampedMaps_after, hlabels]
          rfl
        rw [if_neg hown, List.map_map, Function.comp_def]
        simp only [hstep]
        have hmaps := congrArg (List.map fun maps : Option StrMap × Option StrMap =>
          (maps.1.map (·.overlay (groupLabels m g)), maps.2.map (·.overlay (groupLabels m g)))) ih
        rw [List.map_map, List.map_map] at hmaps
        refine hmaps.trans (List.map_congr_left fun svc _ => ?_)
        simp [stampedMapsLeft, mapLeft_append_singleton, hown, Function.comp_def]

/-! ## Services of one call -/

/-- The services sent for the group, in a call that has dealt with `done`, have as selectors and
labels those of the templates overridden by the labels of the group. -/
def Selected (hash : Hash) (commonConfigSHA : String) (m : Druid) (done : List ServiceGroup)
    (g : ServiceGroup) : Prop :=
  (plannedServices hash (seenAfter hash commonConfigSHA m done) g).map stampedMaps =
    (clusterTemplates m).map fun svc =>
      (some (stampLabels svc.body.selector (groupLabels m g)),
        some (stampLabels svc.metadata.labels (groupLabels m g)))

/-- A label that the group does not have, last written into a template by an earlier group that uses
the templates, is in every map of a template as it was written. -/
def NothingLeft (m : Druid) (done : List ServiceGroup) (g : ServiceGroup) : Prop :=
  ∀ svc ∈ clusterTemplates m, ∀ labels,
    svc.body.selector = some labels ∨ svc.metadata.labels = some labels →
    ∀ key value, key ∉ groupLabels m g → (labelsWritten m done key).getLast? = some value →
      labels.lookup key = some value

theorem plannedServices_maps (hash : Hash) (commonConfigSHA : String) (m : Druid)
    (done : List ServiceGroup) {g : ServiceGroup} (hg : g.spec.services = none) :
    (plannedServices hash (seenAfter hash commonConfigSHA m done) g).map stampedMaps =
      (clusterTemplates m).map fun svc =>
        (some (stampLabels (svc.body.selector.map (mapLeft m done)) (groupLabels m g)),
          some (stampLabels (svc.metadata.labels.map (mapLeft m done)) (groupLabels m g))) := by
  have hlabels : groupLabels (seenAfter hash commonConfigSHA m done) g = groupLabels m g :=
    ((shares_seenAfter hash commonConfigSHA m done).group_eq hash commonConfigSHA g).1
  have hmaps := congrArg (List.map fun maps : Option StrMap × Option StrMap =>
    (some (stampLabels maps.1 (groupLabels m g)), some (stampLabels maps.2 (groupLabels m g))))
    (clusterTemplates_seenAfter hash commonConfigSHA m done)
  rw [List.map_map, List.map_map] at hmaps
  unfold plannedServices serviceTemplates
  rw [hg, List.map_map]
  refine Eq.trans (List.map_congr_left fun svc _ => ?_) hmaps
  simp only [Function.comp_apply, ← hlabels]
  rfl

/-- For one group: its services are as the templates ask exactly where nothing is left behind. -/
theorem selected_iff (hash : Hash) (commonConfigSHA : String) (m : Druid)
    (done : List ServiceGroup) {g : ServiceGroup} (hg : g.spec.services = none) :
    Selected hash commonConfigSHA m done g ↔ NothingLeft m done g := by
  unfold Selected NothingLeft
  rw [plannedServices_maps hash commonConfigSHA m done hg, List.map_inj_left]
  refine forall₂_congr fun svc _ => ?_
  simp only [Prod.mk.injEq, Option.some.injEq, stampLabels_mapLeft_iff]
  constructor
  · intro hmaps labels hlabels
    rcases hlabels with hlabels | hlabels
    · exact hmaps.1 labels hlabels
    · exact hmaps.2 labels hlabels
  · intro hleft
    exact ⟨fun labels hlabels => hleft labels (.inl hlabels),
      fun labels hlabels => hleft labels (.inr hlabels)⟩

/-- **Services made from the templates of the cluster.** In one call, the services of every group
that uses them have the selectors and labels of the templates overridden by those of the group,
exactly where no earlier group leaves a label behind. Whatever the API server answers, every service
that is sent is one of those planned. -/
theorem cluster_services_iff (hash : Hash) (o : MapOrders) (m : Druid) :
    ((∀ done g rest, getNodeSpecsByOrder o.groups m = done ++ g :: rest →
        (∀ g' ∈ done, MakesWorkload g') → g.spec.services = none →
        ∀ commonConfigSHA, Selected hash commonConfigSHA m done g) ↔
      ∀ done g rest, getNodeSpecsByOrder o.groups m = done ++ g :: rest →
        (∀ g' ∈ done, MakesWorkload g') → g.spec.services = none → NothingLeft m done g) ∧
    ∀ {σ : Type} (h : Handler sig σ) (s : σ) (obj : Obj .service),
      ∀ e ∈ (exec h (deployDruidCluster hash o m) s).steps,
        e.req = .create .service obj ∨ e.req = .update .service obj →
        ∃ commonConfigSHA done g rest, getNodeSpecsByOrder o.groups m = done ++ g :: rest ∧
          (∀ g' ∈ done, MakesWorkload g') ∧ ∃ planned ∈ plannedServices hash
            (seenAfter hash commonConfigSHA m done) g,
            obj.key = planned.key ∧ stampedMaps obj = stampedMaps planned := by
  refine ⟨⟨?_, ?_⟩, fun h s obj e he hreq => ?_⟩
  · intro hall done g rest hgroups hdone hg
    exact (selected_iff hash "" m done hg).1 (hall done g rest hgroups hdone hg "")
  · intro hall done g rest hgroups hdone hg sha
    exact (selected_iff hash sha m done hg).2 (hall done g rest hgroups hdone hg)
  · have hsends := (sends_deployDruidCluster hash o m).steps he
    obtain ⟨planned, hplanned, hkey, hmaps⟩ : ∃ planned, SentObject hash o m .service planned ∧
        obj.key = planned.key ∧ stampedMaps obj = stampedMaps planned := by
      rcases hreq with hreq | hreq
      · rw [hreq] at hsends
        exact ⟨obj, hsends ⟨by decide, by decide⟩, rfl, rfl⟩
      · rw [hreq] at hsends
        obtain ⟨planned, prev, hplanned, rfl⟩ := hsends ⟨by decide, by decide⟩
        exact ⟨planned, hplanned, rfl, rfl⟩
    cases hplanned with
    | ofGroup k obj' hgroup =>
        obtain ⟨sha, done, rest, g, hgroups, hdone, k, obj', hobj⟩ := hgroup
        refine ⟨sha, done, g, rest, hgroups, hdone, planned, ?_, hkey, hmaps⟩
        cases hobj with
        | service svc hsvc => exact List.mem_map_of_mem hsvc
        | workload k obj' hobj => cases hobj

/-! ## A label of one tier -/

/-- The hot tier has a label of its own, and both tiers get a service from a template of the cluster
that has a selector. -/
def labelledTiers : Druid where
  metadata := { name := "c", ns := "d" }
  body := {
    spec := {
      image := "v1"
      services := some [{
        metadata := { name := "", ns := "" }
        body := { selector := some (Finmap.singleton "app" "druid") } }]
      nodes := ⟨[
        ⟨"hot", { nodeType := .historical, druidPort := 8083, replicas := 1,
                  podLabels := some (Finmap.singleton "tier" "hot") }⟩,
        coldTier], by decide⟩ } }

/-- The service of this name is created with this label in its selector. -/
def selectsBy (name key value : String) (r : Request) : Bool :=
  match r with
  | .create .service obj => decide (obj.name = name ∧ StrMap.getD obj.body.selector key = value)
  | _ => false

/-- The service of the cold tier selects pods with the label of the hot one. -/
theorem tier_label_leaks :
    ((exec (serve {}) (deployDruidCluster imageHash {} labelledTiers)
      (storedAlone labelledTiers)).steps.any fun e => selectsBy "druid-c-cold" "tier" "hot" e.req) ∧
    (groupLabels labelledTiers coldTier).lookup "tier" = none ∧
    ∃ hot, getNodeSpecsByOrder ({} : MapOrders).groups labelledTiers = [hot] ++ coldTier :: [] ∧
      ¬ Selected imageHash "" labelledTiers [hot] coldTier := by
  refine ⟨by decide +kernel, by decide +kernel, _, rfl, ?_⟩
  rw [selected_iff _ _ _ _ rfl]
  intro hleft
  exact absurd (hleft _ List.mem_cons_self _ (.inl rfl) "tier" "hot" (by decide +kernel)
    (by decide +kernel)) (by decide +kernel)

end DruidOperator.Controller
