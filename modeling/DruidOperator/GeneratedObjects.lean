import DruidOperator.UnusedObjects
import DruidOperator.WorkloadAnnotations

/-!
# The objects a call generates

Names, labels and order of the objects of a complete call. The names depend on the resource alone,
and every object of a collected kind carries the two labels by which it is found again, whatever
labels the pods and the service templates bring along.

* `generatedNames` — the names, by kind.
* `labels_callObjects` — the labels.
* `path_last` — of several objects with one name, the last one decides what is seen.
-/

namespace DruidOperator.Controller

open Interaction Prog Kube Runs

variable {m : Druid} {hash : Hash} {k : Kind} {o : MapOrders} {files : StrMap}

/-! ## Labels -/

theorem matches_makeLabelsForDruid_iff {labels : Option StrMap} :
    (makeLabelsForDruid m).Matches labels ↔ (labels.getD ∅).lookup "app" = some "druid" ∧
      (labels.getD ∅).lookup "druid_cr" = some m.name :=
  StrMap.matches_pair_iff (by decide)

theorem lookup_groupLabels (m : Druid) (g : ServiceGroup) :
    (groupLabels m g).lookup "app" = some "druid" ∧
      (groupLabels m g).lookup "druid_cr" = some m.name ∧
      (groupLabels m g).lookup "component" = some g.spec.nodeType.text := by
  unfold groupLabels makeLabelsForNodeSpec
  refine ⟨?_, ?_, Finmap.lookup_insert _⟩
  · rw [Finmap.lookup_insert_of_ne _ (by decide), Finmap.lookup_insert_of_ne _ (by decide),
      Finmap.lookup_insert_of_ne _ (by decide), Finmap.lookup_insert]
  · rw [Finmap.lookup_insert_of_ne _ (by decide), Finmap.lookup_insert_of_ne _ (by decide),
      Finmap.lookup_insert]

theorem matches_groupLabels (m : Druid) (g : ServiceGroup) :
    (makeLabelsForDruid m).Matches (some (groupLabels m g)) :=
  matches_makeLabelsForDruid_iff.2 ⟨(lookup_groupLabels m g).1, (lookup_groupLabels m g).2.1⟩

/-- **Every object of a collected kind carries the labels of its resource.** -/
theorem labels_groupObjects {commonConfigSHA : String} {g : ServiceGroup} (hk : k ∈ collectedKinds)
    {obj : Obj k} (hobj : obj ∈ groupObjects hash commonConfigSHA (makeLabelsForDruid m) m g k) :
    (makeLabelsForDruid m).Matches obj.metadata.labels := by
  have hself : (makeLabelsForDruid m).Matches (some (makeLabelsForDruid m)) := fun e he => he
  cases k with
  | configMap =>
      rw [List.mem_singleton.1 hobj]
      exact matches_groupLabels m g
  | service =>
      obtain ⟨svc, -, rfl⟩ := List.mem_map.1 hobj
      obtain ⟨happ, hcr, -⟩ := lookup_groupLabels m g
      exact matches_makeLabelsForDruid_iff.2
        ⟨lookup_stampLabels svc.metadata.labels happ, lookup_stampLabels svc.metadata.labels hcr⟩
  | statefulSet =>
      rw [(plannedWorkload_of_mem hobj).labels_eq]
      exact matches_groupLabels m g
  | deployment =>
      rw [(plannedWorkload_of_mem hobj).labels_eq]
      exact matches_groupLabels m g
  | ingress =>
      obtain ⟨spec, -, rfl⟩ := Option.map_eq_some_iff.1 (Option.mem_toList.1 hobj)
      exact hself
  | podDisruptionBudget =>
      obtain ⟨spec, -, rfl⟩ := Option.map_eq_some_iff.1 (Option.mem_toList.1 hobj)
      exact matches_groupLabels m g
  | horizontalPodAutoscaler =>
      obtain ⟨spec, -, rfl⟩ := Option.map_eq_some_iff.1 (Option.mem_toList.1 hobj)
      exact hself
  | _ => simp [collectedKinds] at hk

theorem makeLabelsForDruid_congr {m' : Druid} (hname : m'.name = m.name) :
    makeLabelsForDruid m' = makeLabelsForDruid m := by
  simp only [makeLabelsForDruid, hname]

theorem mem_callObjects {obj : Obj k} (hobj : obj ∈ callObjects hash o m files k) :
    (∃ hk : k = .configMap, hk ▸ obj = plannedCommon hash m files) ∨
      ∃ done g rest, getNodeSpecsByOrder o.groups m = done ++ g :: rest ∧
        obj ∈ groupObjects hash (commonSHA hash m files) (makeLabelsForDruid m)
          (seenAfter hash (commonSHA hash m files) m done) g k := by
  rcases List.mem_append.1 hobj with hobj | hobj
  · by_cases hk : k = .configMap
    · subst hk
      rw [only, Function.update_self, List.mem_singleton] at hobj
      exact .inl ⟨rfl, hobj⟩
    · rw [only, Function.update_of_ne hk] at hobj
      cases hobj
  · exact .inr ((mem_loopObjects ..).1 hobj)

theorem callObjects_ns {obj : Obj k} (hobj : obj ∈ callObjects hash o m files k) :
    obj.ns = m.ns := by
  rcases mem_callObjects hobj with ⟨rfl, hcommon⟩ | ⟨done, g, rest, -, hgroup⟩
  · dsimp only at hcommon
    rw [hcommon]
    rfl
  · rw [groupObjects_ns _ _ _ _ _ hgroup]
    exact (sameIdentity_seenAfter hash (commonSHA hash m files) m done).ns_eq

theorem labels_callObjects (hk : k ∈ collectedKinds) {obj : Obj k}
    (hobj : obj ∈ callObjects hash o m files k) :
    (makeLabelsForDruid m).Matches obj.metadata.labels := by
  rcases mem_callObjects hobj with ⟨rfl, hcommon⟩ | ⟨done, g, rest, -, hgroup⟩
  · dsimp only at hcommon
    rw [hcommon]
    exact fun e he => he
  · have hlabels := makeLabelsForDruid_congr
      (sameIdentity_seenAfter hash (commonSHA hash m files) m done).name_eq
    rw [← hlabels] at hgroup ⊢
    exact labels_groupObjects hk hgroup

/-! ## Names -/

/-- The names a call generates, by kind. -/
def generatedNames (hash : Hash) (o : MapOrders) (m : Druid) (k : Kind) : List String :=
  (if k = .configMap then [commonConfigName m] else []) ++
    (getNodeSpecsByOrder o.groups m).flatMap fun g => groupNames hash (makeLabelsForDruid m) m g k

theorem makePersistentVolumeClaim_name (pvc : Object PersistentVolumeClaim)
    (nodeSpec : DruidNodeSpec) (m m' : Druid) (labels labels' : StrMap) (uniqueStr : String) :
    (makePersistentVolumeClaim pvc nodeSpec m' labels' uniqueStr).name =
      (makePersistentVolumeClaim pvc nodeSpec m labels uniqueStr).name := by
  unfold makePersistentVolumeClaim
  dsimp only
  split_ifs
  · rfl
  · rw [foldl_claims, foldl_claims]
    split <;> rfl

/-- What the groups before leave in the resource changes no name. -/
theorem groupNames_congr {m' : Druid} (hm : Shares m m') (hash : Hash) (ls : StrMap)
    (g : ServiceGroup) (k : Kind) : groupNames hash ls m' g k = groupNames hash ls m g k := by
  have hname : groupName m' g = groupName m g := by
    obtain ⟨services, annotations, liveness, readiness, startUp, rfl, -⟩ := hm
    rfl
  cases k with
  | service => exact plannedServices_names hm hash g
  | persistentVolumeClaim =>
      simp only [groupNames, plannedClaims, List.map_map]
      refine List.map_congr_left fun pvc _ => ?_
      rw [Function.comp_apply, Function.comp_apply, prepare_name, prepare_name, hname]
      exact makePersistentVolumeClaim_name pvc (withDruidPort g.spec) m m' (groupLabels m g)
        (groupLabels m' g) (groupName m g)
  | ingress =>
      simp only [groupNames, plannedIngress, hname]
      cases g.spec.ingress <;> rfl
  | podDisruptionBudget =>
      -- each side on its own: the two budgets differ in more than their names
      have hbudget : ∀ m : Druid, (plannedBudget hash m g).toList.map Object.name =
          (g.spec.podDisruptionBudgetSpec.map fun _ => groupName m g).toList := by
        intro m
        unfold plannedBudget
        cases g.spec.podDisruptionBudgetSpec <;> rfl
      rw [groupNames, groupNames, hbudget, hbudget, hname]
  | horizontalPodAutoscaler =>
      simp only [groupNames, plannedAutoscaler, hname]
      cases g.spec.hpAutoScaler <;> rfl
  | _ => simp only [groupNames, hname]

theorem loopObjects_names {commonConfigSHA : String} {ls : StrMap} {m' : Druid} (hm : Shares m m')
    {groups : List ServiceGroup} (hmakes : ∀ g ∈ groups, MakesWorkload g) (hk : k ∈ groupKinds) :
    (loopObjects hash commonConfigSHA ls m' groups k).map Object.name =
      groups.flatMap fun g => groupNames hash ls m g k := by
  induction groups generalizing m' with
  | nil => rfl
  | cons g groups ih =>
      rw [List.flatMap_cons, ← ih (hm.afterGroup hash commonConfigSHA g) fun g' hg' =>
        hmakes g' (List.mem_cons_of_mem _ hg'), ← groupNames_congr hm,
        groupNames_eq hash commonConfigSHA ls (hmakes g List.mem_cons_self) hk]
      exact List.map_append

/-- **The names of a call depend on the resource alone.** -/
theorem callObjects_names (hmakes : ∀ g ∈ getNodeSpecsByOrder o.groups m, MakesWorkload g)
    (hk : k ∈ groupKinds) :
    (callObjects hash o m files k).map Object.name = generatedNames hash o m k := by
  rw [callObjects, List.map_append, loopObjects_names (.refl m) hmakes hk, generatedNames]
  congr 1
  by_cases hconfig : k = .configMap
  · subst hconfig
    rw [only, Function.update_self, if_pos rfl]
    rfl
  · rw [only, Function.update_of_ne hconfig, if_neg hconfig]
    rfl

/-! ## The last object of a name -/

section Path

variable {k : Kind} {objs : List (Obj k)} {v v' : View} {name : String}

theorem Placed.other {obj : Obj k} (h : Placed obj v v') (hname : name ≠ obj.name) :
    v' name = v name := by
  cases h with
  | sent => exact Function.update_of_ne hname ..
  | kept s hs hhash => rfl

theorem Placed.self {obj : Obj k} (h : Placed obj v v') :
    ∃ s, v' obj.name = some s ∧ s.hash = hashOf obj := by
  cases h with
  | sent => exact ⟨sentView obj, Function.update_self .., rfl⟩
  | kept s hs hhash => exact ⟨s, hs, hhash⟩

theorem path_other (h : Path Placed objs v v') (hname : name ∉ objs.map Object.name) :
    v' name = v name := by
  induction h with
  | nil v => rfl
  | cons hstep hrest ih =>
      rw [List.map_cons, List.mem_cons, not_or] at hname
      exact (ih hname.2).trans (hstep.other hname.1)

/-- Of the objects with one name, the last one decides what is seen. -/
theorem path_last (h : Path Placed objs v v') (hname : name ∈ objs.map Object.name) :
    ∃ before obj after v₁ v₂, objs = before ++ obj :: after ∧ obj.name = name ∧
      name ∉ after.map Object.name ∧ Path Placed before v v₁ ∧ Placed obj v₁ v₂ ∧
      v' name = v₂ name := by
  induction h with
  | nil v => cases hname
  | @cons obj objs v v₁ v' hstep hrest ih =>
      by_cases hlater : name ∈ objs.map Object.name
      · obtain ⟨before, obj', after, v₂, v₃, rfl, hobj', hafter, hbefore, hplaced, hlast⟩ :=
          ih hlater
        exact ⟨obj :: before, obj', after, v₂, v₃, rfl, hobj', hafter, .cons hstep hbefore, hplaced,
          hlast⟩
      · refine ⟨[], obj, objs, v, v₁, rfl, ?_, hlater, .nil v, hstep, path_other hrest hlater⟩
        exact ((List.mem_cons.1 hname).resolve_right hlater).symm

/-- An object of each name is there, with the hash of one that was sent. -/
theorem path_hash (h : Path Placed objs v v') (hname : name ∈ objs.map Object.name) :
    ∃ obj ∈ objs, obj.name = name ∧ ∃ s, v' name = some s ∧ s.hash = hashOf obj := by
  obtain ⟨before, obj, after, v₁, v₂, rfl, rfl, -, -, hplaced, hlast⟩ := path_last h hname
  obtain ⟨s, hs, hhash⟩ := hplaced.self
  exact ⟨obj, by simp, rfl, s, hlast.trans hs, hhash⟩

/-- Where no two objects have one name, each is seen as it was sent, or as it was found. -/
theorem path_unique (h : Path Placed objs v v') (hnodup : (objs.map Object.name).Nodup)
    {obj : Obj k} (hobj : obj ∈ objs) :
    ∃ s, v' obj.name = some s ∧ s.hash = hashOf obj ∧ (s = sentView obj ∨ v obj.name = some s) := by
  obtain ⟨before, obj', after, v₁, v₂, rfl, hname, -, hbefore, hplaced, hlast⟩ :=
    path_last h (List.mem_map_of_mem hobj)
  obtain rfl : obj' = obj := List.inj_on_of_nodup_map hnodup (by simp) hobj hname
  have hfresh : obj'.name ∉ before.map Object.name := by
    rw [List.map_append, List.map_cons] at hnodup
    exact fun hmem => (List.nodup_append.1 hnodup).2.2 _ hmem _ List.mem_cons_self rfl
  rw [← path_other hbefore hfresh, hlast]
  cases hplaced with
  | sent => exact ⟨sentView obj', Function.update_self .., rfl, .inl rfl⟩
  | kept s hs hhash => exact ⟨s, hs, hhash, .inr hs⟩

end Path

end DruidOperator.Controller
