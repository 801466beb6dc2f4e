import DruidOperator.Handler

/-!
# What a reconcile is going to apply

Which objects `deployDruidCluster` makes for a node group does not depend on any answer of the API
server but the extra ConfigMaps: it is a function of the resource as the earlier groups left it.
This file states that function and shows that the loop follows it.

* `plannedConfig`, `plannedServices`, `plannedStatefulSet`, … — the objects of a group, with owner
  reference and hash.
* `afterGroup` — the resource as the group leaves it to the next one.
* `nextLoop` — the variables of the loop after the group, if it goes on.
-/

namespace DruidOperator.Controller

open Interaction Prog Kube

section Plan

variable (hash : Hash) (commonConfigSHA : String) (ls : StrMap) (m : Druid) (g : ServiceGroup)

def groupName : String := makeNodeSpecificUniqueString m g.key

def groupLabels : StrMap := makeLabelsForNodeSpec g.spec m m.name (groupName m g)

/-- The ConfigMap of the group as it is made. -/
def groupConfig : Obj .configMap :=
  makeConfigMapForNodeSpec g.spec m (groupLabels m g) (groupName m g)

def plannedConfig : Obj .configMap := prepare hash m (groupConfig m g)

/-- The hash of the whole configuration, for the environment of the pods. -/
def groupConfigSHA : String := commonConfigSHA ++ "-" ++ hash .configMap (groupConfig m g)

def serviceTemplates : List (Object Service) :=
  (firstNonNilValue g.spec.services m.spec.services).getD []

def plannedService (svc : Object Service) : Obj .service :=
  prepare hash m (makeService svc g.spec m (groupLabels m g) (groupName m g))

def plannedServices : List (Obj .service) := (serviceTemplates m g).map (plannedService hash m g)

/-- The first name that is not empty. -/
def firstServiceName (names : List String) : String :=
  names.foldl (fun first name => if first = "" then name else first) ""

/-- The resource once the services of the group are made. -/
def afterServices : Druid :=
  druidAfterServices m g.spec
    ((serviceTemplates m g).map fun svc => serviceTemplateAfter svc (plannedService hash m g svc))

def plannedStatefulSet : Obj .statefulSet :=
  prepare hash (afterServices hash m g)
    (makeStatefulSet (withDruidPort g.spec) (afterServices hash m g) (groupLabels m g)
      (groupName m g) (groupConfigSHA hash commonConfigSHA m g)
      (firstServiceName ((plannedServices hash m g).map Object.name)))

def plannedDeployment : Except Exit (Obj .deployment) :=
  (makeDeployment (withDruidPort g.spec) (afterServices hash m g) (groupLabels m g) (groupName m g)
    (groupConfigSHA hash commonConfigSHA m g)).map (prepare hash (afterServices hash m g))

/-- The annotations of the workload, which the cluster spec may share. -/
def plannedAnnotations : Option StrMap :=
  if g.spec.kind = "Deployment" then
    match plannedDeployment hash commonConfigSHA m g with
    | .ok obj => obj.metadata.annotations
    | .error _ => none
  else (plannedStatefulSet hash commonConfigSHA m g).metadata.annotations

/-- The resource as the group leaves it to the next one. -/
def afterGroup : Druid :=
  druidAfterWorkload (afterServices hash m g) (withDruidPort g.spec)
    (plannedAnnotations hash commonConfigSHA m g)

def plannedIngress : Option (Obj .ingress) :=
  g.spec.ingress.map fun spec => prepare hash m (makeIngress spec (withDruidPort g.spec) m ls
    (groupName m g))

def plannedBudget : Option (Obj .podDisruptionBudget) :=
  g.spec.podDisruptionBudgetSpec.map fun spec =>
    prepare hash m (makePodDisruptionBudget spec m (groupLabels m g) (groupName m g))

def plannedAutoscaler : Option (Obj .horizontalPodAutoscaler) :=
  g.spec.hpAutoScaler.map fun spec =>
    prepare hash m (makeHorizontalPodAutoscaler spec m ls (groupName m g))

def plannedClaims : List (Obj .persistentVolumeClaim) :=
  g.spec.persistentVolumeClaim.map fun pvc =>
    prepare hash m (makePersistentVolumeClaim pvc (withDruidPort g.spec) m (groupLabels m g)
      (groupName m g))

/-- The names of the objects of the group, by kind. -/
def groupNames : Kind → List String
  | .configMap => [groupName m g ++ "-config"]
  | .service => (plannedServices hash m g).map Object.name
  | .statefulSet => if g.spec.kind = "Deployment" then [] else [groupName m g]
  | .deployment => if g.spec.kind = "Deployment" then [groupName m g] else []
  | .ingress => (plannedIngress hash ls m g).toList.map Object.name
  | .podDisruptionBudget => (plannedBudget hash m g).toList.map Object.name
  | .horizontalPodAutoscaler => (plannedAutoscaler hash ls m g).toList.map Object.name
  | .persistentVolumeClaim => (plannedClaims hash m g).map Object.name
  | _ => []

end Plan

/-- The variables of the loop after a group that goes on. -/
def nextLoop (hash : Hash) (commonConfigSHA : String) (ls : StrMap) (l : Loop) (g : ServiceGroup) :
    Loop where
  m := afterGroup hash commonConfigSHA l.m g
  names := fun k => l.names k ++ groupNames hash ls l.m g k

/-! ## What is never written into -/

/-- Two versions of the resource that the objects take the same identity from. -/
structure SameIdentity (m m' : Druid) : Prop where
  apiVersion : m'.apiVersion = m.apiVersion
  kind : m'.kind = m.kind
  metadata : m'.metadata = m.metadata

namespace SameIdentity

variable {m m' m'' : Druid}

theorem refl (m : Druid) : SameIdentity m m := ⟨rfl, rfl, rfl⟩

theorem trans (h : SameIdentity m m') (h' : SameIdentity m' m'') : SameIdentity m m'' :=
  ⟨h'.apiVersion.trans h.apiVersion, h'.kind.trans h.kind, h'.metadata.trans h.metadata⟩

theorem prepare_eq (h : SameIdentity m m') (hash : Hash) {k : Kind} (obj : Obj k) :
    prepare hash m' obj = prepare hash m obj := by
  have : asOwner m' = asOwner m := by
    simp only [asOwner, h.apiVersion, h.kind, Object.name, h.metadata]
  rw [prepare, prepare, this]

theorem ns_eq (h : SameIdentity m m') : m'.ns = m.ns := by simp only [Object.ns, h.metadata]

theorem name_eq (h : SameIdentity m m') : m'.name = m.name := by simp only [Object.name, h.metadata]

end SameIdentity

theorem sameIdentity_afterServices (hash : Hash) (m : Druid) (g : ServiceGroup) :
    SameIdentity m (afterServices hash m g) := by
  unfold afterServices druidAfterServices
  split_ifs
  · exact .refl m
  · exact ⟨rfl, rfl, rfl⟩

theorem sameIdentity_afterGroup (hash : Hash) (commonConfigSHA : String) (m : Druid)
    (g : ServiceGroup) : SameIdentity m (afterGroup hash commonConfigSHA m g) :=
  (sameIdentity_afterServices hash m g).trans ⟨rfl, rfl, rfl⟩

theorem groupName_congr {m m' : Druid} (hname : m'.name = m.name) (g : ServiceGroup) :
    groupName m' g = groupName m g := by
  simp only [groupName, makeNodeSpecificUniqueString, hname]

/-! ## The loop follows the plan -/

/-- Apply a prepared object, whatever comes of it. -/
def applyObj {k : Kind} (updaterFn : Obj k → Obj k → Obj k) (obj : Obj k) : Code Unit :=
  createOrUpdate alwaysTrueIsEqualsFn updaterFn obj >>= fun _ => .ret ()

/-- Apply the object there may be. -/
def applyOption {k : Kind} (obj : Option (Obj k)) : Code Unit :=
  match obj with
  | none => .ret ()
  | some obj => applyObj noopUpdaterFn obj

theorem sdkCreateOrUpdateAsNeeded_ret (hash : Hash) {k : Kind} (obj : Obj k)
    (isEqualFn : Obj k → Obj k → Bool) (updaterFn : Obj k → Obj k → Obj k) (drd : Druid) :
    sdkCreateOrUpdateAsNeeded hash (.ret obj) isEqualFn updaterFn drd =
      createOrUpdate isEqualFn updaterFn (prepare hash drd obj) >>= fun status =>
        .ret (status, prepare hash drd obj) := rfl

theorem deployObject_eq (hash : Hash) {k : Kind} (l : Loop) (obj : Obj k) :
    deployObject hash l obj =
      applyObj noopUpdaterFn (prepare hash l.m obj) >>= fun _ => .ret (l.named k [obj.name]) := by
  rw [deployObject, applyObj, sdkCreateOrUpdateAsNeeded_ret, bind_assoc, bind_assoc]
  rfl

theorem deployOptional_eq (hash : Hash) {k : Kind} (l : Loop) (obj : Option (Obj k)) :
    deployOptional hash l obj =
      applyOption (obj.map (prepare hash l.m)) >>= fun _ =>
        .ret (l.named k (obj.toList.map Object.name)) := by
  cases obj with
  | none => simp [deployOptional, applyOption, Loop.named]
  | some obj => exact deployObject_eq hash l obj

theorem deployService_eq (hash : Hash) (l : Loop) (g : ServiceGroup) (s : ServiceLoop)
    (svc : Object Service) :
    deployService hash g.spec l.m (groupLabels l.m g) (groupName l.m g) s svc =
      applyObj keepClusterIP (plannedService hash l.m g svc) >>= fun _ =>
        .ret { templates := s.templates ++
                 [serviceTemplateAfter svc (plannedService hash l.m g svc)]
               names := s.names ++ [(plannedService hash l.m g svc).name]
               firstServiceName := if s.firstServiceName = "" then
                 (plannedService hash l.m g svc).name else s.firstServiceName } := by
  rw [deployService, applyObj, sdkCreateOrUpdateAsNeeded_ret, bind_assoc, bind_assoc]
  rfl

/-- The variables of the loop over the services after all of them. -/
theorem foldl_services (hash : Hash) (l : Loop) (g : ServiceGroup) (s : ServiceLoop)
    (svcs : List (Object Service)) :
    svcs.foldl (fun s svc =>
      { templates := s.templates ++ [serviceTemplateAfter svc (plannedService hash l.m g svc)]
        names := s.names ++ [(plannedService hash l.m g svc).name]
        firstServiceName := if s.firstServiceName = "" then
          (plannedService hash l.m g svc).name else s.firstServiceName : ServiceLoop }) s =
      { templates := s.templates ++
          svcs.map fun svc => serviceTemplateAfter svc (plannedService hash l.m g svc)
        names := s.names ++ (svcs.map (plannedService hash l.m g)).map Object.name
        firstServiceName := ((svcs.map (plannedService hash l.m g)).map Object.name).foldl
          (fun first name => if first = "" then name else first) s.firstServiceName } := by
  induction svcs generalizing s with
  | nil => simp
  | cons svc svcs ih => simp [ih]

/-- The variables of the loop once the services are made. -/
def loopAfterServices (hash : Hash) (l : Loop) (g : ServiceGroup) : Loop :=
  { l.named .service ((plannedServices hash l.m g).map Object.name) with
    m := afterServices hash l.m g }

theorem deployServices_eq (hash : Hash) (l : Loop) (g : ServiceGroup) :
    deployServices hash g.spec (groupLabels l.m g) (groupName l.m g) l =
      forEach (applyObj keepClusterIP) (plannedServices hash l.m g) >>= fun _ =>
        .ret (loopAfterServices hash l g,
          firstServiceName ((plannedServices hash l.m g).map Object.name)) := by
  rw [deployServices, accumulate_eq_forEach (deployService_eq hash l g), bind_assoc,
    foldl_services, plannedServices, forEach_map]
  rfl

/-! ### The workload -/

/-- The kind of workload a group is deployed as. -/
def workloadKind (nodeSpec : DruidNodeSpec) : Kind :=
  if nodeSpec.kind = "Deployment" then .deployment else .statefulSet

/-- Apply the workload; the answer is whether the loop goes on. -/
def applyWorkload (hash : Hash) (commonConfigSHA : String) (m : Druid) (g : ServiceGroup) :
    Code Bool :=
  if g.spec.kind = "Deployment" then
    match plannedDeployment hash commonConfigSHA m g with
    | .error e => .exit e
    | .ok obj =>
        createOrUpdate deploymentIsEquals noopUpdaterFn obj >>=
          afterDeployment (groupName m g) (afterGroup hash commonConfigSHA m g)
  else
    expandIfAsked (withDruidPort g.spec) (groupName m g) (afterServices hash m g) >>= fun _ =>
      createOrUpdate statefulSetIsEquals noopUpdaterFn (plannedStatefulSet hash commonConfigSHA m g)
        >>= afterStatefulSet (withDruidPort g.spec) (groupName m g)
          (afterGroup hash commonConfigSHA m g)

/-- The variables of the loop once the workload is made. -/
def loopAfterWorkload (hash : Hash) (commonConfigSHA : String) (m : Druid) (g : ServiceGroup)
    (l : Loop) : Loop :=
  { l.named (workloadKind g.spec) [groupName m g] with m := afterGroup hash commonConfigSHA m g }

theorem makeDeployment_made {nodeSpec : DruidNodeSpec} {m : Druid} {ls : StrMap}
    {uniqueStr configMapSHA : String} {obj : Obj .deployment}
    (h : makeDeployment nodeSpec m ls uniqueStr configMapSHA = .ok obj) :
    ∃ ru, getRollingUpdateStrategy nodeSpec = .ok ru ∧
      obj = {
        apiVersion := "apps/v1"
        kind := "Deployment"
        metadata :=
          { name := uniqueStr
            annotations := some (makeAnnotationsForWorkload nodeSpec m)
            ns := m.ns
            labels := some ls }
        body := { spec := makeDeploymentSpec nodeSpec m ls uniqueStr configMapSHA ru } } := by
  unfold makeDeployment at h
  cases hru : getRollingUpdateStrategy nodeSpec with
  | error e =>
      rw [hru] at h
      cases h
  | ok ru =>
      rw [hru] at h
      cases h
      exact ⟨ru, rfl, rfl⟩

theorem makeDeployment_key {nodeSpec : DruidNodeSpec} {m : Druid} {ls : StrMap}
    {uniqueStr configMapSHA : String} {obj : Obj .deployment}
    (h : makeDeployment nodeSpec m ls uniqueStr configMapSHA = .ok obj) :
    obj.key = (m.ns, uniqueStr) := by
  obtain ⟨ru, -, rfl⟩ := makeDeployment_made h
  rfl

/-- A planned Deployment is one that was made, prepared for the API server. -/
theorem plannedDeployment_made {hash : Hash} {commonConfigSHA : String} {m : Druid}
    {g : ServiceGroup} {obj : Obj .deployment}
    (h : plannedDeployment hash commonConfigSHA m g = .ok obj) :
    ∃ made, makeDeployment (withDruidPort g.spec) (afterServices hash m g) (groupLabels m g)
        (groupName m g) (groupConfigSHA hash commonConfigSHA m g) = .ok made ∧
      obj = prepare hash (afterServices hash m g) made := by
  unfold plannedDeployment at h
  cases hmade : makeDeployment (withDruidPort g.spec) (afterServices hash m g) (groupLabels m g)
      (groupName m g) (groupConfigSHA hash commonConfigSHA m g) with
  | error e =>
      rw [hmade] at h
      cases h
  | ok made =>
      rw [hmade] at h
      cases h
      exact ⟨made, rfl, rfl⟩

theorem deployWorkload_eq (hash : Hash) (commonConfigSHA : String) (m : Druid) (g : ServiceGroup)
    {l : Loop} (hl : l.m = afterServices hash m g) :
    deployWorkload hash (withDruidPort g.spec) (groupLabels m g) (groupName m g)
        (groupConfigSHA hash commonConfigSHA m g)
        (firstServiceName ((plannedServices hash m g).map Object.name)) l =
      applyWorkload hash commonConfigSHA m g >>= fun goOn =>
        .ret (if goOn then some (loopAfterWorkload hash commonConfigSHA m g l) else none) := by
  unfold deployWorkload applyWorkload
  by_cases hkind : g.spec.kind = "Deployment"
  · rw [if_pos (by exact hkind), if_pos hkind, deployDeployment, hl]
    cases hobj : makeDeployment (withDruidPort g.spec) (afterServices hash m g) (groupLabels m g)
        (groupName m g) (groupConfigSHA hash commonConfigSHA m g) with
    | error e => simp [plannedDeployment, hobj, Except.map, sdkCreateOrUpdateAsNeeded]
    | ok obj =>
        have hplan : plannedDeployment hash commonConfigSHA m g =
            .ok (prepare hash (afterServices hash m g) obj) := by
          simp [plannedDeployment, hobj, Except.map]
        have hafter : afterGroup hash commonConfigSHA m g =
            druidAfterWorkload (afterServices hash m g) (withDruidPort g.spec)
              (prepare hash (afterServices hash m g) obj).metadata.annotations := by
          simp [afterGroup, plannedAnnotations, hkind, hplan]
        have hname : (prepare hash (afterServices hash m g) obj).name = groupName m g :=
          congrArg Prod.snd (makeDeployment_key hobj)
        rw [hplan]
        dsimp only
        rw [sdkCreateOrUpdateAsNeeded_ret, bind_assoc, bind_assoc]
        simp only [ret_bind, hname, loopAfterWorkload, workloadKind, if_pos hkind, hafter]
        rfl
  · have hafter : afterGroup hash commonConfigSHA m g =
        druidAfterWorkload (afterServices hash m g) (withDruidPort g.spec)
          (plannedStatefulSet hash commonConfigSHA m g).metadata.annotations := by
      simp [afterGroup, plannedAnnotations, hkind]
    rw [if_neg (by exact hkind), if_neg hkind, deployStatefulSet, hl, bind_assoc]
    refine bind_congr fun _ => ?_
    rw [sdkCreateOrUpdateAsNeeded_ret, bind_assoc, bind_assoc]
    simp only [loopAfterWorkload, workloadKind, if_neg hkind, hafter]
    rfl

/-! ### The rest, and the whole group -/

/-- Apply what comes after the workload. -/
def applyRest (hash : Hash) (ls : StrMap) (m : Druid) (g : ServiceGroup) : Code Unit :=
  applyOption (plannedIngress hash ls m g) >>= fun _ =>
    applyOption (plannedBudget hash m g) >>= fun _ =>
      applyOption (plannedAutoscaler hash ls m g) >>= fun _ =>
        forEach (applyObj noopUpdaterFn) (plannedClaims hash m g)

/-- The variables of the loop once the rest is made. -/
def loopAfterRest (hash : Hash) (ls : StrMap) (m : Druid) (g : ServiceGroup) (l : Loop) : Loop :=
  (((l.named .ingress ((plannedIngress hash ls m g).toList.map Object.name)).named
    .podDisruptionBudget ((plannedBudget hash m g).toList.map Object.name)).named
    .horizontalPodAutoscaler ((plannedAutoscaler hash ls m g).toList.map Object.name)).named
    .persistentVolumeClaim ((plannedClaims hash m g).map Object.name)

@[simp] theorem Loop.named_m (l : Loop) (k : Kind) (names : List String) :
    (l.named k names).m = l.m := rfl

theorem deployOptional_planned {α : Type} {k : Kind} (hash : Hash) {m : Druid} {l : Loop}
    (hl : SameIdentity m l.m) (spec : Option α) (make : Druid → α → Obj k)
    (hmake : ∀ a, make l.m a = make m a) :
    deployOptional hash l (spec.map fun a => make l.m a) =
      applyOption (spec.map fun a => prepare hash m (make m a)) >>= fun _ =>
        .ret (l.named k
          ((spec.map fun a => prepare hash m (make m a)).toList.map Object.name)) := by
  cases spec with
  | none => exact deployOptional_eq hash l none
  | some a =>
      rw [Option.map_some, Option.map_some, deployOptional_eq, Option.map_some, hl.prepare_eq,
        hmake]
      rfl

/-- Claims that are made and applied one by one are applied as planned. -/
theorem accumulate_claims (hash : Hash) {m : Druid} (nodeSpec : DruidNodeSpec) (lm : StrMap)
    (uniqueStr : String) (pvcs : List (Object PersistentVolumeClaim)) {l : Loop}
    (hl : SameIdentity m l.m) :
    accumulate (fun l pvc =>
        deployObject hash l (makePersistentVolumeClaim pvc nodeSpec l.m lm uniqueStr)) l pvcs =
      forEach (applyObj noopUpdaterFn) (pvcs.map fun pvc =>
        prepare hash m (makePersistentVolumeClaim pvc nodeSpec m lm uniqueStr)) >>= fun _ =>
        .ret (l.named .persistentVolumeClaim ((pvcs.map fun pvc =>
          prepare hash m (makePersistentVolumeClaim pvc nodeSpec m lm uniqueStr)).map
            Object.name)) := by
  have hpvc : ∀ (l : Loop) pvc, SameIdentity m l.m →
      deployObject hash l (makePersistentVolumeClaim pvc nodeSpec l.m lm uniqueStr) =
      applyObj noopUpdaterFn
        (prepare hash m (makePersistentVolumeClaim pvc nodeSpec m lm uniqueStr))
        >>= fun _ => .ret (l.named .persistentVolumeClaim
          [(prepare hash m (makePersistentVolumeClaim pvc nodeSpec m lm uniqueStr)).name]) := by
    intro l pvc hl
    have hmake : makePersistentVolumeClaim pvc nodeSpec l.m lm uniqueStr =
        makePersistentVolumeClaim pvc nodeSpec m lm uniqueStr := by
      simp only [makePersistentVolumeClaim, hl.ns_eq]
    rw [deployObject_eq, hmake, hl.prepare_eq]
    rfl
  rw [forEach_map]
  induction pvcs generalizing l with
  | nil => simp [Loop.named]
  | cons pvc pvcs ih =>
      rw [accumulate_cons, hpvc l pvc hl, forEach_cons, bind_assoc, bind_assoc]
      refine bind_congr fun _ => ?_
      rw [ret_bind, ih (l := l.named .persistentVolumeClaim _) hl]
      simp [Loop.named]

theorem deployRest_eq (hash : Hash) (ls : StrMap) (m : Druid) (g : ServiceGroup) {l : Loop}
    (hl : SameIdentity m l.m) :
    deployRest hash ls (groupLabels m g) (withDruidPort g.spec) (groupName m g) l =
      applyRest hash ls m g >>= fun _ => .ret (loopAfterRest hash ls m g l) := by
  have hns : l.m.ns = m.ns := hl.ns_eq
  unfold deployRest applyRest
  rw [deployOptional_planned hash hl _
    (fun m' spec => makeIngress spec (withDruidPort g.spec) m' ls (groupName m g))
    (fun spec => by simp only [makeIngress, hns]), bind_assoc, bind_assoc]
  refine bind_congr fun _ => ?_
  rw [ret_bind, deployOptional_planned hash (l := l.named .ingress _) hl _
    (fun m' spec => makePodDisruptionBudget spec m' (groupLabels m g) (groupName m g))
    (fun spec => by simp only [makePodDisruptionBudget, Loop.named_m, hns]), bind_assoc, bind_assoc]
  refine bind_congr fun _ => ?_
  rw [ret_bind, deployOptional_planned hash
    (l := (l.named .ingress _).named .podDisruptionBudget _) hl _
    (fun m' spec => makeHorizontalPodAutoscaler spec m' ls (groupName m g))
    (fun spec => by simp only [makeHorizontalPodAutoscaler, Loop.named_m, hns]), bind_assoc,
    bind_assoc]
  refine bind_congr fun _ => ?_
  rw [ret_bind, accumulate_claims hash (withDruidPort g.spec) (groupLabels m g) (groupName m g) _
    (l := ((l.named .ingress _).named .podDisruptionBudget _).named .horizontalPodAutoscaler _) hl]
  rfl

/-- Apply the objects of one group as planned. -/
def applyGroup (hash : Hash) (ls : StrMap) (commonConfigSHA : String) (l : Loop)
    (g : ServiceGroup) : Code (Option Loop) :=
  applyObj noopUpdaterFn (plannedConfig hash l.m g) >>= fun _ =>
    forEach (applyObj keepClusterIP) (plannedServices hash l.m g) >>= fun _ =>
      applyWorkload hash commonConfigSHA l.m g >>= fun goOn =>
        if goOn then
          applyRest hash ls l.m g >>= fun _ => .ret (some (nextLoop hash commonConfigSHA ls l g))
        else .ret none

/-- Naming the objects kind by kind names those of the group. -/
theorem loopAfter_eq (hash : Hash) (ls : StrMap) (commonConfigSHA : String) (l : Loop)
    (g : ServiceGroup) :
    loopAfterRest hash ls l.m g (loopAfterWorkload hash commonConfigSHA l.m g
      (loopAfterServices hash (l.named .configMap [(groupConfig l.m g).name]) g)) =
      nextLoop hash commonConfigSHA ls l g := by
  have hnames : ∀ k, (loopAfterRest hash ls l.m g (loopAfterWorkload hash commonConfigSHA l.m g
      (loopAfterServices hash (l.named .configMap [(groupConfig l.m g).name]) g))).names k =
      l.names k ++ groupNames hash ls l.m g k := by
    intro k
    by_cases hkind : g.spec.kind = "Deployment" <;> cases k <;>
      simp [loopAfterRest, loopAfterWorkload, loopAfterServices, Loop.named, groupNames,
        workloadKind, hkind, groupConfig, makeConfigMapForNodeSpec, makeConfigMap]
  unfold nextLoop
  rw [← funext hnames]
  rfl

/-- **The body of the loop applies the plan.** -/
theorem deployNode_eq (hash : Hash) (ls : StrMap) (commonConfigSHA : String) (l : Loop)
    (g : ServiceGroup) :
    deployNode hash ls commonConfigSHA l g = applyGroup hash ls commonConfigSHA l g := by
  unfold deployNode applyGroup
  dsimp only
  rw [deployObject_eq, bind_assoc]
  refine bind_congr fun _ => ?_
  -- the variables after the ConfigMap, for which the plan is the same
  show (deployServices hash g.spec (groupLabels (l.named .configMap [(groupConfig l.m g).name]).m g)
    (groupName (l.named .configMap [(groupConfig l.m g).name]).m g)
    (l.named .configMap [(groupConfig l.m g).name]) >>= _) = _
  rw [deployServices_eq, bind_assoc]
  refine bind_congr fun _ => ?_
  show (deployWorkload hash (withDruidPort g.spec) (groupLabels l.m g) (groupName l.m g)
    (groupConfigSHA hash commonConfigSHA l.m g)
    (firstServiceName ((plannedServices hash l.m g).map Object.name))
    (loopAfterServices hash (l.named .configMap [(groupConfig l.m g).name]) g) >>= _) = _
  rw [deployWorkload_eq hash commonConfigSHA l.m g (by rfl), bind_assoc]
  refine bind_congr fun goOn => ?_
  cases goOn with
  | false => rfl
  | true =>
      show (deployRest hash ls (groupLabels l.m g) (withDruidPort g.spec) (groupName l.m g) _
        >>= _) = _
      rw [deployRest_eq hash ls l.m g (sameIdentity_afterGroup hash commonConfigSHA l.m g),
        bind_assoc, if_pos rfl]
      refine bind_congr fun _ => ?_
      rw [ret_bind, loopAfter_eq]
      rfl

/-! ## The whole call -/

/-- Apply the common ConfigMap; its hash and its name. It is made twice. -/
def applyCommonConfig (hash : Hash) (m : Druid) : Code (String × String) := do
  let commonConfig ← makeCommonConfigMap m (makeLabelsForDruid m)
  let obj ← makeCommonConfigMap m (makeLabelsForDruid m)
  let _ ← createOrUpdate alwaysTrueIsEqualsFn noopUpdaterFn (prepare hash m obj)
  return (hash .configMap commonConfig, obj.name)

theorem deployDruidCluster_eq (hash : Hash) (o : MapOrders) (m : Druid) (decoding : Decoding) :
    deployDruidCluster hash o m decoding =
      match verifyDruidSpec o m with
      | .error _ => .ret ()
      | .ok () => applyCommonConfig hash m >>= fun common =>
          if m.metadata.deletionTimestamp.isSome then executeFinalizers m
          else deployNodes hash o (makeLabelsForDruid m) common.1 common.2 m decoding := by
  unfold deployDruidCluster
  cases verifyDruidSpec o m with
  | error e => rfl
  | ok u =>
      rw [applyCommonConfig, bind_assoc]
      refine bind_congr fun commonConfig => ?_
      rw [sdkCreateOrUpdateAsNeeded, bind_assoc, bind_assoc]
      refine bind_congr fun obj => ?_
      rw [bind_assoc, bind_assoc]
      rfl

end DruidOperator.Controller
