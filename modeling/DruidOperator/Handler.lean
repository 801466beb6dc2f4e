import DruidOperator.VolumeExpansion
import DruidOperator.OrphanClaims
import DruidOperator.Finalizers
import Mathlib.Data.List.Sort

/-!
# The reconcile of a cluster

`deployDruidCluster` of `handler.go`. It validates the resource, applies the common ConfigMap,
looks after the finalizer, and then goes through the node groups: for each it applies a ConfigMap,
the services, the workload, and the optional objects. With a rolling deploy it leaves the loop as
soon as a workload was updated or is not fully deployed. After the last group it collects orphaned
claims and unused objects and patches the status.

The resource `m` is threaded through the loop, since making the objects of one group writes into
maps and probes of the cluster spec that the next group reads.
-/

namespace DruidOperator.Controller

open Interaction Prog Kube

/-! ## Applying one object -/

/-- What was done about an object: nothing, `CREATED` or `UPDATED`. -/
inductive DruidNodeStatus where
  | unchanged | resourceCreated | resourceUpdated
deriving DecidableEq

def alwaysTrueIsEqualsFn {k : Kind} (_prev _curr : Obj k) : Bool := true

def statefulSetIsEquals (_obj1 _obj2 : Obj .statefulSet) : Bool := true

def deploymentIsEquals (_obj1 _obj2 : Obj .deployment) : Bool := true

def noopUpdaterFn {k : Kind} (_prev curr : Obj k) : Obj k := curr

/-- The updater of services: the cluster IP is kept. -/
def keepClusterIP (prev curr : Obj .service) : Obj .service :=
  { curr with body := { curr.body with clusterIP := prev.body.clusterIP } }

/-- Owner reference first, hash over everything else second. -/
def prepare (hash : Hash) (drd : Druid) {k : Kind} (obj : Obj k) : Obj k :=
  addHashToObject hash (addOwnerRefToObject obj (asOwner drd))

/-- Create a prepared object, or update the stored one where the hashes differ. -/
def createOrUpdate {k : Kind} (isEqualFn : Obj k → Obj k → Bool)
    (updaterFn : Obj k → Obj k → Obj k) (obj : Obj k) : Code DruidNodeStatus := do
  match ← getObj k obj.ns obj.name with
  | .error err =>
      if err.notFound then do
        let _ ← orReturn (← createObj k obj)
        return .resourceCreated
      else
        fail ("Failed to get [" ++ obj.kind ++ ":" ++ obj.name ++ "] due to [" ++ err.msg ++ "].")
  | .ok prevObj =>
      if hashOf obj ≠ hashOf prevObj ∨ isEqualFn prevObj obj = false then do
        let _ ← orReturn (← updateObj k
          (updaterFn prevObj (obj.withResourceVersion prevObj.metadata.resourceVersion)))
        return .resourceUpdated
      else return .unchanged

/-- Make an object and apply it. The object is returned as it was prepared. -/
def sdkCreateOrUpdateAsNeeded (hash : Hash) {k : Kind} (objFn : Code (Obj k))
    (isEqualFn : Obj k → Obj k → Bool) (updaterFn : Obj k → Obj k → Obj k) (drd : Druid) :
    Code (DruidNodeStatus × Obj k) := do
  let obj ← objFn
  let status ← createOrUpdate isEqualFn updaterFn (prepare hash drd obj)
  return (status, prepare hash drd obj)

/-! ## The common ConfigMap -/

/-- The files of the referenced ConfigMaps; one that cannot be read is skipped. -/
def addExtraCommonConfig (m : Druid) (data : StrMap) : Code StrMap :=
  accumulate (fun data cmRef => do
    match ← getObj .configMap cmRef.ns cmRef.name with
    | .error _ => return data
    | .ok cm => return data.overlay cm.body) data m.spec.extraCommonConfig

def makeCommonConfigMap (m : Druid) (ls : StrMap) : Code (Obj .configMap) := do
  let data ← orReturn (commonConfigData m)
  let data ← addExtraCommonConfig m data
  return makeConfigMap (commonConfigName m) m.ns ls data

/-! ## Rollout status -/

/-- What `isObjFullyDeployed` makes of the status of a StatefulSet. -/
def statefulSetDeployed (status : StatefulSetStatus) : Bool × Option Error :=
  if status.currentRevision ≠ status.updateRevision then (false, none)
  else if status.currentReplicas ≠ status.readyReplicas then (false, none)
  else (decide (status.currentRevision = status.updateRevision), none)

/-- What it makes of the status of a Deployment: every branch of the loop over the conditions
returns, so the first condition decides. -/
def deploymentDeployed (status : DeploymentStatus) : Bool × Option Error :=
  match status.conditions with
  | [] => (false, none)
  | condition :: _ =>
      if condition.type = "ReplicaFailure" then (false, some ⟨condition.reason, false⟩)
      else if (condition.type = "Progressing" ∧ condition.status ≠ .true) ∨
          status.readyReplicas ≠ status.replicas then (false, none)
      else (decide (status.readyReplicas = status.replicas), none)

def fullyDeployed : (k : Kind) → Obj k → Bool × Option Error
  | .statefulSet, obj => statefulSetDeployed obj.body.status
  | .deployment, obj => deploymentDeployed obj.body.status
  | _, _ => (false, none)

def isObjFullyDeployed (k : Kind) (uniqueStr : String) (drd : Druid) :
    Code (Bool × Option Error) := do
  match ← getObj k drd.ns uniqueStr with
  | .error err => return (false, some err)
  | .ok obj => return fullyDeployed k obj

/-! ## Crashing pods -/

/-- The pod is deleted once for every restarting container of every failed condition; the second
time it is not there any more. -/
def checkPod (p : Obj .pod) : Code Unit :=
  if p.body.phase = .failed ∨ p.body.phase = .unknown then do
    orReturn (← deleteObj .pod p false)
  else
    forEach (fun condition =>
      if condition.type = "ContainersReady" ∧ condition.status = .false then
        forEach (fun containerStatus =>
          if 1 < containerStatus.restartCount then do
            orReturn (← deleteObj .pod p false)
          else return ()) p.body.containerStatuses
      else return ()) p.body.conditions

def checkCrashStatus (nodeSpec : DruidNodeSpec) (drd : Druid) (uniqueStr : String) : Code Unit := do
  let podList ← orReturn
    (← listObjs .pod drd.ns (makeLabelsForNodeSpec nodeSpec drd drd.name uniqueStr))
  forEach checkPod podList

/-- Its error is dropped. -/
def execCheckCrashStatus (nodeSpec : DruidNodeSpec) (m : Druid) (uniqueStr : String) : Code Unit :=
  if m.spec.forceDeleteStsPodOnError ∧ nodeSpec.podManagementPolicy = "OrderedReady" then do
    let _ ← (checkCrashStatus nodeSpec m uniqueStr).attempt
    return ()
  else return ()

/-! ## One node group -/

/-- The variables of the loop over the node groups. -/
structure Loop where
  m : Druid
  /-- The names of the objects generated so far, by kind. -/
  names : Kind → List String := fun _ => []

namespace Loop

/-- `names[obj.GetName()] = true` for each of them. -/
def named (l : Loop) (k : Kind) (names : List String) : Loop :=
  { l with names := Function.update l.names k (l.names k ++ names) }

end Loop

/-- Apply an object that shares nothing with the resource. -/
def deployObject (hash : Hash) {k : Kind} (l : Loop) (obj : Obj k) : Code Loop := do
  let (_, obj) ← sdkCreateOrUpdateAsNeeded hash (.ret obj) alwaysTrueIsEqualsFn noopUpdaterFn l.m
  return l.named k [obj.name]

/-- The variables of the loop over the services of a group. -/
structure ServiceLoop where
  templates : List (Object Service) := []
  names : List String := []
  firstServiceName : String := ""

def deployService (hash : Hash) (nodeSpec : DruidNodeSpec) (m : Druid) (lm : StrMap)
    (uniqueStr : String) (s : ServiceLoop) (svc : Object Service) : Code ServiceLoop := do
  let (_, obj) ← sdkCreateOrUpdateAsNeeded hash (.ret (makeService svc nodeSpec m lm uniqueStr))
    alwaysTrueIsEqualsFn keepClusterIP m
  return {
    templates := s.templates ++ [serviceTemplateAfter svc obj]
    names := s.names ++ [obj.name]
    firstServiceName := if s.firstServiceName = "" then obj.name else s.firstServiceName }

/-- The resource after the services of a group were made: only templates of the cluster spec are
seen again. -/
def druidAfterServices (m : Druid) (nodeSpec : DruidNodeSpec) (templates : List (Object Service)) :
    Druid :=
  if nodeSpec.services.isSome then m
  else { m with body := { m.body with spec := { m.spec with
    services := m.spec.services.map fun _ => templates } } }

/-- Apply the services and return the name of the first. -/
def deployServices (hash : Hash) (nodeSpec : DruidNodeSpec) (lm : StrMap) (uniqueStr : String)
    (l : Loop) : Code (Loop × String) := do
  let s ← accumulate (deployService hash nodeSpec l.m lm uniqueStr) {}
    ((firstNonNilValue nodeSpec.services l.m.spec.services).getD [])
  return ({ l.named .service s.names with m := druidAfterServices l.m nodeSpec s.templates },
    s.firstServiceName)

/-- Go on only once the object is fully deployed; otherwise leave `deployDruidCluster`. The answer
`false` stands for leaving without an error. -/
def whenDeployed (k : Kind) (uniqueStr : String) (drd : Druid) (rest : Code Bool) : Code Bool := do
  match ← isObjFullyDeployed k uniqueStr drd with
  | (true, _) => rest
  | (false, none) => return false
  | (false, some err) => .exit (.error err)

/-- Whether the loop goes on after a Deployment was applied with the given status. -/
def afterDeployment (uniqueStr : String) (m : Druid) (status : DruidNodeStatus) : Code Bool :=
  if m.spec.rollingDeploy then
    if status = .resourceUpdated then return false
    else if 1 < m.metadata.generation then
      whenDeployed .deployment uniqueStr m (return true)
    else return true
  else return true

def deployDeployment (hash : Hash) (nodeSpec : DruidNodeSpec) (lm : StrMap)
    (uniqueStr configMapSHA : String) (l : Loop) : Code (Option Loop) := do
  let (status, obj) ← sdkCreateOrUpdateAsNeeded hash
    (match makeDeployment nodeSpec l.m lm uniqueStr configMapSHA with
      | .ok obj => .ret obj
      | .error e => .exit e)
    deploymentIsEquals noopUpdaterFn l.m
  let l := { l.named .deployment [obj.name] with
    m := druidAfterWorkload l.m nodeSpec obj.metadata.annotations }
  let goOn ← afterDeployment uniqueStr l.m status
  return if goOn then some l else none

/-- The check for crashing pods that ends the branch of StatefulSets. -/
def thenCheckCrash (nodeSpec : DruidNodeSpec) (uniqueStr : String) (m : Druid) : Code Bool := do
  execCheckCrashStatus nodeSpec m uniqueStr
  return true

/-- Whether the loop goes on after a StatefulSet was applied with the given status. -/
def afterStatefulSet (nodeSpec : DruidNodeSpec) (uniqueStr : String) (m : Druid)
    (status : DruidNodeStatus) : Code Bool :=
  if m.spec.rollingDeploy then
    if status = .resourceUpdated then return false
    else do
      execCheckCrashStatus nodeSpec m uniqueStr
      if 1 < m.metadata.generation then
        whenDeployed .statefulSet uniqueStr m (thenCheckCrash nodeSpec uniqueStr m)
      else thenCheckCrash nodeSpec uniqueStr m
  else thenCheckCrash nodeSpec uniqueStr m

/-- Volume expansion, where the resource asks for it and is not new. -/
def expandIfAsked (nodeSpec : DruidNodeSpec) (uniqueStr : String) (m : Druid) : Code Unit :=
  if 1 < m.metadata.generation ∧ m.spec.scalePvcSts then
    expandStatefulSetVolumes m nodeSpec uniqueStr
  else return ()

def deployStatefulSet (hash : Hash) (nodeSpec : DruidNodeSpec) (lm : StrMap)
    (uniqueStr configMapSHA serviceName : String) (l : Loop) : Code (Option Loop) := do
  expandIfAsked nodeSpec uniqueStr l.m
  let (status, obj) ← sdkCreateOrUpdateAsNeeded hash
    (.ret (makeStatefulSet nodeSpec l.m lm uniqueStr configMapSHA serviceName))
    statefulSetIsEquals noopUpdaterFn l.m
  let l := { l.named .statefulSet [obj.name] with
    m := druidAfterWorkload l.m nodeSpec obj.metadata.annotations }
  let goOn ← afterStatefulSet nodeSpec uniqueStr l.m status
  return if goOn then some l else none

def deployWorkload (hash : Hash) (nodeSpec : DruidNodeSpec) (lm : StrMap)
    (uniqueStr configMapSHA serviceName : String) (l : Loop) : Code (Option Loop) :=
  if nodeSpec.kind = "Deployment" then
    deployDeployment hash nodeSpec lm uniqueStr configMapSHA l
  else deployStatefulSet hash nodeSpec lm uniqueStr configMapSHA serviceName l

/-- Apply an object the group may leave out. -/
def deployOptional (hash : Hash) {k : Kind} (l : Loop) (obj : Option (Obj k)) : Code Loop :=
  match obj with
  | none => return l
  | some obj => deployObject hash l obj

/-- What comes after the workload. -/
def deployRest (hash : Hash) (ls lm : StrMap) (nodeSpec : DruidNodeSpec) (uniqueStr : String)
    (l : Loop) : Code Loop := do
  let l ← deployOptional hash l
    (nodeSpec.ingress.map fun spec => makeIngress spec nodeSpec l.m ls uniqueStr)
  let l ← deployOptional hash l
    (nodeSpec.podDisruptionBudgetSpec.map fun spec => makePodDisruptionBudget spec l.m lm uniqueStr)
  let l ← deployOptional hash l
    (nodeSpec.hpAutoScaler.map fun spec => makeHorizontalPodAutoscaler spec l.m ls uniqueStr)
  accumulate (fun l pvc => deployObject hash l
    (makePersistentVolumeClaim pvc nodeSpec l.m lm uniqueStr)) l nodeSpec.persistentVolumeClaim

def withDruidPort (nodeSpec : DruidNodeSpec) : DruidNodeSpec :=
  { nodeSpec with
    ports := nodeSpec.ports ++ [{ containerPort := nodeSpec.druidPort, name := "druid-port" }] }

/-- The body of the loop; `none` leaves `deployDruidCluster` without an error. -/
def deployNode (hash : Hash) (ls : StrMap) (commonConfigSHA : String) (l : Loop)
    (elem : ServiceGroup) : Code (Option Loop) := do
  let uniqueStr := makeNodeSpecificUniqueString l.m elem.key
  let lm := makeLabelsForNodeSpec elem.spec l.m l.m.name uniqueStr
  let nodeConfig := makeConfigMapForNodeSpec elem.spec l.m lm uniqueStr
  let configMapSHA := commonConfigSHA ++ "-" ++ hash .configMap nodeConfig
  let l ← deployObject hash l nodeConfig
  let (l, firstServiceName) ← deployServices hash elem.spec lm uniqueStr l
  let nodeSpec := withDruidPort elem.spec
  match ← deployWorkload hash nodeSpec lm uniqueStr configMapSHA firstServiceName l with
  | none => return none
  | some l => do
      let l ← deployRest hash ls lm nodeSpec uniqueStr l
      return some l

/-! ## After the last group -/

/-- Delete the listed objects whose names were not generated, and return the names that stay. -/
def deleteUnusedResources (k : Kind) (drd : Druid) (names : List String) (selectorLabels : StrMap) :
    Code (List String) := do
  match ← listObjs k drd.ns selectorLabels with
  | .error _ => return []
  | .ok items =>
      accumulate (fun survivorNames s =>
        if s.name ∈ names then return survivorNames ++ [s.name]
        else do
          match ← deleteObj k s false with
          | .ok _ => return survivorNames
          | .error _ => return survivorNames ++ [s.name]) [] items

def sortStrings (names : List String) : List String := names.insertionSort (· ≤ ·)

def newDruidNodeTypeStatus (nodeConditionStatus : ConditionStatus)
    (nodeCondition : DruidNodeConditionType) (nodeTierOrType : String) (err : Option String) :
    DruidNodeTypeStatus :=
  match nodeCondition, err with
  | .druidClusterReady, _ =>
      { druidNode := "All"
        druidNodeConditionStatus := some nodeConditionStatus
        druidNodeConditionType := some .druidClusterReady
        reason := "All Druid Nodes are in Ready Condition" }
  | .druidNodeRollingUpdate, _ =>
      { druidNode := nodeTierOrType
        druidNodeConditionStatus := some nodeConditionStatus
        druidNodeConditionType := some .druidNodeRollingUpdate
        reason := "Druid Node [" ++ nodeTierOrType ++ "] is Rolling Update" }
  | .druidNodeErrorState, some reason =>
      { druidNode := nodeTierOrType
        druidNodeConditionStatus := some nodeConditionStatus
        druidNodeConditionType := some .druidNodeErrorState
        reason := reason }
  | .druidNodeErrorState, none =>
      { druidNode := nodeTierOrType
        druidNodeConditionStatus := some nodeConditionStatus
        druidNodeConditionType := some .druidNodeErrorState }

/-- The last pod with a false `Ready` condition decides; with none the cluster is ready. -/
def nodeStatusOf (podList : List (Obj .pod)) : DruidNodeTypeStatus :=
  podList.foldl (fun status po =>
    po.body.conditions.foldl (fun status c =>
      if c.type = "Ready" ∧ c.status = .false then
        newDruidNodeTypeStatus .true .druidNodeErrorState po.name (some c.reason)
      else status) status) (newDruidNodeTypeStatus .true .druidClusterReady "" none)

/-- `getPodNames`, nil where there is no pod, sorted. -/
def podNamesOf (podList : List (Obj .pod)) : Option (List String) :=
  if podList = [] then none else some (sortStrings (podList.map Object.name))

/-- Its error is dropped. -/
def druidClusterStatusPatcher (updatedStatus : DruidClusterStatus) (m : Druid) : Code Unit :=
  if updatedStatus ≠ m.body.status then do
    let _ ← patchStatus m updatedStatus
    return ()
  else return ()

/-- Collect what is unused, kind by kind, and patch the status. -/
def updateStatus (ls : StrMap) (l : Loop) : Code Unit := do
  let statefulSets ← deleteUnusedResources .statefulSet l.m (l.names .statefulSet) ls
  let deployments ← deleteUnusedResources .deployment l.m (l.names .deployment) ls
  let hpAutoScalers ← deleteUnusedResources .horizontalPodAutoscaler l.m
    (l.names .horizontalPodAutoscaler) ls
  let ingress ← deleteUnusedResources .ingress l.m (l.names .ingress) ls
  let podDisruptionBudgets ← deleteUnusedResources .podDisruptionBudget l.m
    (l.names .podDisruptionBudget) ls
  let services ← deleteUnusedResources .service l.m (l.names .service) ls
  let configMaps ← deleteUnusedResources .configMap l.m (l.names .configMap) ls
  let pods ← listObjs .pod l.m.ns (makeLabelsForDruid l.m)
  let podList := match pods with
    | .ok podList => podList
    | .error _ => []
  druidClusterStatusPatcher
    { druidNodeStatus := nodeStatusOf podList
      statefulSets := some (sortStrings statefulSets)
      deployments := some (sortStrings deployments)
      services := some (sortStrings services)
      configMaps := some (sortStrings configMaps)
      podDisruptionBudgets := some (sortStrings podDisruptionBudgets)
      ingress := some (sortStrings ingress)
      hpAutoScalers := some (sortStrings hpAutoScalers)
      pods := podNamesOf podList } l.m

def collectOrphans (m : Druid) : Code Unit :=
  if 1 < m.metadata.generation ∧ m.spec.deleteOrphanPvc then deleteOrphanPVC m else return ()

/-- Everything after the loop. -/
def finishDeploy (ls : StrMap) (l : Loop) : Code Unit := do
  collectOrphans l.m
  updateStatus ls l

/-! ## The reconcile -/

/-- From the finalizers on, for a resource that is not being deleted. The groups are those of the
resource as it was read; all else comes from what the patch of the finalizers has left in hand. -/
def deployNodes (hash : Hash) (o : MapOrders) (ls : StrMap) (commonConfigSHA commonName : String)
    (m : Druid) (decoding : Decoding := .same) : Code Unit := do
  let updated ← updateFinalizers m decoding
  match ← iterate (deployNode hash ls commonConfigSHA)
      (Loop.named ⟨updated, fun _ => []⟩ .configMap [commonName])
        (getNodeSpecsByOrder o.groups m) with
  | none => return ()
  | some l => finishDeploy ls l

def deployDruidCluster (hash : Hash) (o : MapOrders) (m : Druid) (decoding : Decoding := .same) :
    Code Unit :=
  match verifyDruidSpec o m with
  | .error _ => return ()
  | .ok () => do
      let ls := makeLabelsForDruid m
      let commonConfig ← makeCommonConfigMap m ls
      let commonConfigSHA := hash .configMap commonConfig
      let (_, obj) ← sdkCreateOrUpdateAsNeeded hash (makeCommonConfigMap m ls)
        alwaysTrueIsEqualsFn noopUpdaterFn m
      if m.metadata.deletionTimestamp.isSome then executeFinalizers m
      else deployNodes hash o ls commonConfigSHA obj.name m decoding

end DruidOperator.Controller
