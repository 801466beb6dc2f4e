import DruidOperator.ValidSpecs
import DruidOperator.Lib.Dynamic

/-!
# Panics of the builders

`Objects.lean` has the builders as functions that return. Here they are once more as the source
writes them: optional fields are pointers that are followed, the choice between a value of the node
spec and one of the cluster spec goes through `interface{}` and a type assertion, and a map that is
nil cannot be written into. Every such operation may panic, and the builder is the sequence of them.

* `Checked` — the builders with the operations that may panic.
* `buildGroup` — the builders in the order in which `deployDruidCluster` calls them for a node
  group.
* `buildGroup_eq` — all that can fail is the workload; everything else is as in `Objects.lean`.
* `builds_iff` — when no builder of a group panics.
-/

namespace DruidOperator.Controller

open Kube Dynamic

/-- The types that the builders put into an interface. Each is a slice, a map or a pointer. -/
inductive GoType where
  | envVars | envFromSources | affinity | probe | stringMap | securityContext
  | podSecurityContext | localObjectReferences | podDNSConfig | updateStrategy | services
deriving DecidableEq

/-- What a value that is not nil holds. -/
abbrev GoType.Val : GoType → Type
  | envVars => List EnvVar
  | envFromSources => List Json
  | affinity => Json
  | probe => Probe
  | stringMap => StrMap
  | securityContext => Json
  | podSecurityContext => Json
  | localObjectReferences => List Json
  | podDNSConfig => Json
  | updateStrategy => Json
  | services => List (Object Service)

namespace Checked

abbrev Interface := Iface GoType.Val

/-- `firstNonNilValue(v1, v2 interface{}) interface{}`. -/
def firstNonNilValue (v1 v2 : Interface) : Interface := if v1.value.isNone then v2 else v1

/-- `x.(t)`. -/
def assert (x : Interface) (t : GoType) : Except Exit (Option t.Val) := Iface.assert Exit.panic x t

/-- `*p`. -/
def follow {α : Type} (p : Option α) : Except Exit α := deref Exit.panic p

/-- `for k, v := range src { dst[k] = v }`, with `dst` possibly nil. -/
def assign (dst : Option StrMap) (src : StrMap) : Except Exit (Option StrMap) :=
  match dst with
  | some dst => .ok (some (dst.overlay src))
  | none => if src = ∅ then .ok none else .error (.panic "assignment to entry in nil map")

/-! ## Annotations, environment and affinity -/

def makeAnnotationsForWorkload (nodeSpec : DruidNodeSpec) (m : Druid) :
    Except Exit (Option StrMap) :=
  let annotations := if m.spec.workloadAnnotations.isSome then m.spec.workloadAnnotations
    else some ∅
  assign annotations (nodeSpec.workloadAnnotations.getD ∅)

def getEnv (nodeSpec : DruidNodeSpec) (m : Druid) (configMapSHA : String) :
    Except Exit (List EnvVar) := do
  let envHolder : Option (List EnvVar) ←
    assert (firstNonNilValue ⟨.envVars, nodeSpec.env⟩ ⟨.envVars, m.spec.env⟩) .envVars
  return envHolder.getD [] ++ [{ name := "configMapSHA", value := configMapSHA }]

def getEnvFrom (nodeSpec : DruidNodeSpec) (m : Druid) : Except Exit (Option (List Json)) :=
  assert (firstNonNilValue ⟨.envFromSources, nodeSpec.envFrom⟩ ⟨.envFromSources, m.spec.envFrom⟩)
    .envFromSources

/-- A pointer, with the empty struct as the last choice. -/
def getAffinity (nodeSpec : DruidNodeSpec) (m : Druid) : Except Exit (Option Json) := do
  let affinity ←
    assert (firstNonNilValue ⟨.affinity, m.spec.affinity⟩ ⟨.affinity, some emptyStruct⟩) .affinity
  assert (firstNonNilValue ⟨.affinity, nodeSpec.affinity⟩ ⟨.affinity, affinity⟩) .affinity

/-! ## Probes -/

/-- `probe.HTTPGet.Path = path` and `probe.FailureThreshold = 20`. -/
def setReadiness (path : String) (probe : Probe) : Except Exit Probe := do
  let get ← follow probe.httpGet
  return { probe with httpGet := some { get with path := path }, failureThreshold := 20 }

def setDefaultProbe (defaultPort : Int) (nodeType : NodeType) (probeType : ProbeType) :
    Except Exit Probe := do
  let probe : Probe :=
    { httpGet := some { path := "/status/health", port := { intVal := defaultPort } }
      initialDelaySeconds := 5
      timeoutSeconds := 5
      periodSeconds := 10
      successThreshold := 1
      failureThreshold := 10 }
  let probe ← if nodeType = .historical ∧ probeType ≠ .liveness then
    setReadiness "/druid/historical/v1/readiness" probe else pure probe
  let probe ← if nodeType = .broker ∧ probeType ≠ .liveness then
    setReadiness "/druid/broker/v1/readiness" probe else pure probe
  return if nodeType = .historical ∧ probeType = .startup then
    { probe with initialDelaySeconds := 180, periodSeconds := 30, timeoutSeconds := 10 }
  else probe

/-- The conditions of the source from left to right, each following what the one before it
tested. -/
def updateDefaultPortInProbe (probe : Option Probe) (defaultPort : Int) :
    Except Exit (Option Probe) :=
  if probe.isSome then do
    if (← follow probe).httpGet.isSome then do
      let get ← follow (← follow probe).httpGet
      if get.port.intVal = 0 ∧ get.port.strVal = "" then
        return some { (← follow probe) with
          httpGet := some { get with port := { get.port with intVal := defaultPort } } }
      else return probe
    else return probe
  else return probe

/-- The three probes of a container are set alike. -/
def setProbe (probeType : ProbeType) (ofNode ofCluster : Option Probe) (nodeSpec : DruidNodeSpec)
    (m : Druid) : Except Exit (Option Probe) := do
  let probe ← updateDefaultPortInProbe
    (← assert (firstNonNilValue ⟨.probe, ofNode⟩ ⟨.probe, ofCluster⟩) .probe) nodeSpec.druidPort
  if probe.isNone ∧ m.spec.defaultProbes then
    return some (← setDefaultProbe nodeSpec.druidPort nodeSpec.nodeType probeType)
  else return probe

def setLivenessProbe (nodeSpec : DruidNodeSpec) (m : Druid) : Except Exit (Option Probe) :=
  setProbe .liveness nodeSpec.livenessProbe m.spec.livenessProbe nodeSpec m

def setReadinessProbe (nodeSpec : DruidNodeSpec) (m : Druid) : Except Exit (Option Probe) :=
  setProbe .readiness nodeSpec.readinessProbe m.spec.readinessProbe nodeSpec m

def setStartUpProbe (nodeSpec : DruidNodeSpec) (m : Druid) : Except Exit (Option Probe) :=
  setProbe .startup nodeSpec.startUpProbe m.spec.startUpProbe nodeSpec m

/-! ## Pods and workloads -/

def makePodSpec (nodeSpec : DruidNodeSpec) (m : Druid) (uniqueStr configMapSHA : String) :
    Except Exit PodSpec := do
  let mainContainer : Container :=
    { image := firstNonEmptyStr nodeSpec.image m.spec.image
      name := uniqueStr
      command := [firstNonEmptyStr m.spec.startScript "bin/run-druid.sh", nodeSpec.nodeType.text]
      imagePullPolicy := firstNonEmptyStr nodeSpec.imagePullPolicy m.spec.imagePullPolicy
      ports := nodeSpec.ports
      resources := nodeSpec.resources
      env := ← getEnv nodeSpec m configMapSHA
      envFrom := ← getEnvFrom nodeSpec m
      volumeMounts := getVolumeMounts nodeSpec m
      livenessProbe := ← setLivenessProbe nodeSpec m
      readinessProbe := ← setReadinessProbe nodeSpec m
      startupProbe := ← setStartUpProbe nodeSpec m
      lifecycle := nodeSpec.lifecycle
      securityContext := ← assert
        (firstNonNilValue ⟨.securityContext, nodeSpec.containerSecurityContext⟩
          ⟨.securityContext, m.spec.containerSecurityContext⟩) .securityContext }
  let nodeSelector ← assert (firstNonNilValue ⟨.stringMap, nodeSpec.nodeSelector⟩
    ⟨.stringMap, m.spec.nodeSelector⟩) .stringMap
  let affinity ← getAffinity nodeSpec m
  let imagePullSecrets ← assert
    (firstNonNilValue ⟨.localObjectReferences, nodeSpec.imagePullSecrets⟩
      ⟨.localObjectReferences, m.spec.imagePullSecrets⟩) .localObjectReferences
  let securityContext ← assert (firstNonNilValue ⟨.podSecurityContext, nodeSpec.podSecurityContext⟩
    ⟨.podSecurityContext, m.spec.podSecurityContext⟩) .podSecurityContext
  let dnsConfig ← assert (firstNonNilValue ⟨.podDNSConfig, nodeSpec.dnsConfig⟩
    ⟨.podDNSConfig, m.spec.dnsConfig⟩) .podDNSConfig
  return addAdditionalContainers m nodeSpec
    { nodeSelector := nodeSelector
      topologySpreadConstraints := getTopologySpreadConstraints nodeSpec
      tolerations := getTolerations nodeSpec m
      affinity := affinity.getD .null
      imagePullSecrets := imagePullSecrets
      containers := [mainContainer]
      terminationGracePeriodSeconds := nodeSpec.terminationGracePeriodSeconds
      volumes := getVolume nodeSpec m uniqueStr
      securityContext := securityContext
      serviceAccountName := firstNonEmptyStr nodeSpec.serviceAccountName m.spec.serviceAccount
      priorityClassName := firstNonEmptyStr nodeSpec.priorityClassName m.spec.priorityClassName
      dnsPolicy := firstNonEmptyStr nodeSpec.dnsPolicy m.spec.dnsPolicy
      dnsConfig := dnsConfig }

def makePodTemplate (nodeSpec : DruidNodeSpec) (m : Druid) (ls : StrMap)
    (uniqueStr configMapSHA : String) : Except Exit PodTemplateSpec := do
  let annotations ← assert (firstNonNilValue ⟨.stringMap, nodeSpec.podAnnotations⟩
    ⟨.stringMap, m.spec.podAnnotations⟩) .stringMap
  return { labels := ls
           annotations := annotations
           spec := ← makePodSpec nodeSpec m uniqueStr configMapSHA }

def makeStatefulSetSpec (nodeSpec : DruidNodeSpec) (m : Druid) (ls : StrMap)
    (uniqueStr configMapSHA serviceName : String) : Except Exit StatefulSetSpec := do
  let updateStrategy ← assert (firstNonNilValue ⟨.updateStrategy, m.spec.updateStrategy⟩
    ⟨.updateStrategy, some emptyStruct⟩) .updateStrategy
  let updateStrategy ← assert (firstNonNilValue ⟨.updateStrategy, nodeSpec.updateStrategy⟩
    ⟨.updateStrategy, updateStrategy⟩) .updateStrategy
  return { serviceName := serviceName
           selector := ls
           replicas := nodeSpec.replicas
           podManagementPolicy := firstNonEmptyStr
             (firstNonEmptyStr nodeSpec.podManagementPolicy m.spec.podManagementPolicy) "Parallel"
           updateStrategy := ← follow updateStrategy
           template := ← makePodTemplate nodeSpec m ls uniqueStr configMapSHA
           volumeClaimTemplates := getPersistentVolumeClaim nodeSpec m }

def makeStatefulSet (nodeSpec : DruidNodeSpec) (m : Druid) (ls : StrMap)
    (uniqueStr configMapSHA serviceName : String) : Except Exit (Obj .statefulSet) := do
  let annotations ← makeAnnotationsForWorkload nodeSpec m
  let spec ← makeStatefulSetSpec nodeSpec m ls uniqueStr configMapSHA serviceName
  return { apiVersion := "apps/v1"
           kind := "StatefulSet"
           metadata :=
            { name := uniqueStr, annotations := annotations, ns := m.ns, labels := some ls }
           body := { spec := spec } }

def getRollingUpdateStrategy (nodeSpec : DruidNodeSpec) : Except Exit RollingUpdateDeployment :=
  if nodeSpec.maxSurge.isSome ∨ nodeSpec.maxUnavailable.isSome then do
    let maxUnavailable ← follow nodeSpec.maxUnavailable
    let maxSurge ← follow nodeSpec.maxSurge
    return { maxUnavailable := some maxUnavailable, maxSurge := some maxSurge }
  else return {}

def makeDeploymentSpec (nodeSpec : DruidNodeSpec) (m : Druid) (ls : StrMap)
    (uniqueStr configMapSHA : String) : Except Exit DeploymentSpec := do
  let template ← makePodTemplate nodeSpec m ls uniqueStr configMapSHA
  let rollingUpdate ← getRollingUpdateStrategy nodeSpec
  return { selector := ls
           replicas := nodeSpec.replicas
           template := template
           strategyType := "RollingUpdate"
           rollingUpdate := rollingUpdate }

def makeDeployment (nodeSpec : DruidNodeSpec) (m : Druid) (ls : StrMap)
    (uniqueStr configMapSHA : String) : Except Exit (Obj .deployment) := do
  let annotations ← makeAnnotationsForWorkload nodeSpec m
  let spec ← makeDeploymentSpec nodeSpec m ls uniqueStr configMapSHA
  return { apiVersion := "apps/v1"
           kind := "Deployment"
           metadata :=
            { name := uniqueStr, annotations := annotations, ns := m.ns, labels := some ls }
           body := { spec := spec } }

/-! ## The rest of a group -/

/-- `if labels == nil { labels = ls } else { for k, v := range ls { labels[k] = v } }`. -/
def stampLabels (labels : Option StrMap) (ls : StrMap) : Except Exit (Option StrMap) :=
  if labels.isNone then return some ls else assign labels ls

def makeService (svc : Object Service) (nodeSpec : DruidNodeSpec) (m : Druid) (ls : StrMap)
    (uniqueStr : String) : Except Exit (Obj .service) := do
  let labels ← stampLabels svc.metadata.labels ls
  let selector ← stampLabels svc.body.selector ls
  return { apiVersion := "v1"
           kind := "Service"
           metadata := { svc.metadata with
             name := getServiceName svc.name uniqueStr, ns := m.ns, labels := labels }
           body := { svc.body with
             selector := selector
             ports := some (svc.body.ports.getD [{
               name := "service-port"
               port := nodeSpec.druidPort
               targetPort := { intVal := nodeSpec.druidPort } }]) } }

def makeIngress (nodeSpec : DruidNodeSpec) (m : Druid) (ls : StrMap) (uniqueStr : String) :
    Except Exit (Obj .ingress) := do
  let nodeIngressSpec ← follow nodeSpec.ingress
  return Controller.makeIngress nodeIngressSpec nodeSpec m ls uniqueStr

def makePodDisruptionBudget (nodeSpec : DruidNodeSpec) (m : Druid) (ls : StrMap)
    (uniqueStr : String) : Except Exit (Obj .podDisruptionBudget) := do
  let pdbSpec ← follow nodeSpec.podDisruptionBudgetSpec
  return Controller.makePodDisruptionBudget pdbSpec m ls uniqueStr

def makeHorizontalPodAutoscaler (nodeSpec : DruidNodeSpec) (m : Druid) (ls : StrMap)
    (uniqueStr : String) : Except Exit (Obj .horizontalPodAutoscaler) := do
  let nodeHSpec ← follow nodeSpec.hpAutoScaler
  return Controller.makeHorizontalPodAutoscaler nodeHSpec m ls uniqueStr

def makePersistentVolumeClaim (pvc : Object PersistentVolumeClaim) (nodeSpec : DruidNodeSpec)
    (m : Druid) (ls : StrMap) (uniqueStr : String) :
    Except Exit (Obj .persistentVolumeClaim) := do
  let labels ← stampLabels pvc.metadata.labels ls
  let stamped : Obj .persistentVolumeClaim :=
    { apiVersion := "v1"
      kind := "PersistentVolumeClaim"
      metadata := { pvc.metadata with ns := m.ns, labels := labels }
      body := pvc.body }
  return if pvc.name = "" then
    { stamped with metadata := { stamped.metadata with name := uniqueStr } }
  else nodeSpec.persistentVolumeClaim.foldl (fun pvc p =>
    { pvc with metadata := { pvc.metadata with name := p.name }, body := p.body }) stamped

/-! ## What cannot fail

Both values of a choice have the type that is asserted, and what is followed was tested before. -/

theorem assert_firstNonNilValue (t : GoType) (v1 v2 : Option t.Val) :
    assert (firstNonNilValue ⟨t, v1⟩ ⟨t, v2⟩) t = .ok (Controller.firstNonNilValue v1 v2) := by
  cases v1 with
  | none => exact Iface.assert_self _ t v2
  | some a => exact Iface.assert_self _ t (some a)

theorem assert_orElse (t : GoType) (v1 v2 : Option t.Val) (v3 : t.Val) :
    (do
      let v ← assert (firstNonNilValue ⟨t, v2⟩ ⟨t, some v3⟩) t
      assert (firstNonNilValue ⟨t, v1⟩ ⟨t, v⟩) t) =
      .ok (some ((Controller.firstNonNilValue v1 v2).getD v3)) := by
  rw [assert_firstNonNilValue]
  refine (assert_firstNonNilValue t v1 _).trans (congrArg Except.ok ?_)
  cases v1 <;> cases v2 <;> rfl

theorem makeAnnotationsForWorkload_eq (nodeSpec : DruidNodeSpec) (m : Druid) :
    makeAnnotationsForWorkload nodeSpec m =
      .ok (some (Controller.makeAnnotationsForWorkload nodeSpec m)) := by
  unfold makeAnnotationsForWorkload Controller.makeAnnotationsForWorkload
  cases m.spec.workloadAnnotations <;> rfl

theorem getEnv_eq (nodeSpec : DruidNodeSpec) (m : Druid) (configMapSHA : String) :
    getEnv nodeSpec m configMapSHA = .ok (Controller.getEnv nodeSpec m configMapSHA) := by
  rw [getEnv, assert_firstNonNilValue]
  rfl

theorem getEnvFrom_eq (nodeSpec : DruidNodeSpec) (m : Druid) :
    getEnvFrom nodeSpec m = .ok (Controller.getEnvFrom nodeSpec m) :=
  assert_firstNonNilValue ..

theorem getAffinity_eq (nodeSpec : DruidNodeSpec) (m : Druid) :
    getAffinity nodeSpec m = .ok (some (Controller.getAffinity nodeSpec m)) :=
  assert_orElse .affinity _ _ _

theorem setDefaultProbe_eq (defaultPort : Int) (nodeType : NodeType) (probeType : ProbeType) :
    setDefaultProbe defaultPort nodeType probeType =
      .ok (Controller.setDefaultProbe defaultPort nodeType probeType) := by
  cases nodeType <;> cases probeType <;> rfl

theorem updateDefaultPortInProbe_eq (probe : Option Probe) (defaultPort : Int) :
    updateDefaultPortInProbe probe defaultPort =
      .ok (Controller.updateDefaultPortInProbe probe defaultPort) := by
  cases probe with
  | none => rfl
  | some probe =>
      obtain ⟨httpGet⟩ := probe
      cases httpGet with
      | none => rfl
      | some get =>
          by_cases hunset : get.port.intVal = 0 ∧ get.port.strVal = ""
          · simp [updateDefaultPortInProbe, Controller.updateDefaultPortInProbe, follow, hunset,
              bind, Except.bind, pure, Except.pure]
          · simp [updateDefaultPortInProbe, Controller.updateDefaultPortInProbe, follow, hunset,
              bind, Except.bind, pure, Except.pure]

theorem setProbe_eq (probeType : ProbeType) (ofNode ofCluster : Option Probe)
    (nodeSpec : DruidNodeSpec) (m : Druid) :
    setProbe probeType ofNode ofCluster nodeSpec m =
      .ok (Controller.setProbe probeType ofNode ofCluster nodeSpec m) := by
  unfold setProbe Controller.setProbe
  simp only [assert_firstNonNilValue, updateDefaultPortInProbe_eq, setDefaultProbe_eq, bind,
    Except.bind, pure, Except.pure]
  cases Controller.updateDefaultPortInProbe (Controller.firstNonNilValue ofNode ofCluster)
      nodeSpec.druidPort with
  | some probe => simp
  | none =>
      by_cases hdefault : m.spec.defaultProbes = true
      · simp [hdefault]
      · simp [hdefault]

/-! ### Pods and workloads -/

theorem makePodSpec_eq (nodeSpec : DruidNodeSpec) (m : Druid) (uniqueStr configMapSHA : String) :
    makePodSpec nodeSpec m uniqueStr configMapSHA =
      .ok (Controller.makePodSpec nodeSpec m uniqueStr configMapSHA) := by
  simp only [makePodSpec, getEnv_eq, getEnvFrom_eq, setLivenessProbe, setReadinessProbe,
    setStartUpProbe, setProbe_eq, assert_firstNonNilValue, getAffinity_eq, bind, Except.bind, pure,
    Except.pure, Option.getD_some]
  rfl

theorem makePodTemplate_eq (nodeSpec : DruidNodeSpec) (m : Druid) (ls : StrMap)
    (uniqueStr configMapSHA : String) :
    makePodTemplate nodeSpec m ls uniqueStr configMapSHA =
      .ok (Controller.makePodTemplate nodeSpec m ls uniqueStr configMapSHA) := by
  simp only [makePodTemplate, assert_firstNonNilValue, makePodSpec_eq]
  rfl

theorem makeStatefulSetSpec_eq (nodeSpec : DruidNodeSpec) (m : Druid) (ls : StrMap)
    (uniqueStr configMapSHA serviceName : String) :
    makeStatefulSetSpec nodeSpec m ls uniqueStr configMapSHA serviceName =
      .ok (Controller.makeStatefulSetSpec nodeSpec m ls uniqueStr configMapSHA serviceName) := by
  have hstrategy := assert_orElse .updateStrategy nodeSpec.updateStrategy m.spec.updateStrategy
    emptyStruct
  rw [makeStatefulSetSpec, ← bind_assoc, hstrategy]
  simp only [follow, deref_some, makePodTemplate_eq, bind, Except.bind]
  rfl

theorem makeStatefulSet_eq (nodeSpec : DruidNodeSpec) (m : Druid) (ls : StrMap)
    (uniqueStr configMapSHA serviceName : String) :
    makeStatefulSet nodeSpec m ls uniqueStr configMapSHA serviceName =
      .ok (Controller.makeStatefulSet nodeSpec m ls uniqueStr configMapSHA serviceName) := by
  simp only [makeStatefulSet, makeAnnotationsForWorkload_eq, makeStatefulSetSpec_eq]
  rfl

theorem getRollingUpdateStrategy_eq (nodeSpec : DruidNodeSpec) :
    getRollingUpdateStrategy nodeSpec = Controller.getRollingUpdateStrategy nodeSpec := by
  unfold getRollingUpdateStrategy Controller.getRollingUpdateStrategy
  cases nodeSpec.maxUnavailable <;> cases nodeSpec.maxSurge <;> rfl

theorem makeDeployment_eq (nodeSpec : DruidNodeSpec) (m : Druid) (ls : StrMap)
    (uniqueStr configMapSHA : String) :
    makeDeployment nodeSpec m ls uniqueStr configMapSHA =
      Controller.makeDeployment nodeSpec m ls uniqueStr configMapSHA := by
  simp only [makeDeployment, makeDeploymentSpec, makeAnnotationsForWorkload_eq, makePodTemplate_eq,
    getRollingUpdateStrategy_eq, Controller.makeDeployment]
  cases Controller.getRollingUpdateStrategy nodeSpec <;> rfl

/-! ### The rest -/

theorem stampLabels_eq (labels : Option StrMap) (ls : StrMap) :
    stampLabels labels ls = .ok (some (Controller.stampLabels labels ls)) := by
  cases labels <;> rfl

theorem makeService_eq (svc : Object Service) (nodeSpec : DruidNodeSpec) (m : Druid) (ls : StrMap)
    (uniqueStr : String) :
    makeService svc nodeSpec m ls uniqueStr =
      .ok (Controller.makeService svc nodeSpec m ls uniqueStr) := by
  simp only [makeService, stampLabels_eq]
  rfl

theorem makePersistentVolumeClaim_eq (pvc : Object PersistentVolumeClaim)
    (nodeSpec : DruidNodeSpec) (m : Druid) (ls : StrMap) (uniqueStr : String) :
    makePersistentVolumeClaim pvc nodeSpec m ls uniqueStr =
      .ok (Controller.makePersistentVolumeClaim pvc nodeSpec m ls uniqueStr) := by
  simp only [makePersistentVolumeClaim, stampLabels_eq]
  rfl

/-! ## A node group -/

/-- `if p != nil { ... }` around one builder. -/
def guarded (set : Bool) {k : Kind} (build : Except Exit (Obj k)) :
    Except Exit (List (Sigma Obj)) :=
  if set then build.map fun obj => [⟨k, obj⟩] else .ok []

theorem guarded_follow {α : Type} (p : Option α) {k : Kind} (make : α → Obj k) :
    guarded p.isSome (do return make (← follow p)) =
      .ok (p.map fun a => (⟨k, make a⟩ : Sigma Obj)).toList := by
  cases p <;> rfl

section Group

variable (hash : Hash) (commonConfigSHA : String) (ls : StrMap) (m : Druid) (g : ServiceGroup)

def buildWorkload : Except Exit (Sigma Obj) :=
  if g.spec.kind = "Deployment" then
    (makeDeployment (withDruidPort g.spec) (afterServices hash m g) (groupLabels m g)
      (groupName m g)
      (groupConfigSHA hash commonConfigSHA m g)).map (Sigma.mk .deployment)
  else
    (makeStatefulSet (withDruidPort g.spec) (afterServices hash m g) (groupLabels m g)
      (groupName m g)
      (groupConfigSHA hash commonConfigSHA m g)
      (firstServiceName ((plannedServices hash m g).map Object.name))).map (Sigma.mk .statefulSet)

/-- The builders in the order in which `deployDruidCluster` calls them for a node group. -/
def buildGroup : Except Exit (List (Sigma Obj)) := do
  let nodeConfig := makeConfigMapForNodeSpec g.spec m (groupLabels m g) (groupName m g)
  let services ← assert (firstNonNilValue ⟨.services, g.spec.services⟩ ⟨.services, m.spec.services⟩)
    .services
  let services ← (services.getD []).mapM fun svc =>
    makeService svc g.spec m (groupLabels m g) (groupName m g)
  let workload ← buildWorkload hash commonConfigSHA m g
  let nodeSpec := withDruidPort g.spec
  let ingress ← guarded nodeSpec.ingress.isSome (makeIngress nodeSpec m ls (groupName m g))
  let budget ← guarded nodeSpec.podDisruptionBudgetSpec.isSome
    (makePodDisruptionBudget nodeSpec m (groupLabels m g) (groupName m g))
  let autoscaler ← guarded nodeSpec.hpAutoScaler.isSome
    (makeHorizontalPodAutoscaler nodeSpec m ls (groupName m g))
  let claims ← nodeSpec.persistentVolumeClaim.mapM fun pvc =>
    makePersistentVolumeClaim pvc nodeSpec m (groupLabels m g) (groupName m g)
  return [⟨.configMap, nodeConfig⟩] ++ services.map (Sigma.mk .service) ++ [workload] ++ ingress ++
    budget ++ autoscaler ++ claims.map (Sigma.mk .persistentVolumeClaim)

end Group

end Checked

section Group

variable (hash : Hash) (commonConfigSHA : String) (ls : StrMap) (m : Druid) (g : ServiceGroup)

/-- The objects of a group before owner reference and hash, around its workload. -/
def builtObjects (workload : Sigma Obj) : List (Sigma Obj) :=
  [⟨.configMap, groupConfig m g⟩] ++
  ((serviceTemplates m g).map fun svc =>
    makeService svc g.spec m (groupLabels m g) (groupName m g)).map (Sigma.mk .service) ++
  [workload] ++
  (g.spec.ingress.map fun spec =>
    (⟨.ingress, makeIngress spec (withDruidPort g.spec) m ls (groupName m g)⟩ : Sigma
      Obj)).toList ++
  (g.spec.podDisruptionBudgetSpec.map fun spec =>
    (⟨.podDisruptionBudget, makePodDisruptionBudget spec m (groupLabels m g) (groupName m g)⟩ :
      Sigma Obj)).toList ++
  (g.spec.hpAutoScaler.map fun spec =>
    (⟨.horizontalPodAutoscaler, makeHorizontalPodAutoscaler spec m ls (groupName m g)⟩ :
      Sigma Obj)).toList ++
  (g.spec.persistentVolumeClaim.map fun pvc => makePersistentVolumeClaim pvc
    (withDruidPort g.spec) m
    (groupLabels m g) (groupName m g)).map (Sigma.mk .persistentVolumeClaim)

/-- **What can fail is the workload.** -/
theorem buildGroup_eq :
    Checked.buildGroup hash commonConfigSHA ls m g =
      (Checked.buildWorkload hash commonConfigSHA m g).map (builtObjects ls m g) := by
  have hservices : ((serviceTemplates m g).mapM fun svc =>
      Checked.makeService svc g.spec m (groupLabels m g) (groupName m g)) =
      .ok ((serviceTemplates m g).map fun svc =>
        makeService svc g.spec m (groupLabels m g) (groupName m g)) :=
    mapM_ok fun svc _ => Checked.makeService_eq ..
  have hclaims : ((withDruidPort g.spec).persistentVolumeClaim.mapM fun pvc =>
      Checked.makePersistentVolumeClaim pvc (withDruidPort g.spec) m (groupLabels m g)
        (groupName m g)) =
      .ok (g.spec.persistentVolumeClaim.map fun pvc => makePersistentVolumeClaim pvc
        (withDruidPort g.spec) m (groupLabels m g) (groupName m g)) :=
    mapM_ok fun pvc _ => Checked.makePersistentVolumeClaim_eq ..
  simp only [Checked.buildGroup, Checked.assert_firstNonNilValue]
  show Except.bind ((serviceTemplates m g).mapM _) _ = _
  rw [hservices]
  show Except.bind (Checked.buildWorkload hash commonConfigSHA m g) _ = _
  cases Checked.buildWorkload hash commonConfigSHA m g with
  | error e => rfl
  | ok workload =>
      have hingress := Checked.guarded_follow (withDruidPort g.spec).ingress fun spec =>
        makeIngress spec (withDruidPort g.spec) m ls (groupName m g)
      have hbudget :=
        Checked.guarded_follow (withDruidPort g.spec).podDisruptionBudgetSpec fun spec =>
        makePodDisruptionBudget spec m (groupLabels m g) (groupName m g)
      have hautoscaler := Checked.guarded_follow (withDruidPort g.spec).hpAutoScaler fun spec =>
        makeHorizontalPodAutoscaler spec m ls (groupName m g)
      simp only [Checked.makeIngress, Checked.makePodDisruptionBudget,
        Checked.makeHorizontalPodAutoscaler, Except.bind, hingress, hbudget, hautoscaler, hclaims]
      rfl

theorem buildWorkload_isOk_iff :
    (∃ workload, Checked.buildWorkload hash commonConfigSHA m g = .ok workload) ↔
      MakesWorkload g := by
  unfold Checked.buildWorkload
  by_cases hkind : g.spec.kind = "Deployment"
  · rw [if_pos hkind, Checked.makeDeployment_eq, makesWorkload_iff hkind, makeDeployment]
    cases getRollingUpdateStrategy (withDruidPort g.spec) with
    | error e => simp [Except.map, bind, Except.bind]
    | ok ru => simp [Except.map, bind, Except.bind, pure, Except.pure]
  · rw [if_neg hkind, Checked.makeStatefulSet_eq]
    exact ⟨fun _ hkind' => absurd hkind' hkind, fun _ => ⟨_, rfl⟩⟩

end Group

/-- **The builders of a node group.** For every resource, accepted or not, as any groups before it
left it: no builder panics exactly if the group is no Deployment or has both bounds of a rolling
update or none of them. -/
theorem builds_iff (hash : Hash) (commonConfigSHA : String) (m : Druid) (done : List ServiceGroup)
    (g : ServiceGroup) :
    (∃ objs, Checked.buildGroup hash commonConfigSHA (makeLabelsForDruid m)
        (seenAfter hash commonConfigSHA m done) g = .ok objs) ↔
      (g.spec.kind = "Deployment" → g.spec.maxUnavailable.isSome = g.spec.maxSurge.isSome) := by
  rw [buildGroup_eq]
  refine Iff.trans ?_ (buildWorkload_isOk_iff hash commonConfigSHA
    (seenAfter hash commonConfigSHA m done) g)
  cases Checked.buildWorkload hash commonConfigSHA (seenAfter hash commonConfigSHA m done) g with
  | error e => simp [Except.map]
  | ok workload => exact ⟨fun _ => ⟨workload, rfl⟩, fun _ => ⟨_, rfl⟩⟩

/-- A broker that may surge, with no bound on how many may be unavailable. -/
def surgingBroker : ServiceGroup :=
  ⟨"b", {
    nodeType := .broker
    druidPort := 8082
    kind := "Deployment"
    maxSurge := some 1 }⟩

def surgingCluster : Druid where
  metadata := { name := "c", ns := "d" }
  body := { spec := { image := "v1", nodes := ⟨[surgingBroker], by simp⟩ } }

/-- The bound that is not set is followed because the other one is. -/
theorem surging_panics :
    verifyDruidSpec {} surgingCluster = .ok () ∧
    surgingBroker ∈ getNodeSpecsByOrder .asStored surgingCluster ∧
    Checked.buildGroup (fun _ _ => "") "" (makeLabelsForDruid surgingCluster) surgingCluster
      surgingBroker = .error (.panic "invalid memory address or nil pointer dereference") := by
  have hkind : surgingBroker.spec.kind = "Deployment" := rfl
  refine ⟨by decide +kernel, List.mem_singleton_self _, ?_⟩
  rw [buildGroup_eq, Checked.buildWorkload, if_pos hkind, Checked.makeDeployment_eq]
  rfl

end DruidOperator.Controller
