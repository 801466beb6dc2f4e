import DruidOperator.ApiServer
import DruidOperator.Sprintf

/-!
# The objects of a cluster

How the controller builds the Kubernetes objects of a `Druid` resource: labels, annotations,
ConfigMaps, services, pod templates, workloads, claims. Every function is pure. Where the source
writes into a map or a probe that belongs to the resource itself, the value it leaves there is a
definition of its own (`clusterServicesAfter`, `clusterProbeAfter`), so that the caller can carry
it on to the next node group.
-/

namespace DruidOperator.Controller

open Interaction Kube

/-- `getObjectHash`: the digest of the encoded object. -/
abbrev Hash := (k : Kind) → Obj k → String

def druidOpResourceHash : String := "druidOpResourceHash"

def defaultCommonConfigMountPath : String := "/druid/conf/druid/_common"

def firstNonEmptyStr (s1 s2 : String) : String := if s1 ≠ "" then s1 else s2

/-- `firstNonNilValue`. -/
def firstNonNilValue {α : Type} (v1 v2 : Option α) : Option α := v1.or v2

/-! ## Names, labels and annotations -/

def makeNodeSpecificUniqueString (m : Druid) (key : String) : String :=
  "druid-" ++ m.name ++ "-" ++ key

/-- The labels for selecting the resources that belong to the given `Druid` object. -/
def makeLabelsForDruid (druid : Druid) : StrMap :=
  (Finmap.singleton "druid_cr" druid.name).insert "app" "druid"

/-- The labels of a node group: those of the pods, cluster level first, and the four reserved
ones over them. -/
def makeLabelsForNodeSpec (nodeSpec : DruidNodeSpec) (m : Druid) (clusterName uniqueStr : String) :
    StrMap :=
  (((((m.spec.podLabels.getD ∅).overlay (nodeSpec.podLabels.getD ∅)).insert "app" "druid").insert
    "druid_cr" clusterName).insert "nodeSpecUniqueStr" uniqueStr).insert
    "component" nodeSpec.nodeType.text

/-- The annotations of a workload. The source writes those of the node group into the map of the
cluster spec, where there is one, and returns that map. -/
def makeAnnotationsForWorkload (nodeSpec : DruidNodeSpec) (m : Druid) : StrMap :=
  (m.spec.workloadAnnotations.getD ∅).overlay (nodeSpec.workloadAnnotations.getD ∅)

def asOwner (m : Druid) : OwnerReference where
  apiVersion := m.apiVersion
  kind := m.kind
  name := m.name
  uid := m.metadata.uid
  controller := some true

def addOwnerRefToObject {k : Kind} (obj : Obj k) (ownerRef : OwnerReference) : Obj k :=
  { obj with metadata := { obj.metadata with
    ownerReferences := obj.metadata.ownerReferences ++ [ownerRef] } }

def addHashToObject (hash : Hash) {k : Kind} (obj : Obj k) : Obj k :=
  { obj with metadata := { obj.metadata with
    annotations :=
      some ((obj.metadata.annotations.getD ∅).insert druidOpResourceHash (hash k obj)) } }

/-- `obj.GetAnnotations()[druidOpResourceHash]`. -/
def hashOf {k : Kind} (obj : Obj k) : String :=
  StrMap.getD obj.metadata.annotations druidOpResourceHash

/-! ## ConfigMaps -/

def makeConfigMap (name ns : String) (labels data : StrMap) : Obj .configMap where
  apiVersion := "v1"
  kind := "ConfigMap"
  metadata := { name := name, ns := ns, labels := some labels }
  body := data

def makeConfigMapForNodeSpec (nodeSpec : DruidNodeSpec) (m : Druid) (lm : StrMap)
    (uniqueStr : String) : Obj .configMap :=
  let data := (Finmap.singleton "runtime.properties"
      ("druid.port=" ++ toString nodeSpec.druidPort ++ "\n" ++ nodeSpec.runtimeProperties)).insert
    "jvm.config"
      (firstNonEmptyStr nodeSpec.jvmOptions m.spec.jvmOptions ++ "\n" ++ nodeSpec.extraJvmOptions)
  let log4jconfig := firstNonEmptyStr nodeSpec.log4jConfig m.spec.log4jConfig
  makeConfigMap (uniqueStr ++ "-config") m.ns lm
    (if log4jconfig ≠ "" then data.insert "log4j2.xml" log4jconfig else data)

def getNodeConfigMountPath (nodeSpec : DruidNodeSpec) : String :=
  "/druid/conf/druid/" ++ nodeSpec.nodeType.text

/-- What an `UnmarshalTypeError` calls a value. -/
def valueText : Json → String
  | .null => "null"
  | .bool _ => "bool"
  | .num _ => "number"
  | .str _ => "string"
  | .arr _ => "array"
  | .obj _ => "object"

/-- The struct `ext.DefaultZkManager` and its like: one field `properties`. A value of another
type is an error, `null` leaves the field as it was. -/
def decodeProperties (struct : String) : String → List (String × Json) → Except String String
  | acc, [] => .ok acc
  | acc, (k, x) :: fs =>
      if Json.foldName k = "properties".toList then
        match x with
        | .str s => decodeProperties struct s fs
        | .null => decodeProperties struct acc fs
        | _ =>
            .error ("json: cannot unmarshal " ++ valueText x ++ " into Go struct field " ++
              struct ++ ".properties of type string")
      else decodeProperties struct acc fs

/-- `json.Unmarshal`. The text was decoded with the resource, so that it is JSON, or empty where the
field is missing. -/
def unmarshalManager (struct text : String) : Except String String :=
  match Json.parse text with
  | none => .error "unexpected end of JSON input"
  | some .null => .ok ""
  | some (.obj fs) => decodeProperties struct "" fs
  | some x =>
      .error ("json: cannot unmarshal " ++ valueText x ++ " into Go value of type ext." ++ struct)

/-- The configuration of an external service: its type must be registered, and its text must
decode. -/
def managerConfiguration (what mgmt struct : String) (spec : ExtensionSpec) : Except Error String :=
  if spec.type = "default" then
    (unmarshalManager struct spec.spec).mapError fun err =>
      ⟨"Couldn't unmarshall " ++ what ++ " type[" ++ spec.type ++ "]. Error[" ++ err ++ "].", false⟩
  else .error ⟨"Can't find type[" ++ spec.type ++ "] for " ++ mgmt ++ " Mgmt.", false⟩

def createZookeeperManager : ExtensionSpec → Except Error String :=
  managerConfiguration "zk" "Zookeeper" "DefaultZkManager"

def createMetadataStoreManager : ExtensionSpec → Except Error String :=
  managerConfiguration "metadataStore" "MetadataStore" "DefaultMetadataStoreManager"

def createDeepStorageManager : ExtensionSpec → Except Error String :=
  managerConfiguration "deepStorage" "DeepStorage" "DefaultDeepStorageManager"

/-- Append the configuration of an external service, if the resource names one. -/
def addConfiguration (create : ExtensionSpec → Except Error String) (spec : Option ExtensionSpec)
    (prop : String) : Except Error String :=
  match spec with
  | none => .ok prop
  | some spec => (create spec).map fun configuration => prop ++ "\n" ++ configuration ++ "\n"

/-- Add a file that has a content. -/
def addFile (name content : String) (data : StrMap) : StrMap :=
  if content ≠ "" then data.insert name content else data

/-- The data of the common ConfigMap before the extra files are added. -/
def commonConfigData (m : Druid) : Except Error StrMap := do
  let prop ← addConfiguration createZookeeperManager m.spec.zookeeper m.spec.commonRuntimeProperties
  let prop ← addConfiguration createMetadataStoreManager m.spec.metadataStore prop
  let prop ← addConfiguration createDeepStorageManager m.spec.deepStorage prop
  return addFile "core-site.xml" m.spec.coreSite
    (addFile "hdfs-site.xml" m.spec.hdfsSite
      (addFile "metricDimensions.json" m.spec.dimensionsMapPath
        (Finmap.singleton "common.runtime.properties" prop)))

def commonConfigName (m : Druid) : String := m.name ++ "-druid-common-config"

/-! ## Services -/

def getServiceName (nameTemplate uniqueStr : String) : String :=
  if nameTemplate = "" then uniqueStr else Fmt.sprintf nameTemplate [uniqueStr]

/-- The labels of the group over those of a template that has any. -/
def stampLabels (template : Option StrMap) (ls : StrMap) : StrMap :=
  match template with
  | none => ls
  | some labels => labels.overlay ls

theorem lookup_stampLabels (template : Option StrMap) {ls : StrMap} {key value : String}
    (hkey : ls.lookup key = some value) : (stampLabels template ls).lookup key = some value := by
  unfold stampLabels
  cases template with
  | none => exact hkey
  | some labels =>
      have hmem : key ∈ ls := Finmap.mem_iff.2 ⟨value, hkey⟩
      dsimp only
      rw [StrMap.lookup_overlay, if_pos hmem, hkey]

def makeService (svc : Object Service) (nodeSpec : DruidNodeSpec) (m : Druid) (ls : StrMap)
    (uniqueStr : String) : Obj .service where
  apiVersion := "v1"
  kind := "Service"
  metadata := { svc.metadata with
    name := getServiceName svc.name uniqueStr
    ns := m.ns
    labels := some (stampLabels svc.metadata.labels ls) }
  body := { svc.body with
    selector := some (stampLabels svc.body.selector ls)
    ports := some (svc.body.ports.getD [{
      name := "service-port"
      port := nodeSpec.druidPort
      targetPort := { intVal := nodeSpec.druidPort } }]) }

/-- A map of a template that is not nil is the map of the object made from it. -/
def sharedMap (template made : Option StrMap) : Option StrMap :=
  if template.isSome then made else none

/-- What is left of a service template once `made` was made from it and hashed. -/
def serviceTemplateAfter (svc : Object Service) (made : Obj .service) : Object Service :=
  { svc with
    metadata := { svc.metadata with
      labels := sharedMap svc.metadata.labels made.metadata.labels
      annotations := sharedMap svc.metadata.annotations made.metadata.annotations }
    body := { svc.body with selector := sharedMap svc.body.selector made.body.selector } }

/-! ## Pods -/

def getPersistentVolumeClaim (nodeSpec : DruidNodeSpec) (m : Druid) :
    List (Object PersistentVolumeClaim) :=
  m.spec.volumeClaimTemplates ++ nodeSpec.volumeClaimTemplates

def getVolumeMounts (nodeSpec : DruidNodeSpec) (m : Druid) : List VolumeMount :=
  [{ mountPath := firstNonEmptyStr m.spec.commonConfigMountPath defaultCommonConfigMountPath
     name := "common-config-volume"
     readOnly := true },
   { mountPath := firstNonEmptyStr nodeSpec.nodeConfigMountPath (getNodeConfigMountPath nodeSpec)
     name := "nodetype-config-volume"
     readOnly := true }] ++ m.spec.volumeMounts ++ nodeSpec.volumeMounts

def getTolerations (nodeSpec : DruidNodeSpec) (m : Druid) : List Json :=
  m.spec.tolerations ++ nodeSpec.tolerations

def getTopologySpreadConstraints (nodeSpec : DruidNodeSpec) : List Json :=
  nodeSpec.topologySpreadConstraints

def getVolume (nodeSpec : DruidNodeSpec) (m : Druid) (uniqueStr : String) : List Volume :=
  [{ name := "common-config-volume", source := .configMap (commonConfigName m) },
   { name := "nodetype-config-volume", source := .configMap (uniqueStr ++ "-config") }] ++
    m.spec.volumes ++ nodeSpec.volumes

/-- The hash of the configuration in the environment forces a redeployment when it changes. -/
def getEnv (nodeSpec : DruidNodeSpec) (m : Druid) (configMapSHA : String) : List EnvVar :=
  (firstNonNilValue nodeSpec.env m.spec.env).getD [] ++
    [{ name := "configMapSHA", value := configMapSHA }]

def getEnvFrom (nodeSpec : DruidNodeSpec) (m : Druid) : Option (List Json) :=
  firstNonNilValue nodeSpec.envFrom m.spec.envFrom

/-- The empty `v1.Affinity` or `appsv1.StatefulSetUpdateStrategy`. -/
def emptyStruct : Json := .obj []

def getAffinity (nodeSpec : DruidNodeSpec) (m : Druid) : Json :=
  (firstNonNilValue nodeSpec.affinity m.spec.affinity).getD emptyStruct

/-! ### Probes -/

inductive ProbeType where
  | liveness | readiness | startup
deriving DecidableEq

def setDefaultProbe (defaultPort : Int) (nodeType : NodeType) (probeType : ProbeType) : Probe :=
  let probe : Probe :=
    { httpGet := some { path := "/status/health", port := { intVal := defaultPort } }
      initialDelaySeconds := 5
      timeoutSeconds := 5
      periodSeconds := 10
      successThreshold := 1
      failureThreshold := 10 }
  let ready (path : String) (probe : Probe) : Probe :=
    { probe with
      httpGet := some { path := path, port := { intVal := defaultPort } }
      failureThreshold := 20 }
  let probe := if nodeType = .historical ∧ probeType ≠ .liveness then
    ready "/druid/historical/v1/readiness" probe else probe
  let probe := if nodeType = .broker ∧ probeType ≠ .liveness then
    ready "/druid/broker/v1/readiness" probe else probe
  if nodeType = .historical ∧ probeType = .startup then
    { probe with initialDelaySeconds := 180, periodSeconds := 30, timeoutSeconds := 10 }
  else probe

/-- An HTTP probe whose port is not set gets the port of the group. -/
def updateDefaultPortInProbe (probe : Option Probe) (defaultPort : Int) : Option Probe :=
  probe.map fun probe => { probe with
    httpGet := probe.httpGet.map fun get =>
      if get.port.intVal = 0 ∧ get.port.strVal = "" then
        { get with port := { get.port with intVal := defaultPort } }
      else get }

/-- The three probes of a container are set alike. -/
def setProbe (probeType : ProbeType) (ofNode ofCluster : Option Probe) (nodeSpec : DruidNodeSpec)
    (m : Druid) : Option Probe :=
  match updateDefaultPortInProbe (firstNonNilValue ofNode ofCluster) nodeSpec.druidPort with
  | some probe => some probe
  | none =>
      if m.spec.defaultProbes then
        some (setDefaultProbe nodeSpec.druidPort nodeSpec.nodeType probeType)
      else none

def setLivenessProbe (nodeSpec : DruidNodeSpec) (m : Druid) : Option Probe :=
  setProbe .liveness nodeSpec.livenessProbe m.spec.livenessProbe nodeSpec m

def setReadinessProbe (nodeSpec : DruidNodeSpec) (m : Druid) : Option Probe :=
  setProbe .readiness nodeSpec.readinessProbe m.spec.readinessProbe nodeSpec m

def setStartUpProbe (nodeSpec : DruidNodeSpec) (m : Druid) : Option Probe :=
  setProbe .startup nodeSpec.startUpProbe m.spec.startUpProbe nodeSpec m

/-- The probe of the cluster spec after a group was given it: the port is written into the one
probe they share. -/
def clusterProbeAfter (ofNode ofCluster : Option Probe) (druidPort : Int) : Option Probe :=
  if ofNode.isSome then ofCluster else updateDefaultPortInProbe ofCluster druidPort

/-! ### Containers -/

def getAllAdditionalContainers (m : Druid) (nodeSpec : DruidNodeSpec) : List AdditionalContainer :=
  m.spec.additionalContainer ++ nodeSpec.additionalContainer

def convertAdditionalContainer (additional : AdditionalContainer) : Container where
  image := additional.image
  name := additional.containerName
  resources := additional.resources
  volumeMounts := additional.volumeMounts
  command := additional.command
  args := additional.args
  imagePullPolicy := additional.imagePullPolicy
  securityContext := additional.containerSecurityContext
  env := additional.env
  envFrom := additional.envFrom

def addAdditionalContainers (m : Druid) (nodeSpec : DruidNodeSpec) (podSpec : PodSpec) : PodSpec :=
  (getAllAdditionalContainers m nodeSpec).foldl (fun podSpec additional =>
    let container := convertAdditionalContainer additional
    if additional.runAsInit then
      { podSpec with initContainers := podSpec.initContainers ++ [container] }
    else { podSpec with containers := podSpec.containers ++ [container] }) podSpec

def makePodSpec (nodeSpec : DruidNodeSpec) (m : Druid) (uniqueStr configMapSHA : String) :
    PodSpec :=
  let mainContainer : Container :=
    { image := firstNonEmptyStr nodeSpec.image m.spec.image
      name := uniqueStr
      command := [firstNonEmptyStr m.spec.startScript "bin/run-druid.sh", nodeSpec.nodeType.text]
      imagePullPolicy := firstNonEmptyStr nodeSpec.imagePullPolicy m.spec.imagePullPolicy
      ports := nodeSpec.ports
      resources := nodeSpec.resources
      env := getEnv nodeSpec m configMapSHA
      envFrom := getEnvFrom nodeSpec m
      volumeMounts := getVolumeMounts nodeSpec m
      livenessProbe := setLivenessProbe nodeSpec m
      readinessProbe := setReadinessProbe nodeSpec m
      startupProbe := setStartUpProbe nodeSpec m
      lifecycle := nodeSpec.lifecycle
      securityContext :=
        firstNonNilValue nodeSpec.containerSecurityContext m.spec.containerSecurityContext }
  addAdditionalContainers m nodeSpec
    { nodeSelector := firstNonNilValue nodeSpec.nodeSelector m.spec.nodeSelector
      topologySpreadConstraints := getTopologySpreadConstraints nodeSpec
      tolerations := getTolerations nodeSpec m
      affinity := getAffinity nodeSpec m
      imagePullSecrets := firstNonNilValue nodeSpec.imagePullSecrets m.spec.imagePullSecrets
      containers := [mainContainer]
      terminationGracePeriodSeconds := nodeSpec.terminationGracePeriodSeconds
      volumes := getVolume nodeSpec m uniqueStr
      securityContext := firstNonNilValue nodeSpec.podSecurityContext m.spec.podSecurityContext
      serviceAccountName := firstNonEmptyStr nodeSpec.serviceAccountName m.spec.serviceAccount
      priorityClassName := firstNonEmptyStr nodeSpec.priorityClassName m.spec.priorityClassName
      dnsPolicy := firstNonEmptyStr nodeSpec.dnsPolicy m.spec.dnsPolicy
      dnsConfig := firstNonNilValue nodeSpec.dnsConfig m.spec.dnsConfig }

def makePodTemplate (nodeSpec : DruidNodeSpec) (m : Druid) (ls : StrMap)
    (uniqueStr configMapSHA : String) : PodTemplateSpec where
  labels := ls
  annotations := firstNonNilValue nodeSpec.podAnnotations m.spec.podAnnotations
  spec := makePodSpec nodeSpec m uniqueStr configMapSHA

/-! ## Workloads -/

def makeStatefulSetSpec (nodeSpec : DruidNodeSpec) (m : Druid) (ls : StrMap)
    (uniqueStr configMapSHA serviceName : String) : StatefulSetSpec where
  serviceName := serviceName
  selector := ls
  replicas := nodeSpec.replicas
  podManagementPolicy := firstNonEmptyStr
    (firstNonEmptyStr nodeSpec.podManagementPolicy m.spec.podManagementPolicy) "Parallel"
  updateStrategy :=
    (firstNonNilValue nodeSpec.updateStrategy m.spec.updateStrategy).getD emptyStruct
  template := makePodTemplate nodeSpec m ls uniqueStr configMapSHA
  volumeClaimTemplates := getPersistentVolumeClaim nodeSpec m

def makeStatefulSet (nodeSpec : DruidNodeSpec) (m : Druid) (ls : StrMap)
    (uniqueStr configMapSHA serviceName : String) : Obj .statefulSet where
  apiVersion := "apps/v1"
  kind := "StatefulSet"
  metadata :=
    { name := uniqueStr
      annotations := some (makeAnnotationsForWorkload nodeSpec m)
      ns := m.ns
      labels := some ls }
  body := { spec := makeStatefulSetSpec nodeSpec m ls uniqueStr configMapSHA serviceName }

/-- Both bounds are dereferenced as soon as one of them is set. -/
def getRollingUpdateStrategy (nodeSpec : DruidNodeSpec) : Except Exit RollingUpdateDeployment :=
  match nodeSpec.maxUnavailable, nodeSpec.maxSurge with
  | none, none => .ok {}
  | some maxUnavailable, some maxSurge =>
      .ok { maxUnavailable := some maxUnavailable, maxSurge := some maxSurge }
  | _, _ => .error (.panic "invalid memory address or nil pointer dereference")

def makeDeploymentSpec (nodeSpec : DruidNodeSpec) (m : Druid) (ls : StrMap)
    (uniqueStr configMapSHA : String) (rollingUpdate : RollingUpdateDeployment) :
    DeploymentSpec where
  selector := ls
  replicas := nodeSpec.replicas
  template := makePodTemplate nodeSpec m ls uniqueStr configMapSHA
  strategyType := "RollingUpdate"
  rollingUpdate := rollingUpdate

def makeDeployment (nodeSpec : DruidNodeSpec) (m : Druid) (ls : StrMap)
    (uniqueStr configMapSHA : String) : Except Exit (Obj .deployment) := do
  let rollingUpdate ← getRollingUpdateStrategy nodeSpec
  return {
    apiVersion := "apps/v1"
    kind := "Deployment"
    metadata :=
      { name := uniqueStr
        annotations := some (makeAnnotationsForWorkload nodeSpec m)
        ns := m.ns
        labels := some ls }
    body := { spec := makeDeploymentSpec nodeSpec m ls uniqueStr configMapSHA rollingUpdate } }

/-- The resource after the workload of a group was made and hashed: the annotations and the
probes the workload shares with the cluster spec keep what was written into them. -/
def druidAfterWorkload (m : Druid) (nodeSpec : DruidNodeSpec) (annotations : Option StrMap) :
    Druid :=
  { m with body := { m.body with spec := { m.spec with
    workloadAnnotations := sharedMap m.spec.workloadAnnotations annotations
    livenessProbe :=
      clusterProbeAfter nodeSpec.livenessProbe m.spec.livenessProbe nodeSpec.druidPort
    readinessProbe :=
      clusterProbeAfter nodeSpec.readinessProbe m.spec.readinessProbe nodeSpec.druidPort
    startUpProbe :=
      clusterProbeAfter nodeSpec.startUpProbe m.spec.startUpProbe nodeSpec.druidPort } } }

/-! ## The rest of a group -/

def makePodDisruptionBudget (pdbSpec : PodDisruptionBudget) (m : Druid) (ls : StrMap)
    (uniqueStr : String) : Obj .podDisruptionBudget where
  apiVersion := "policy/v1"
  kind := "PodDisruptionBudget"
  metadata := { name := uniqueStr, ns := m.ns, labels := some ls }
  body := { pdbSpec with selector := some ls }

def makeHorizontalPodAutoscaler (nodeHSpec : Json) (m : Druid) (ls : StrMap)
    (uniqueStr : String) : Obj .horizontalPodAutoscaler where
  apiVersion := "autoscaling/v2"
  kind := "HorizontalPodAutoscaler"
  metadata := { name := uniqueStr, ns := m.ns, labels := some ls }
  body := nodeHSpec

def makeIngress (nodeIngressSpec : Json) (nodeSpec : DruidNodeSpec) (m : Druid) (ls : StrMap)
    (uniqueStr : String) : Obj .ingress where
  apiVersion := "networking.k8s.io/v1"
  kind := "Ingress"
  metadata :=
    { name := uniqueStr
      annotations := nodeSpec.ingressAnnotations
      ns := m.ns
      labels := some ls }
  body := nodeIngressSpec

/-- A claim of the group's list. One that has a name takes the name and the spec of every entry
of the list in turn, so those of the last one stay. -/
def makePersistentVolumeClaim (pvc : Object PersistentVolumeClaim) (nodeSpec : DruidNodeSpec)
    (m : Druid) (ls : StrMap) (uniqueStr : String) : Obj .persistentVolumeClaim :=
  let stamped : Obj .persistentVolumeClaim :=
    { apiVersion := "v1"
      kind := "PersistentVolumeClaim"
      metadata := { pvc.metadata with
        ns := m.ns
        labels := some (stampLabels pvc.metadata.labels ls) }
      body := pvc.body }
  if pvc.name = "" then { stamped with metadata := { stamped.metadata with name := uniqueStr } }
  else nodeSpec.persistentVolumeClaim.foldl (fun pvc p =>
    { pvc with metadata := { pvc.metadata with name := p.name }, body := p.body }) stamped

end DruidOperator.Controller
