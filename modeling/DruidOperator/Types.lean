import DruidOperator.DruidApi
import DruidOperator.Json
import DruidOperator.Lib.Table

/-!
# Kubernetes objects and the `Druid` resource

The API types the cluster controller reads and writes.

* `Obj k` — an object of the kind `k`: its `TypeMeta`, its `ObjectMeta` and a body by kind.
* `DruidSpec`, `DruidNodeSpec` — the custom resource, cluster level and node group level.

A Go slice or map that may be nil and is compared with nil is an `Option`; a slice that is only
ranged over or appended to is a list. Parts of Kubernetes objects that the controller only copies
are kept as JSON values. The default of a field of the custom resource is the one its schema
declares.
-/

namespace DruidOperator

/-- The values `nodeType` admits. -/
inductive NodeType where
  | historical | overlord | middleManager | indexer | broker | coordinator | router
deriving DecidableEq, Repr

namespace NodeType

def text : NodeType → String
  | historical => "historical"
  | overlord => "overlord"
  | middleManager => "middleManager"
  | indexer => "indexer"
  | broker => "broker"
  | coordinator => "coordinator"
  | router => "router"

end NodeType

/-- The kinds of objects the controller touches. -/
inductive Kind where
  | configMap | service | statefulSet | deployment | ingress | podDisruptionBudget
  | horizontalPodAutoscaler | persistentVolumeClaim | pod | storageClass | druid
deriving DecidableEq, Repr

/-- A `resource.Quantity` in its smallest unit, one nano. Two quantities are compared with `Cmp`,
which does not see the format they are written in. -/
abbrev Quantity := Int

abbrev QuantityMap := Finmap fun _ : String => Quantity

structure OwnerReference where
  apiVersion : String
  kind : String
  name : String
  uid : String
  controller : Option Bool
deriving DecidableEq

structure ObjectMeta where
  name : String := ""
  ns : String := ""
  labels : Option StrMap := none
  annotations : Option StrMap := none
  ownerReferences : List OwnerReference := []
  finalizers : List String := []
  uid : String := ""
  /-- Zero where it is not set. -/
  resourceVersion : ℕ := 0
  generation : Int := 0
  deletionTimestamp : Option Int := none

/-- A Kubernetes object with a body of the type `β`. -/
structure Object (β : Type) where
  apiVersion : String := ""
  kind : String := ""
  metadata : ObjectMeta := {}
  body : β

/-! ## Pods and their templates -/

inductive IntOrStringType where
  | int | string
deriving DecidableEq

structure IntOrString where
  type : IntOrStringType := .int
  intVal : Int := 0
  strVal : String := ""
deriving DecidableEq

/-- The value that is encoded: the field the type names. -/
def IntOrString.value (x : IntOrString) : Int ⊕ String :=
  match x.type with
  | .int => .inl x.intVal
  | .string => .inr x.strVal

structure HTTPGetAction where
  path : String
  port : IntOrString := {}
  rest : Json := .null
deriving DecidableEq

structure Probe where
  httpGet : Option HTTPGetAction := none
  initialDelaySeconds : Int := 0
  timeoutSeconds : Int := 0
  periodSeconds : Int := 0
  successThreshold : Int := 0
  failureThreshold : Int := 0
  rest : Json := .null
deriving DecidableEq

structure EnvVar where
  name : String
  value : String := ""
  valueFrom : Json := .null

structure VolumeMount where
  name : String
  mountPath : String
  readOnly : Bool := false
  rest : Json := .null

inductive VolumeSource where
  | configMap (name : String)
  | persistentVolumeClaim (claimName : String)
  | other (source : Json)

structure Volume where
  name : String
  source : VolumeSource

structure ContainerPort where
  name : String
  containerPort : Int
  rest : Json := .null

structure Container where
  name : String
  image : String
  command : List String := []
  args : List String := []
  imagePullPolicy : String := ""
  ports : List ContainerPort := []
  resources : Json := .null
  env : List EnvVar := []
  envFrom : Option (List Json) := none
  volumeMounts : List VolumeMount := []
  livenessProbe : Option Probe := none
  readinessProbe : Option Probe := none
  startupProbe : Option Probe := none
  lifecycle : Option Json := none
  securityContext : Option Json := none

structure PodSpec where
  nodeSelector : Option StrMap
  topologySpreadConstraints : List Json
  tolerations : List Json
  affinity : Json
  imagePullSecrets : Option (List Json)
  initContainers : List Container := []
  containers : List Container
  terminationGracePeriodSeconds : Option Int
  volumes : List Volume
  securityContext : Option Json
  serviceAccountName : String
  priorityClassName : String
  dnsPolicy : String
  dnsConfig : Option Json

structure PodTemplateSpec where
  labels : StrMap
  annotations : Option StrMap
  spec : PodSpec

inductive PodPhase where
  | pending | running | succeeded | failed | unknown
deriving DecidableEq

inductive ConditionStatus where
  | true | false | unknown
deriving DecidableEq

/-- A condition of a pod or of a deployment. -/
structure Condition where
  type : String
  status : ConditionStatus
  reason : String := ""
deriving DecidableEq

structure ContainerStatus where
  name : String
  restartCount : Int

structure Pod where
  volumes : List Volume := []
  phase : PodPhase := .running
  conditions : List Condition := []
  containerStatuses : List ContainerStatus := []

/-! ## The bodies of the other kinds -/

structure ServicePort where
  name : String
  port : Int
  targetPort : IntOrString
  rest : Json := .null

structure Service where
  selector : Option StrMap := none
  ports : Option (List ServicePort) := none
  clusterIP : String := ""
  rest : Json := .null

structure PersistentVolumeClaim where
  storageClassName : Option String := none
  /-- `Spec.Resources.Requests`. -/
  requests : Option QuantityMap := none
  rest : Json := .null

structure StorageClass where
  allowVolumeExpansion : Option Bool := none

structure PodDisruptionBudget where
  /-- `Spec.Selector.MatchLabels`. -/
  selector : Option StrMap := none
  rest : Json := .null

structure StatefulSetStatus where
  replicas : Int := 0
  readyReplicas : Int := 0
  currentReplicas : Int := 0
  currentRevision : String := ""
  updateRevision : String := ""
deriving DecidableEq

structure DeploymentStatus where
  replicas : Int := 0
  readyReplicas : Int := 0
  conditions : List Condition := []
deriving DecidableEq

structure RollingUpdateDeployment where
  maxUnavailable : Option Int := none
  maxSurge : Option Int := none

structure DeploymentSpec where
  selector : StrMap
  replicas : Int
  template : PodTemplateSpec
  strategyType : String
  rollingUpdate : RollingUpdateDeployment

structure Deployment where
  spec : DeploymentSpec
  status : DeploymentStatus := {}

structure StatefulSetSpec where
  serviceName : String
  selector : StrMap
  replicas : Int
  podManagementPolicy : String
  updateStrategy : Json
  template : PodTemplateSpec
  volumeClaimTemplates : List (Object PersistentVolumeClaim)

structure StatefulSet where
  spec : StatefulSetSpec
  status : StatefulSetStatus := {}

/-! ## The custom resource -/

structure AdditionalContainer where
  runAsInit : Bool := false
  image : String
  containerName : String
  command : List String := []
  imagePullPolicy : String := ""
  args : List String := []
  containerSecurityContext : Option Json := none
  resources : Json := .null
  volumeMounts : List VolumeMount := []
  env : List EnvVar := []
  envFrom : Option (List Json) := none

/-- `ZookeeperSpec`, `MetadataStoreSpec` and `DeepStorageSpec`: a type and the raw text of its
configuration. -/
structure ExtensionSpec where
  type : String
  spec : String

structure ObjectReference where
  ns : String
  name : String

structure DruidNodeSpec where
  nodeType : NodeType
  druidPort : Int
  kind : String := "StatefulSet"
  replicas : Int := 1
  podLabels : Option StrMap := none
  podDisruptionBudgetSpec : Option PodDisruptionBudget := none
  priorityClassName : String := ""
  runtimeProperties : String := ""
  jvmOptions : String := ""
  extraJvmOptions : String := ""
  log4jConfig : String := ""
  nodeConfigMountPath : String := ""
  services : Option (List (Object Service)) := none
  tolerations : List Json := []
  affinity : Option Json := none
  nodeSelector : Option StrMap := none
  terminationGracePeriodSeconds : Option Int := none
  ports : List ContainerPort := []
  image : String := ""
  imagePullSecrets : Option (List Json) := none
  imagePullPolicy : String := ""
  env : Option (List EnvVar) := none
  envFrom : Option (List Json) := none
  resources : Json := .null
  podSecurityContext : Option Json := none
  containerSecurityContext : Option Json := none
  podAnnotations : Option StrMap := none
  podManagementPolicy : String := "Parallel"
  maxSurge : Option Int := none
  maxUnavailable : Option Int := none
  updateStrategy : Option Json := none
  livenessProbe : Option Probe := none
  readinessProbe : Option Probe := none
  startUpProbe : Option Probe := none
  ingressAnnotations : Option StrMap := none
  workloadAnnotations : Option StrMap := none
  ingress : Option Json := none
  persistentVolumeClaim : List (Object PersistentVolumeClaim) := []
  lifecycle : Option Json := none
  hpAutoScaler : Option Json := none
  topologySpreadConstraints : List Json := []
  volumeClaimTemplates : List (Object PersistentVolumeClaim) := []
  volumeMounts : List VolumeMount := []
  volumes : List Volume := []
  additionalContainer : List AdditionalContainer := []
  serviceAccountName : String := ""
  /-- The raw text of the settings; none if they are not set. -/
  dynamicConfig : Option String := none
  dnsPolicy : String := ""
  dnsConfig : Option Json := none

/-- An entry of `Spec.Nodes`: a node group under its key. -/
structure ServiceGroup where
  key : String
  spec : DruidNodeSpec

structure DruidSpec where
  commonRuntimeProperties : String := ""
  extraCommonConfig : List ObjectReference := []
  forceDeleteStsPodOnError : Bool := true
  scalePvcSts : Bool := false
  commonConfigMountPath : String := "/opt/druid/conf/druid/cluster/_common"
  disablePVCDeletionFinalizer : Bool := false
  deleteOrphanPvc : Bool := true
  startScript : String := "/druid.sh"
  image : String := ""
  serviceAccount : String := ""
  imagePullSecrets : Option (List Json) := none
  imagePullPolicy : String := "IfNotPresent"
  env : Option (List EnvVar) := none
  envFrom : Option (List Json) := none
  jvmOptions : String := ""
  log4jConfig : String := ""
  podSecurityContext : Option Json := none
  containerSecurityContext : Option Json := none
  volumeClaimTemplates : List (Object PersistentVolumeClaim) := []
  volumeMounts : List VolumeMount := []
  volumes : List Volume := []
  podAnnotations : Option StrMap := none
  workloadAnnotations : Option StrMap := none
  podManagementPolicy : String := "Parallel"
  podLabels : Option StrMap := none
  priorityClassName : String := ""
  updateStrategy : Option Json := none
  livenessProbe : Option Probe := none
  readinessProbe : Option Probe := none
  startUpProbe : Option Probe := none
  services : Option (List (Object Service)) := none
  nodeSelector : Option StrMap := none
  tolerations : List Json := []
  affinity : Option Json := none
  /-- A Go map: the keys are distinct, and the order it is ranged over in is not this one. -/
  nodes : Table ServiceGroup.key := .empty
  additionalContainer : List AdditionalContainer := []
  rollingDeploy : Bool := true
  defaultProbes : Bool := true
  zookeeper : Option ExtensionSpec := none
  metadataStore : Option ExtensionSpec := none
  deepStorage : Option ExtensionSpec := none
  dimensionsMapPath : String := ""
  hdfsSite : String := ""
  coreSite : String := ""
  auth : DruidApi.Auth := {}
  dnsPolicy : String := ""
  dnsConfig : Option Json := none

inductive DruidNodeConditionType where
  | druidClusterReady | druidNodeRollingUpdate | druidNodeErrorState
deriving DecidableEq

structure DruidNodeTypeStatus where
  druidNode : String := ""
  druidNodeConditionStatus : Option ConditionStatus := none
  druidNodeConditionType : Option DruidNodeConditionType := none
  reason : String := ""
deriving DecidableEq

structure DruidClusterStatus where
  druidNodeStatus : DruidNodeTypeStatus := {}
  statefulSets : Option (List String) := none
  deployments : Option (List String) := none
  services : Option (List String) := none
  configMaps : Option (List String) := none
  podDisruptionBudgets : Option (List String) := none
  ingress : Option (List String) := none
  hpAutoScalers : Option (List String) := none
  pods : Option (List String) := none
  persistentVolumeClaims : Option (List String) := none
deriving DecidableEq

structure DruidBody where
  spec : DruidSpec := {}
  status : DruidClusterStatus := {}

/-! ## Objects by kind -/

/-- What an object of each kind holds besides its metadata. -/
abbrev Body : Kind → Type
  | .configMap => StrMap
  | .service => Service
  | .statefulSet => StatefulSet
  | .deployment => Deployment
  | .ingress => Json
  | .podDisruptionBudget => PodDisruptionBudget
  | .horizontalPodAutoscaler => Json
  | .persistentVolumeClaim => PersistentVolumeClaim
  | .pod => Pod
  | .storageClass => StorageClass
  | .druid => DruidBody

abbrev Obj (k : Kind) := Object (Body k)

abbrev Druid := Object DruidBody

namespace Object

variable {β : Type}

abbrev name (o : Object β) : String := o.metadata.name

abbrev ns (o : Object β) : String := o.metadata.ns

/-- Namespace and name. -/
abbrev key (o : Object β) : String × String := (o.metadata.ns, o.metadata.name)

def withResourceVersion (o : Object β) (version : ℕ) : Object β :=
  { o with metadata := { o.metadata with resourceVersion := version } }

@[simp] theorem key_withResourceVersion (o : Object β) (version : ℕ) :
    (o.withResourceVersion version).key = o.key := rfl

end Object

abbrev Object.spec (m : Druid) : DruidSpec := m.body.spec

end DruidOperator
