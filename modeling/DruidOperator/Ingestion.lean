import DruidOperator.Basic
import DruidOperator.Json
import DruidOperator.DruidApi

/-!
# The ingestion controller (`controllers/ingestion/reconciler.go`)

`createOrUpdate` submits the ingestion spec of a `DruidIngestion` to Druid, keeps the compaction
settings and the retention rules of its data source in step, and remembers in the status what
was last submitted.

The object `di` is a pointer in the source, and `patchStatus` reads the stored object *into* it
before patching. So a program that patches the status returns the object as re-read, and what
follows goes on with that one; the patch itself is applied to a copy, so `di` never shows it.

Two requests go to Kubernetes and one to Druid's HTTP API. Events and log lines are left out.
-/

namespace DruidOperator.Ingestion

open Interaction Prog DruidApi

/-! ## The custom resource -/

/-- `runtime.RawExtension`: the JSON text of a free-form field, empty when the field is unset. -/
structure RawExtension where
  raw : String := ""
deriving DecidableEq

/-- `Size() > 0`: the encoded size of an unset extension is zero. -/
def RawExtension.isSet (x : RawExtension) : Bool := x.raw != ""

inductive DruidIngestionMethod where
  | kafka
  | kinesis
  | nativeBatchIndexParallel
  | queryControllerSQL
  | hadoopIndexHadoop
  | other (name : String)
deriving DecidableEq

structure IngestionSpec where
  type : DruidIngestionMethod := .nativeBatchIndexParallel
  spec : String := ""
  nativeSpec : RawExtension := {}
  compaction : RawExtension := {}
  /-- `none` is the nil slice, which is not the empty one for `reflect.DeepEqual`. -/
  rules : Option (List RawExtension) := none
deriving DecidableEq

inductive ConditionStatus where
  | unset
  | true
  | false
  | unknown
deriving DecidableEq

structure DruidIngestionStatus where
  taskId : String := ""
  type : String := ""
  status : ConditionStatus := .unset
  reason : String := ""
  message : String := ""
  lastUpdateTime : Int := 0
  currentIngestionSpec : String := ""
  currentRules : Option (List RawExtension) := none
deriving DecidableEq

structure DruidIngestion where
  name : String
  ns : String
  druidClusterName : String := ""
  auth : Auth := {}
  ingestion : IngestionSpec
  status : DruidIngestionStatus := {}
  finalizers : List String := []
  deletionTimestamp : Option Int := none
  resourceVersion : ℕ := 0
deriving DecidableEq

/-! ## Requests -/

inductive Method where
  | get
  | post
deriving DecidableEq

structure Response where
  responseBody : String
  statusCode : Int
deriving DecidableEq

inductive Req where
  /-- A request to Druid. -/
  | http (method : Method) (url body : String)
  /-- Read the `DruidIngestion` of this namespace and name. -/
  | get (ns name : String)
  /-- Patch the status by the difference between the two objects (`client.MergeFrom`). -/
  | patchStatus (base modified : DruidIngestion)
  | now

abbrev Resp : Req → Type
  | .http .. => Except Error Response
  | .get .. => Except Error DruidIngestion
  | .patchStatus .. => Except Error Unit
  | .now => Int

abbrev sig : Signature := ⟨Req, Resp⟩

abbrev IngestM := Prog sig Exit

/-- `DruidClient.Do`. -/
def httpDo (method : Method) (url body : String) : IngestM Response :=
  DruidApi.httpDo url (request (S := sig) (.http method url body))

/-! ## Reading the spec -/

/-- `getSpec`: the native spec if there is one, else the JSON text. -/
def getSpec (di : DruidIngestion) : Except Error Json :=
  if di.ingestion.nativeSpec.isSet then
    match Json.unmarshalMap di.ingestion.nativeSpec.raw with
    | some spec => .ok spec
    | none => .error ⟨"error unmarshalling nativeSpec", false⟩
  else if di.ingestion.spec ≠ "" then
    match Json.unmarshalMap di.ingestion.spec with
    | some spec => .ok spec
    | none => .error ⟨"error unmarshalling Spec", false⟩
  else .error ⟨"no valid ingestion spec provided", false⟩

def getSpecJson (di : DruidIngestion) : Except Error String :=
  (getSpec di).map Json.toJsonString

def unmarshalRules : List RawExtension → Except Error (List Json)
  | [] => .ok []
  | rule :: rules =>
      match Json.unmarshalMap rule.raw with
      | some r => (unmarshalRules rules).map (r :: ·)
      | none => .error ⟨"error unmarshalling rule", false⟩

/-- `getRules`: a nil slice, which encodes as `null`, when there are none. -/
def getRules (di : DruidIngestion) : Except Error Json :=
  if di.ingestion.rules.getD [] = [] then .ok .null
  else (unmarshalRules (di.ingestion.rules.getD [])).map .arr

def getRulesJson (di : DruidIngestion) : Except Error String :=
  (getRules di).map Json.toJsonString

/-- `getDataSource`: the text at `spec.dataSchema.dataSource`. -/
def getDataSource (di : DruidIngestion) : Except Error String := do
  let spec ← getSpec di
  match ((spec.get? "spec").bind (·.get? "dataSchema")).bind (·.get? "dataSource") with
  | some (.str dataSource) => .ok dataSource
  | _ => .error ⟨"dataSource not found in spec", false⟩

/-- `getCompaction`: the settings with the data source added. -/
def getCompaction (di : DruidIngestion) : Except Exit Json :=
  if di.ingestion.compaction.raw = "" then .ok (.obj [])
  else
    match Json.unmarshalMap di.ingestion.compaction.raw with
    | none => .error (.error ⟨"error unmarshalling compaction", false⟩)
    | some compaction =>
        match getDataSource di with
        | .error e => .error (.error ⟨"error getting dataSource: " ++ e.msg, false⟩)
        | .ok dataSource =>
            match compaction with
            | .obj fs => .ok (.obj (Json.setField "dataSource" (.str dataSource) fs))
            | _ => .error (.panic "assignment to entry in nil map")

def getCompactionJson (di : DruidIngestion) : Except Exit String :=
  (getCompaction di).map Json.toJsonString

/-- `druid.IsEqualJson`. -/
def isEqualJson (s₁ s₂ : String) : Except Error Bool :=
  match Json.unmarshal s₁ with
  | none => .error ⟨"error mashalling string 1", false⟩
  | some o₁ =>
      match Json.unmarshal s₂ with
      | none => .error ⟨"error mashalling string 2", false⟩
      | some o₂ => .ok (decide (o₁ = o₂))

mutual

/-- One value of the desired settings against the current one (`includes`, the loop body). -/
def includesValue (current : Json) : Json → Bool
  | .obj desired =>
      decide (current = .obj desired) ||
        match current with
        | .obj fs => includesFields fs desired
        | _ => false
  | .arr desired =>
      decide (current = .arr desired) ||
        match current with
        | .arr xs => desired.all fun d => xs.any fun x => decide (d = x)
        | _ => false
  | desired => decide (current = desired)

/-- `includes`: every key of the desired map is in the current one with a value that includes
its own. -/
def includesFields (current : List (String × Json)) : List (String × Json) → Bool
  | [] => true
  | (key, desired) :: rest =>
      match current.lookup key with
      | none => false
      | some value => includesValue value desired && includesFields current rest

end

/-- `util.IncludesJson`. -/
def includesJson (currentJson desiredJson : String) : Except Error Bool :=
  match Json.unmarshalMap currentJson with
  | none => .error ⟨"error parsing current JSON", false⟩
  | some current =>
      match Json.unmarshalMap desiredJson with
      | none => .error ⟨"error parsing desired JSON", false⟩
      | some desired => .ok (includesFields current.fields desired.fields)

/-! ## Task ids -/

structure TaskHolder where
  task : String := ""
  id : String := ""

/-- Decode one field into a `taskHolder`; `none` when its value has the wrong type. -/
def TaskHolder.setField (t : TaskHolder) (key : String) (value : Json) : Option TaskHolder :=
  if Json.foldName key = "task".toList then
    match value with
    | .str s => some { t with task := s }
    | .null => some t
    | _ => none
  else if Json.foldName key = "id".toList then
    match value with
    | .str s => some { t with id := s }
    | .null => some t
    | _ => none
  else some t

/-- `json.Unmarshal` into a `taskHolder`. -/
def unmarshalTaskHolder (text : String) : Option TaskHolder :=
  match Json.parse text with
  | some (.obj fs) => fs.foldlM (fun t (k, x) => t.setField k x) {}
  | some .null => some {}
  | _ => none

/-- `getTaskIdFromResponse`: tasks and supervisors name the field differently. -/
def getTaskIdFromResponse (resp : String) : Except Error String :=
  match unmarshalTaskHolder resp with
  | none => .error ⟨"cannot unmarshal task holder", false⟩
  | some t =>
      if t.task ≠ "" then .ok t.task
      else if t.id ≠ "" then .ok t.id
      else .error ⟨"task id not found", false⟩

/-- `getPath`. -/
def getPath (type : DruidIngestionMethod) (svcName : String) (method : Method) (taskId : String)
    (shutDownTask : Bool) : String :=
  match type with
  | .nativeBatchIndexParallel =>
      if method = .get then makePath svcName "indexer" "task" [taskId]
      else if method = .post ∧ !shutDownTask then makePath svcName "indexer" "task" []
      else makePath svcName "indexer" "task" [taskId, "shutdown"]
  | .kafka =>
      if method = .get then makePath svcName "indexer" "supervisor" [taskId]
      else if method = .post ∧ !shutDownTask then makePath svcName "indexer" "supervisor" []
      else makePath svcName "indexer" "supervisor" [taskId, "shutdown"]
  | _ => ""

/-! ## Compaction and rules -/

/-- The settings Druid has now; none at all on a 404. -/
def currentCompaction (currentResp : Response) : Except Error String :=
  if currentResp.statusCode = 200 then .ok currentResp.responseBody
  else if currentResp.statusCode = 404 then .ok "\x7b\x7d"
  else .error ⟨"failed to retrieve current compaction settings, status code: " ++
    toString currentResp.statusCode, false⟩

/-- `UpdateCompaction`: whether new compaction settings were sent. -/
def updateCompaction (di : DruidIngestion) (svcName : String) : IngestM Bool :=
  if di.ingestion.compaction.isSet then do
    let dataSource ← orReturn (getDataSource di)
    let currentResp ← httpDo .get
      (makePath svcName "coordinator" "config" ["compaction", dataSource]) ""
    let currentCompactionJson ← orReturn (currentCompaction currentResp)
    match getCompactionJson di with
    | .error e => .exit e
    | .ok desiredCompactionJson =>
        let areEqual ← orReturn (includesJson currentCompactionJson desiredCompactionJson)
        if areEqual then return false
        else
          let resp ← httpDo .post (makePath svcName "coordinator" "config" ["compaction"])
            desiredCompactionJson
          if resp.statusCode = 200 then return true
          else fail ("failed to update compaction, status code: " ++ toString resp.statusCode ++
            ", response body: " ++ resp.responseBody)
  else return false

/-- `UpdateRules`: having no rules counts as success. -/
def updateRules (di : DruidIngestion) (svcName : String) : IngestM Bool :=
  if di.ingestion.rules.getD [] = [] then return true
  else do
    let rulesData ← orReturn (getRulesJson di)
    let dataSource ← orReturn (getDataSource di)
    let resp ← httpDo .post (makePath svcName "coordinator" "rules" [dataSource]) rulesData
    if resp.statusCode = 200 then return true
    else fail ("failed to update rules, status code: " ++ toString resp.statusCode ++
      ", response body: " ++ resp.responseBody)

/-! ## The status -/

/-- `patchStatus`: the object as re-read, which is what the caller's `di` then holds. -/
def patchStatus (di : DruidIngestion) (transform : DruidIngestion → Int → DruidIngestion) :
    IngestM DruidIngestion := do
  let obj ← request (S := sig) (.get di.ns di.name) >>= orReturn
  let now ← request (S := sig) .now
  let _ ← request (S := sig) (.patchStatus obj (transform obj now)) >>= orReturn
  return obj

/-- `makePatchDruidIngestionStatus`. The spec text is that of `di` as passed in; the rules are
read off the object after it was re-read. -/
def makePatchDruidIngestionStatus (di : DruidIngestion) (taskId msg reason : String)
    (status : ConditionStatus) (diConditionType : String) : IngestM DruidIngestion := do
  let ingestionSpec ← orReturn (getSpecJson di)
  patchStatus di fun obj now =>
    { obj with status :=
      { currentIngestionSpec := ingestionSpec
        currentRules := obj.ingestion.rules
        taskId := taskId
        lastUpdateTime := now
        message := msg
        reason := reason
        status := status
        type := diConditionType } }

def createSuccess : String := "DruidIngestionControllerCreateSuccess"
def createFail : String := "DruidIngestionControllerCreateFail"
def updateSuccess : String := "DruidIngestionControllerUpdateSuccess"

inductive OperationResult where
  | created
  | updated
deriving DecidableEq

/-! ## `CreateOrUpdate` -/

/-- What follows the first submission: the compaction, the rules, and the status that remembers
all of it. -/
def finishCreate (di : DruidIngestion) (svcName : String) (respCreateTask : Response) :
    IngestM (OperationResult × DruidIngestion) := do
  let compactionOk ← updateCompaction di svcName
  let rulesOk ← updateRules di svcName
  let taskId ← orReturn (getTaskIdFromResponse respCreateTask.responseBody)
  let type := if respCreateTask.statusCode = 200 ∧ compactionOk ∧ rulesOk then createSuccess
    else createFail
  let di ← makePatchDruidIngestionStatus di taskId type respCreateTask.responseBody .true type
  return (.created, di)

/-- Nothing is remembered yet: submit the spec, whatever the answer go on. -/
def createTask (di : DruidIngestion) (svcName specJson : String) :
    IngestM (OperationResult × DruidIngestion) := do
  let respCreateTask ← httpDo .post (getPath di.ingestion.type svcName .post "" false) specJson
  finishCreate di svcName respCreateTask

/-- Submit the spec again if it differs from the remembered one. -/
def updateSpec (di : DruidIngestion) (svcName specJson : String) : IngestM DruidIngestion := do
  let currentIngestionSpec ← orReturn (getSpecJson di)
  let ok ← orReturn (isEqualJson di.status.currentIngestionSpec currentIngestionSpec)
  if ok then return di
  else
    let respUpdateSpec ← httpDo .post (getPath di.ingestion.type svcName .post "" false) specJson
    if respUpdateSpec.statusCode = 200 then
      let taskId ← orReturn (getTaskIdFromResponse respUpdateSpec.responseBody)
      makePatchDruidIngestionStatus di taskId updateSuccess respUpdateSpec.responseBody .true
        updateSuccess
    else return di

/-- Send new compaction settings, and on success note it in the status. -/
def updateCompactionStatus (di : DruidIngestion) (svcName : String) : IngestM DruidIngestion := do
  let compactionOk ← updateCompaction di svcName
  if compactionOk then
    makePatchDruidIngestionStatus di di.status.taskId updateSuccess "compaction updated" .true
      updateSuccess
  else return di

/-- Send the rules if they differ from the remembered ones, and on success note it. -/
def updateRulesStatus (di : DruidIngestion) (svcName : String) : IngestM DruidIngestion :=
  if di.status.currentRules = di.ingestion.rules then return di
  else do
    let rulesOk ← updateRules di svcName
    if rulesOk then
      makePatchDruidIngestionStatus di di.status.taskId updateSuccess "rules updated" .true
        updateSuccess
    else return di

/-- `CreateOrUpdate`. -/
def createOrUpdate (di : DruidIngestion) (svcName : String) :
    IngestM (OperationResult × DruidIngestion) := do
  let specJson ← orReturn (getSpecJson di)
  if di.status.taskId = "" ∧ di.status.currentIngestionSpec = "" then
    createTask di svcName specJson
  else
    let di ← updateSpec di svcName specJson
    let di ← updateCompactionStatus di svcName
    let di ← updateRulesStatus di svcName
    return (.updated, di)

end DruidOperator.Ingestion
