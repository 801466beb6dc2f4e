import DruidOperator.Verify

/-!
# Volume expansion

`volume_expansion.go`: growing the claims of a StatefulSet. The StatefulSet is deleted and its
pods orphaned, the claims are patched, and the next part of the reconcile creates the StatefulSet
again with the new templates.
-/

namespace DruidOperator.Controller

open Interaction Prog Kube

/-- `Spec.Resources.Requests[v1.ResourceStorage]`: zero where there is none. -/
def storageOf (o : Object PersistentVolumeClaim) : Quantity := (storageRequest o).getD 0

/-- The desired sizes of the node group, the current ones of the StatefulSet, and those of the
claims. -/
def getVolumeClaimTemplateSizes (sts : Obj .statefulSet) (nodeSpec : DruidNodeSpec)
    (pvc : List (Obj .persistentVolumeClaim)) : List Quantity × List Quantity × List Quantity :=
  (nodeSpec.volumeClaimTemplates.map storageOf, sts.body.spec.volumeClaimTemplates.map storageOf,
    pvc.map storageOf)

/-- `Requests[v1.ResourceStorage] = size`: the map must not be nil. -/
def setStorage (pvc : Obj .persistentVolumeClaim) (size : Quantity) :
    Code (Obj .persistentVolumeClaim) :=
  match pvc.body.requests with
  | none => .exit (.panic "assignment to entry in nil map")
  | some _ => .ret (withStorageRequest pvc size)

/-- The inner loop: every claim whose size, as it was listed, is not the desired one is patched.
The claims in hand are returned with the size written into them; the sizes are not read again. -/
def patchClaims (desired : Quantity) :
    List (Obj .persistentVolumeClaim × Quantity) →
      Code (List (Obj .persistentVolumeClaim × Quantity))
  | [] => .ret []
  | (pvc, size) :: rest =>
      if desired ≠ size then do
        let resized ← setStorage pvc desired
        let _ ← orReturn (← patchClaim pvc resized)
        let rest ← patchClaims desired rest
        return (resized, size) :: rest
      else do
        let rest ← patchClaims desired rest
        return (pvc, size) :: rest

/-- One turn of the outer loop, for the sizes at one index. -/
def expandTemplate (sts : Obj .statefulSet) (desired current : Quantity)
    (pvcs : List (Obj .persistentVolumeClaim × Quantity)) :
    Code (List (Obj .persistentVolumeClaim × Quantity)) :=
  if desired < current then
    fail ("Request for Shrinking of sts pvc size [sts:" ++ sts.name ++ "] in [namespace:" ++
      sts.ns ++ "] is not Supported")
  else if desired ≠ current then do
    let _ ← orReturn (← deleteObj .statefulSet sts true)
    patchClaims desired pvcs
  else patchClaims desired pvcs

/-- The outer loop over the desired sizes; the current ones are read at the same index. -/
def expandTemplates (sts : Obj .statefulSet) :
    List Quantity → List Quantity → List (Obj .persistentVolumeClaim × Quantity) → Code Unit
  | [], _, _ => .ret ()
  | _ :: _, [], _ => .exit (.panic "index out of range")
  | desired :: des, current :: cur, pvcs => do
      let pvcs ← expandTemplate sts desired current pvcs
      expandTemplates sts des cur pvcs

/-- Every StatefulSet has as many ready replicas as replicas. -/
def allReady (stss : List (Obj .statefulSet)) : Bool :=
  stss.all fun sts => decide (sts.body.status.replicas = sts.body.status.readyReplicas)

/-- Once the StatefulSet and its claims are known. -/
def expandClaims (nodeSpec : DruidNodeSpec) (sts : Obj .statefulSet)
    (pvcList : List (Obj .persistentVolumeClaim)) : Code Unit :=
  let (des, cur, pvcSize) := getVolumeClaimTemplateSizes sts nodeSpec pvcList
  if pvcSize.length < des.length then .ret ()
  else expandTemplates sts des cur (pvcList.zip pvcSize)

def claimLabels (uniqueStr : String) : StrMap := Finmap.singleton "nodeSpecUniqueStr" uniqueStr

def scalePVCForSts (nodeSpec : DruidNodeSpec) (uniqueStr : String) (drd : Druid) : Code Unit := do
  match ← listObjs .statefulSet drd.ns (makeLabelsForDruid drd) with
  | .error _ => return ()
  | .ok getSTSList =>
      if allReady getSTSList then
        match ← getObj .statefulSet drd.ns uniqueStr with
        | .error _ => return ()
        | .ok sts =>
            match ← listObjs .persistentVolumeClaim drd.ns (claimLabels uniqueStr) with
            | .error _ => return ()
            | .ok pvcList => expandClaims nodeSpec sts pvcList
      else return ()

/-- `AllowVolumeExpansion != boolFalse()` compares a pointer with a fresh one. -/
def differsFromBoolFalse (_allowVolumeExpansion : Option Bool) : Bool := true

def isVolumeExpansionEnabled (m : Druid) : List (Object PersistentVolumeClaim) → Code Bool
  | [] => .ret false
  | nodeVCT :: rest =>
      match nodeVCT.body.storageClassName with
      | none => fail "StorageClassName does not exists"
      | some storageClassName => do
          let sc ← orReturn (← getObj .storageClass m.ns storageClassName)
          if differsFromBoolFalse sc.body.allowVolumeExpansion then return true
          else isVolumeExpansionEnabled m rest

def expandStatefulSetVolumes (m : Druid) (nodeSpec : DruidNodeSpec) (uniqueStr : String) :
    Code Unit := do
  let isEnabled ← isVolumeExpansionEnabled m nodeSpec.volumeClaimTemplates
  if isEnabled then scalePVCForSts nodeSpec uniqueStr m else return ()

end DruidOperator.Controller
