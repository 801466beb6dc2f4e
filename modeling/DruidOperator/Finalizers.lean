import DruidOperator.Objects

/-!
# Finalizers

`finalizers.go`: the finalizer that makes the deletion of a `Druid` resource wait until its
StatefulSets and claims are deleted.
-/

namespace DruidOperator.Controller

open Interaction Prog Kube

def deletePVCFinalizerName : String := "deletepvc.finalizers.druid.apache.org"

/-- `RemoveString`. -/
def removeString (slice : List String) (s : String) : List String := slice.filter (· ≠ s)

/-- What decoding an answer of the API server into the resource in hand leaves there. The answer may
be another version of the resource, but it is the same resource. -/
structure Decoding where
  into : Druid → Druid → Druid
  key_eq : ∀ inHand answer, (into inHand answer).key = inHand.key

/-- Nobody has written the resource since it was read, so that the answer tells nothing new. -/
def Decoding.same : Decoding where
  into inHand _ := inHand
  key_eq _ _ := rfl

/-- The finalizers the resource should have. -/
def desiredFinalizers (m : Druid) : List String :=
  let desired := removeString m.metadata.finalizers deletePVCFinalizerName
  let addition := if m.spec.disablePVCDeletionFinalizer then [] else [deletePVCFinalizerName]
  addition.foldl (fun desired finalizer =>
    if finalizer ∈ desired then desired else desired ++ [finalizer]) desired

/-- Patch the finalizers where they are not the desired ones; what the API server answers is decoded
into the resource in hand. -/
def updateFinalizers (m : Druid) (decoding : Decoding := .same) : Code Druid :=
  if m.metadata.finalizers ≠ desiredFinalizers m then do
    let answer ← orReturn (← patchFinalizers m (desiredFinalizers m))
    return decoding.into (withFinalizers m (desiredFinalizers m)) answer
  else return m

/-- Delete every object of a list, stopping at the first failure. -/
def deleteAll {k : Kind} : List (Obj k) → Code Unit :=
  forEach fun obj => do orReturn (← deleteObj k obj false)

def deleteSTSAndPVC (stsList : List (Obj .statefulSet))
    (pvcList : List (Obj .persistentVolumeClaim)) : Code Unit := do
  deleteAll stsList
  deleteAll pvcList

def executePVCFinalizer (druid : Druid) : Code Unit :=
  if deletePVCFinalizerName ∈ druid.metadata.finalizers then do
    let pvcList ← orReturn (← listObjs .persistentVolumeClaim druid.ns
      (Finmap.singleton "druid_cr" druid.name))
    let stsList ← orReturn (← listObjs .statefulSet druid.ns (makeLabelsForDruid druid))
    deleteSTSAndPVC stsList pvcList
    orReturn (← updateObj .druid (withFinalizers druid
      (removeString druid.metadata.finalizers deletePVCFinalizerName)))
  else return ()

def executeFinalizers (m : Druid) : Code Unit :=
  if m.spec.disablePVCDeletionFinalizer = false then executePVCFinalizer m else return ()

end DruidOperator.Controller
