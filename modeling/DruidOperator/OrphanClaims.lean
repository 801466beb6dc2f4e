import DruidOperator.Objects

/-!
# Orphaned claims

`deleteOrphanPVC` and what it calls: claims that no pod of the cluster mounts are marked with two
labels, and deleted by a later call that finds the mark 60 seconds old. A call that finds a pod
unhealthy does nothing.
-/

namespace DruidOperator.Controller

open Interaction Prog Kube

def toBeDeletedLabel : String := "toBeDeleted"

def deletionTSLabel : String := "deletionTS"

/-! ## Integers of 64 bits and times -/

/-- Two's complement. -/
def wrap64 (n : Int) : Int := Int.bmod n (2 ^ 64)

/-- `strconv.FormatInt(n, 10)`. -/
def formatInt (n : Int) : String :=
  if n < 0 then String.ofList ('-' :: Nat.toDigits 10 n.natAbs)
  else String.ofList (Nat.toDigits 10 n.natAbs)

/-- Digits, at least one. -/
def parseDigits (cs : List Char) : Option ℕ :=
  if cs ≠ [] ∧ cs.all Char.isDigit then some (Nat.ofDigitChars 10 cs 0) else none

/-- `strconv.ParseInt(s, 10, 64)`. -/
def parseInt (s : String) : Option Int :=
  let value := match s.toList with
    | '-' :: cs => (parseDigits cs).map fun n => -(n : Int)
    | '+' :: cs => (parseDigits cs).map fun n => (n : Int)
    | cs => (parseDigits cs).map fun n => (n : Int)
  value.bind fun n => if -2 ^ 63 ≤ n ∧ n < 2 ^ 63 then some n else none

/-- The seconds of `time.Unix(sec, 0)` since the year 1. -/
def internalSeconds (sec : Int) : Int := wrap64 (sec + 62135596800)

def maxDuration : Int := 2 ^ 63 - 1

def minDuration : Int := -2 ^ 63

/-- `t.ext + d` of `Time.addSec`, held at the ends of the range. -/
def addSeconds (t d : Int) : Int :=
  let sum := wrap64 (t + d)
  if (t < sum ↔ 0 < d) then sum else if 0 < d then 2 ^ 63 - 1 else -(2 ^ 63 - 1)

/-- `t.Sub(u)` of two times that are a whole number of seconds. -/
def subTimes (t u : Int) : Int :=
  let d := wrap64 (wrap64 (t - u) * 10 ^ 9)
  if d % 10 ^ 9 = 0 ∧ addSeconds u (d / 10 ^ 9) = t then d
  else if t < u then minDuration else maxDuration

/-- The difference of two epoch times in seconds. -/
def timeDifference (epochTime1 epochTime2 : Int) : Int :=
  (subTimes (internalSeconds epochTime2) (internalSeconds epochTime1)).tdiv (10 ^ 9)

/-! ## Marks -/

def hasLabel {β : Type} (o : Object β) (label : String) : Bool :=
  ((o.metadata.labels.bind fun ls => ls.lookup label)).isSome

/-- The claim is marked for deletion. -/
def isMarked (pvc : Obj .persistentVolumeClaim) : Bool := hasLabel pvc toBeDeletedLabel

def withLabels {β : Type} (o : Object β) (labels : Option StrMap) : Object β :=
  { o with metadata := { o.metadata with labels := labels } }

/-- Both labels added, with the time of the mark. -/
def marked (labels : StrMap) (time : Int) : StrMap :=
  (labels.insert toBeDeletedLabel "yes").insert deletionTSLabel (formatInt time)

/-- Both labels removed. -/
def unmarked (labels : StrMap) : StrMap := (labels.erase toBeDeletedLabel).erase deletionTSLabel

def setPVCLabels (pvc : Obj .persistentVolumeClaim) (labels : Option StrMap) : Code Unit := do
  orReturn (← updateObj .persistentVolumeClaim (withLabels pvc labels))

/-- `pvc.GetLabels()[deletionTSLabel]`. -/
def deletionTS (pvc : Obj .persistentVolumeClaim) : String :=
  StrMap.getD pvc.metadata.labels deletionTSLabel

def checkPVCLabelsAndDelete (pvc : Obj .persistentVolumeClaim) : Code Unit :=
  match parseInt (deletionTS pvc) with
  | none => fail ("strconv.ParseInt: parsing " ++ deletionTS pvc)
  | some parsedDeletionTS => do
      let timeNow ← unixNow
      if 60 ≤ timeDifference parsedDeletionTS timeNow then
        orReturn (← deleteObj .persistentVolumeClaim pvc false)
      else return ()

/-! ## One pass -/

/-- The pod runs and every condition of it is true. -/
def podHealthy (pod : Obj .pod) : Bool :=
  decide (pod.body.phase = .running) && pod.body.conditions.all fun c => decide (c.status = .true)

/-- The claims a pod mounts. -/
def podClaims (pod : Obj .pod) : List String :=
  pod.body.volumes.filterMap fun vol =>
    match vol.source with
    | .persistentVolumeClaim claimName => some claimName
    | _ => none

/-- The names of the mounted claims. The slice is made with one empty name per pod, and a name is
appended when it is not there yet. -/
def mountedPVCs (podList : List (Obj .pod)) : List String :=
  podList.foldl (fun mounted pod =>
    if pod.body.phase ≠ .pending then
      (podClaims pod).foldl (fun mounted name =>
        if name ∈ mounted then mounted else mounted ++ [name]) mounted
    else mounted) (List.replicate podList.length "")

/-- What a pass does about one claim. -/
def collectPVC (mountedPVC : List String) (pvc : Obj .persistentVolumeClaim) : Code Unit :=
  if pvc.name ∉ mountedPVC then
    if isMarked pvc then checkPVCLabelsAndDelete pvc
    else
      match pvc.metadata.labels with
      | none => .exit (.panic "assignment to entry in nil map")
      | some labels => do
          let timeNow ← unixNow
          setPVCLabels pvc (some (marked labels timeNow))
  else if isMarked pvc then setPVCLabels pvc (pvc.metadata.labels.map unmarked)
  else return ()

/-- A pass updates or deletes the claim itself and nothing else. -/
def CollectsClaim (key : String × String) : Verb → Kind → String × String → Prop :=
  fun v k key' => (v = .update ∨ v = .delete) ∧ k = .persistentVolumeClaim ∧ key' = key

theorem uses_collectPVC (mountedPVC : List String) (pvc : Obj .persistentVolumeClaim) :
    (collectPVC mountedPVC pvc).Uses (Request.Within (CollectsClaim pvc.key)) := by
  have hset : ∀ labels, (setPVCLabels pvc labels).Uses (Request.Within (CollectsClaim pvc.key)) :=
    fun labels => Uses.bind (by simp [CollectsClaim, withLabels, Object.key]) fun _ => by simp
  unfold collectPVC
  split_ifs
  · exact hset _
  · trivial
  · unfold checkPVCLabelsAndDelete
    split
    · trivial
    · refine Uses.bind (by simp) fun timeNow => ?_
      split_ifs
      · exact Uses.bind (by simp [CollectsClaim]) fun _ => by simp
      · trivial
  · split
    · trivial
    · exact Uses.bind (by simp) fun _ => hset _

def orphanLabels (drd : Druid) : StrMap := Finmap.singleton "druid_cr" drd.name

def deleteOrphanPVC (drd : Druid) : Code Unit := do
  let podList ← orReturn (← listObjs .pod drd.ns (makeLabelsForDruid drd))
  let pvcList ← orReturn (← listObjs .persistentVolumeClaim drd.ns (orphanLabels drd))
  if podList.all podHealthy then forEach (collectPVC (mountedPVCs podList)) pvcList
  else return ()

end DruidOperator.Controller
