import DruidOperator.Objects
import DruidOperator.Lib.Regex
import DruidOperator.Lib.Buckets

/-!
# Validation and ordering of the node groups

`verifyDruidSpec` and `getNodeSpecsByOrder`. Both range over the map `Spec.Nodes`, and Go ranges
over a map in an order of its own each time: a `MapOrder` is one such order, and every loop over
the map takes its own.
-/

namespace DruidOperator.Controller

/-- An order in which a map is ranged over: every entry once. -/
structure MapOrder where
  range : List ServiceGroup → List ServiceGroup
  perm : ∀ l, (range l).Perm l

namespace MapOrder

def asStored : MapOrder := ⟨id, List.Perm.refl⟩

def reversed : MapOrder := ⟨List.reverse, List.reverse_perm⟩

/-- The entries of `Spec.Nodes` in this order. -/
def nodes (o : MapOrder) (m : Druid) : List ServiceGroup := o.range m.spec.nodes.items

theorem mem_nodes {o : MapOrder} {m : Druid} {g : ServiceGroup} :
    g ∈ o.nodes m ↔ g ∈ m.spec.nodes.items := (o.perm _).mem_iff

end MapOrder

/-- The orders of the four loops over `Spec.Nodes` in one call of `deployDruidCluster`. -/
structure MapOrders where
  containers : MapOrder := .asStored
  claims : MapOrder := .asStored
  keys : MapOrder := .asStored
  groups : MapOrder := .asStored

/-! ## Validation -/

/-- `for _, x := range xs { if err := f(x); err != nil { return err } }`. -/
def firstError {α : Type} (f : α → Except Error Unit) : List α → Except Error Unit
  | [] => .ok ()
  | x :: xs =>
      match f x with
      | .ok () => firstError f xs
      | .error e => .error e

theorem firstError_eq_ok {α : Type} {f : α → Except Error Unit} {xs : List α} :
    firstError f xs = .ok () ↔ ∀ x ∈ xs, f x = .ok () := by
  induction xs with
  | nil => simp [firstError]
  | cons x xs ih =>
      cases hx : f x with
      | ok u => simp [firstError, hx, ih]
      | error e => simp [firstError, hx]

/-- The first text that occurs again later, as the loop over the texts finds it. -/
def hasDuplicateString (seen : List String) : List String → Option String
  | [] => none
  | s :: ss => if s ∈ seen then some s else hasDuplicateString (s :: seen) ss

def validateNodeAdditionalContainersSpec (drd : Druid) (nodeSpec : DruidNodeSpec) :
    Except Error Unit :=
  match hasDuplicateString []
      ((getAllAdditionalContainers drd nodeSpec).map AdditionalContainer.containerName) with
  | some containerName => .error ⟨"node group " ++ nodeSpec.nodeType.text ++
      " has duplicate container name: " ++ containerName, false⟩
  | none => .ok ()

def validateAdditionalContainersSpec (drd : Druid) (nodes : List ServiceGroup) :
    Except Error Unit :=
  firstError (fun g => validateNodeAdditionalContainersSpec drd g.spec) nodes

def validateNodeVolumeClaimTemplateSpec (nodeSpec : DruidNodeSpec) : Except Error Unit :=
  firstError (fun vct =>
    if vct.body.storageClassName.getD "" = "" then
      .error ⟨"node group " ++ nodeSpec.nodeType.text ++
        " has volume claim template without storage class which is not allowed: " ++ vct.name,
        false⟩
    else .ok ()) nodeSpec.volumeClaimTemplates

def validateVolumeClaimTemplateSpec (nodes : List ServiceGroup) : Except Error Unit :=
  firstError (fun g =>
    if g.spec.kind = "StatefulSet" then validateNodeVolumeClaimTemplateSpec g.spec else .ok ())
    nodes

/-- `[a-z0-9]`. -/
def alnum : Regex := .char fun c => ('a' ≤ c && c ≤ 'z') || ('0' ≤ c && c ≤ '9')

/-- `[a-z0-9]([-a-z0-9]*[a-z0-9])?`. -/
def dnsLabel : Regex :=
  .seq alnum (.opt (.seq (.star (.alt (.char fun c => c == '-') alnum)) alnum))

/-- `[a-z0-9]([-a-z0-9]*[a-z0-9])?(\.[a-z0-9]([-a-z0-9]*[a-z0-9])?)*`. -/
def keyValidationRegex : Regex :=
  .seq dnsLabel (.star (.seq (.char fun c => c == '.') dnsLabel))

/-- What the last loop of the validation adds to the message for one node group. -/
def nodeErrors (drd : Druid) (g : ServiceGroup) : String :=
  (if drd.spec.image = "" ∧ g.spec.image = "" then
    "Image missing from Druid Cluster Spec\n" else "") ++
  if keyValidationRegex.found g.key.toList then "" else
    "Node[" ++ g.key ++ "] Key must match k8s resource name regex " ++
    "'[a-z0-9]([-a-z0-9]*[a-z0-9])?(\\.[a-z0-9]([-a-z0-9]*[a-z0-9])?)*'"

/-- The messages are accepted or rejected as a whole; that `fmt.Errorf` reads them as a format is
not kept. -/
def verifyDruidSpec (o : MapOrders) (drd : Druid) : Except Error Unit := do
  validateAdditionalContainersSpec drd (o.containers.nodes drd)
  validateVolumeClaimTemplateSpec (o.claims.nodes drd)
  let errorMsg := (o.keys.nodes drd).foldl (fun errorMsg g => errorMsg ++ nodeErrors drd g) ""
  if errorMsg = "" then .ok () else .error ⟨errorMsg, false⟩

/-! ## Order -/

def druidServicesOrder : List NodeType :=
  [.historical, .overlord, .middleManager, .indexer, .broker, .coordinator, .router]

/-- The node groups by node type, in the order the map was ranged over. -/
def scaledServiceSpecsByNodeType (nodes : List ServiceGroup) : NodeType → List ServiceGroup :=
  nodes.foldl (fun byType g =>
    Function.update byType g.spec.nodeType (byType g.spec.nodeType ++ [g])) fun _ => []

def getNodeSpecsByOrder (o : MapOrder) (m : Druid) : List ServiceGroup :=
  druidServicesOrder.flatMap (scaledServiceSpecsByNodeType (o.nodes m))

/-- The groups by node type are the buckets of a bucket sort. -/
theorem getNodeSpecsByOrder_eq (o : MapOrder) (m : Druid) :
    getNodeSpecsByOrder o m =
      Buckets.sort (fun g => g.spec.nodeType) druidServicesOrder (o.nodes m) := rfl

theorem nodup_druidServicesOrder : druidServicesOrder.Nodup := by decide

theorem mem_getNodeSpecsByOrder {o : MapOrder} {m : Druid} {g : ServiceGroup} :
    g ∈ getNodeSpecsByOrder o m ↔
      g ∈ m.spec.nodes.items ∧ g.spec.nodeType ∈ druidServicesOrder := by
  rw [getNodeSpecsByOrder_eq, Buckets.mem_sort, MapOrder.mem_nodes]

theorem perm_getNodeSpecsByOrder (o : MapOrder) (m : Druid) :
    (getNodeSpecsByOrder o m).Perm m.spec.nodes.items := by
  rw [getNodeSpecsByOrder_eq]
  refine (Buckets.sort_perm _ nodup_druidServicesOrder fun g _ => ?_).trans (o.perm _)
  cases g.spec.nodeType <;> decide

theorem nodup_getNodeSpecsByOrder (o : MapOrder) (m : Druid) :
    ((getNodeSpecsByOrder o m).map ServiceGroup.key).Nodup :=
  ((perm_getNodeSpecsByOrder o m).map _).nodup_iff.2 m.spec.nodes.nodup

/-- The order of a rolling update: the data nodes first, the router last. -/
def rolloutPlace : NodeType → ℕ
  | .historical => 0
  | .overlord => 1
  | .middleManager => 2
  | .indexer => 3
  | .broker => 4
  | .coordinator => 5
  | .router => 6

theorem idxOf_druidServicesOrder (t : NodeType) : druidServicesOrder.idxOf t = rolloutPlace t := by
  cases t <;> decide

/-- **Ordering loses and duplicates nothing.** In whatever order the map is ranged over, the list
holds every entry of it once, and no group precedes one whose type has an earlier place. -/
theorem ordered_exactly_once (o : MapOrder) (m : Druid) :
    (getNodeSpecsByOrder o m).Perm m.spec.nodes.items ∧
      ((getNodeSpecsByOrder o m).map ServiceGroup.key).Nodup ∧
      (getNodeSpecsByOrder o m).Pairwise fun g g' =>
        rolloutPlace g.spec.nodeType ≤ rolloutPlace g'.spec.nodeType := by
  refine ⟨perm_getNodeSpecsByOrder o m, nodup_getNodeSpecsByOrder o m, ?_⟩
  rw [getNodeSpecsByOrder_eq]
  refine (Buckets.pairwise_sort _ nodup_druidServicesOrder _).imp fun {g g'} hle => ?_
  rwa [idxOf_druidServicesOrder, idxOf_druidServicesOrder] at hle

end DruidOperator.Controller
