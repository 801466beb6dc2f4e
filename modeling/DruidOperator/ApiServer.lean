import DruidOperator.Types
import DruidOperator.Lib.Runs

/-!
# The API server

What the cluster controller can ask of Kubernetes, and an API server that answers.

* `Request`, `sig` — the calls of the client the controller makes, and the type of each response.
* `Cluster`, `perform` — the stored objects of every kind, and what one call does to them.
* `Env`, `serve` — the server as a controller meets it: any call may fail, with or without having
  taken effect, and others may change the cluster between two calls.

Every write names the one object it can change (`Request.write`), and `perform_frame` says that it
leaves all others alone. `Effect` lists what a call can do to the objects of one kind, and what
calls preserve is shown by its cases.
-/

namespace DruidOperator.Kube

open Interaction

/-! ## Requests -/

inductive Request where
  | get (k : Kind) (ns name : String)
  | list (k : Kind) (ns : String) (selector : StrMap)
  | create (k : Kind) (obj : Obj k)
  | update (k : Kind) (obj : Obj k)
  /-- With `orphan` the dependents of the object are kept. -/
  | delete (k : Kind) (obj : Obj k) (orphan : Bool)
  /-- The merge patch from `base` to `obj`. -/
  | patchClaim (base obj : Obj .persistentVolumeClaim)
  /-- The JSON patch that replaces `/metadata/finalizers`. -/
  | patchFinalizers (cr : Druid) (finalizers : List String)
  /-- The merge patch with the one field `status`. -/
  | patchStatus (cr : Druid) (status : DruidClusterStatus)
  /-- `time.Now().Unix()`. -/
  | now

abbrev Response : Request → Type
  | .get k _ _ => Except Error (Obj k)
  | .list k _ _ => Except Error (List (Obj k))
  | .create _ _ => Except Error Unit
  | .update _ _ => Except Error Unit
  | .delete _ _ _ => Except Error Unit
  | .patchClaim _ _ => Except Error Unit
  | .patchFinalizers _ _ => Except Error Druid
  | .patchStatus _ _ => Except Error Unit
  | .now => Int

abbrev sig : Signature := ⟨Request, Response⟩

/-- A part of the controller. -/
abbrev Code (α : Type) := Prog sig Exit α

/-- The ways a request can change an object. -/
inductive Verb where
  | create | update | delete | patch
deriving DecidableEq

/-- What a request may change: how, and the kind and the key of the one object. -/
def Request.write : Request → Option (Verb × Kind × String × String)
  | .create k obj => some (.create, k, obj.key)
  | .update k obj => some (.update, k, obj.key)
  | .delete k obj _ => some (.delete, k, obj.key)
  | .patchClaim _ obj => some (.patch, .persistentVolumeClaim, obj.key)
  | .patchFinalizers cr _ => some (.patch, .druid, cr.key)
  | .patchStatus cr _ => some (.patch, .druid, cr.key)
  | _ => none

/-- A request that writes nothing outside `A`. -/
def Request.Within (A : Verb → Kind → String × String → Prop) (r : Request) : Prop :=
  ∀ v k key, r.write = some (v, k, key) → A v k key

def getObj (k : Kind) (ns name : String) : Code (Except Error (Obj k)) :=
  .call (.get k ns name) .ret

def listObjs (k : Kind) (ns : String) (selector : StrMap) : Code (Except Error (List (Obj k))) :=
  .call (.list k ns selector) .ret

def createObj (k : Kind) (obj : Obj k) : Code (Except Error Unit) := .call (.create k obj) .ret

def updateObj (k : Kind) (obj : Obj k) : Code (Except Error Unit) := .call (.update k obj) .ret

def deleteObj (k : Kind) (obj : Obj k) (orphan : Bool) : Code (Except Error Unit) :=
  .call (.delete k obj orphan) .ret

def patchClaim (base obj : Obj .persistentVolumeClaim) : Code (Except Error Unit) :=
  .call (.patchClaim base obj) .ret

def patchFinalizers (cr : Druid) (finalizers : List String) : Code (Except Error Druid) :=
  .call (.patchFinalizers cr finalizers) .ret

def patchStatus (cr : Druid) (status : DruidClusterStatus) : Code (Except Error Unit) :=
  .call (.patchStatus cr status) .ret

def unixNow : Code Int := .call .now .ret

/-! ## The stored objects -/

/-- The objects of one kind, by namespace and name. -/
abbrev Store (k : Kind) := Table fun o : Obj k => o.key

structure Cluster where
  store : (k : Kind) → Store k := fun _ => .empty
  /-- The last resource version given out. -/
  version : ℕ := 0

namespace Cluster

/-- Storage classes belong to no namespace; the client drops it. -/
def scope (k : Kind) (ns : String) : String := if k = .storageClass then "" else ns

def find? (c : Cluster) (k : Kind) (ns name : String) : Option (Obj k) :=
  (c.store k).find? (scope k ns, name)

def listed (c : Cluster) (k : Kind) (ns : String) (selector : StrMap) : List (Obj k) :=
  (c.store k).items.filter fun o => decide (o.ns = ns ∧ selector.Matches o.metadata.labels)

/-- Change the store of one kind, giving out a new resource version. -/
def modify (c : Cluster) (k : Kind) (f : ℕ → Store k → Store k) : Cluster where
  store := Function.update c.store k (f (c.version + 1) (c.store k))
  version := c.version + 1

/-- Store a new version of an object; one that is being deleted and has no finalizer left is
gone. -/
def put (k : Kind) (obj : Obj k) (version : ℕ) (t : Store k) : Store k :=
  if obj.metadata.deletionTimestamp.isSome ∧ obj.metadata.finalizers = [] then t.erase obj.key
  else t.replace (obj.withResourceVersion version)

end Cluster

def alreadyExists (name : String) : Error := ⟨name ++ " already exists", false⟩

def notFoundError (name : String) : Error := ⟨name ++ " not found", true⟩

def conflict (name : String) : Error :=
  ⟨"Operation cannot be fulfilled on " ++ name ++ ": the object has been modified", false⟩

/-- What is stored of a new object: it is not being deleted, whatever it says. -/
def accepted {k : Kind} (obj : Obj k) (version : ℕ) : Obj k :=
  { obj with metadata := { obj.metadata with
    resourceVersion := version
    deletionTimestamp := none } }

@[simp] theorem accepted_key {k : Kind} (obj : Obj k) (version : ℕ) :
    (accepted obj version).key = obj.key := rfl

/-! ### A resource that is sent

A field with the tag `omitempty` is left out of the JSON when it is empty, and the API server fills
in the default of the schema. -/

def omitEmptyMap {α : Type} [DecidableEq α] (m : Option (Finmap fun _ : String => α)) :
    Option (Finmap fun _ : String => α) :=
  m.filter (· ≠ ∅)

def defaultText (default text : String) : String := if text = "" then default else text

def sentMeta (metadata : ObjectMeta) : ObjectMeta :=
  { metadata with
    labels := omitEmptyMap metadata.labels
    annotations := omitEmptyMap metadata.annotations }

def sentService (svc : Object Service) : Object Service :=
  { svc with
    metadata := sentMeta svc.metadata
    body := { svc.body with
      selector := omitEmptyMap svc.body.selector
      ports := omitEmptyList svc.body.ports } }

def sentClaim (pvc : Object PersistentVolumeClaim) : Object PersistentVolumeClaim :=
  { pvc with
    metadata := sentMeta pvc.metadata
    body := { pvc.body with requests := omitEmptyMap pvc.body.requests } }

def sentContainer (container : AdditionalContainer) : AdditionalContainer :=
  { container with envFrom := omitEmptyList container.envFrom }

def sentNodeSpec (nodeSpec : DruidNodeSpec) : DruidNodeSpec :=
  { nodeSpec with
    kind := defaultText "StatefulSet" nodeSpec.kind
    podLabels := omitEmptyMap nodeSpec.podLabels
    podDisruptionBudgetSpec := nodeSpec.podDisruptionBudgetSpec.map fun budget =>
      { budget with selector := omitEmptyMap budget.selector }
    services := omitEmptyList (nodeSpec.services.map (List.map sentService))
    nodeSelector := omitEmptyMap nodeSpec.nodeSelector
    imagePullSecrets := omitEmptyList nodeSpec.imagePullSecrets
    env := omitEmptyList nodeSpec.env
    envFrom := omitEmptyList nodeSpec.envFrom
    podAnnotations := omitEmptyMap nodeSpec.podAnnotations
    podManagementPolicy := defaultText "Parallel" nodeSpec.podManagementPolicy
    ingressAnnotations := omitEmptyMap nodeSpec.ingressAnnotations
    workloadAnnotations := omitEmptyMap nodeSpec.workloadAnnotations
    persistentVolumeClaim := nodeSpec.persistentVolumeClaim.map sentClaim
    volumeClaimTemplates := nodeSpec.volumeClaimTemplates.map sentClaim
    additionalContainer := nodeSpec.additionalContainer.map sentContainer }

/-- What is stored of a spec that is sent. Of the switches `forceDeleteStsPodOnError` alone is true
by default and left out when it is false, so that it comes back true. -/
def sentSpec (spec : DruidSpec) : DruidSpec :=
  { spec with
    forceDeleteStsPodOnError := true
    imagePullSecrets := omitEmptyList spec.imagePullSecrets
    imagePullPolicy := defaultText "IfNotPresent" spec.imagePullPolicy
    env := omitEmptyList spec.env
    envFrom := omitEmptyList spec.envFrom
    volumeClaimTemplates := spec.volumeClaimTemplates.map sentClaim
    podAnnotations := omitEmptyMap spec.podAnnotations
    workloadAnnotations := omitEmptyMap spec.workloadAnnotations
    podManagementPolicy := defaultText "Parallel" spec.podManagementPolicy
    podLabels := omitEmptyMap spec.podLabels
    services := omitEmptyList (spec.services.map (List.map sentService))
    nodeSelector := omitEmptyMap spec.nodeSelector
    nodes := spec.nodes.map (fun g => { g with spec := sentNodeSpec g.spec }) fun _ => rfl
    additionalContainer := spec.additionalContainer.map sentContainer }

/-- The body an update stores: the status is left as it is. -/
def sentBody : (k : Kind) → Body k → Body k → Body k
  | .statefulSet, stored, obj => { obj with status := stored.status }
  | .deployment, stored, obj => { obj with status := stored.status }
  | .druid, stored, obj => { spec := sentSpec obj.spec, status := stored.status }
  | _, _, obj => obj

/-- The object an update stores: the identity of the stored one, the rest as sent. The generation,
which goes up when the spec changes, is left as it is: it is read of a Druid resource that stays
only, and the operator updates no such resource. -/
def updated (k : Kind) (stored obj : Obj k) : Obj k where
  apiVersion := obj.apiVersion
  kind := obj.kind
  metadata := { obj.metadata with
    uid := stored.metadata.uid
    generation := stored.metadata.generation
    deletionTimestamp := stored.metadata.deletionTimestamp }
  body := sentBody k stored.body obj.body

/-- `Requests["storage"]`. -/
def storageRequest (o : Object PersistentVolumeClaim) : Option Quantity :=
  o.body.requests.bind fun r => r.lookup "storage"

def withStorageRequest (o : Object PersistentVolumeClaim) (q : Quantity) :
    Object PersistentVolumeClaim :=
  { o with body := { o.body with requests := some ((o.body.requests.getD ∅).insert "storage" q) } }

/-- The merge patch between two versions of a claim carries the storage request if they differ
in it. -/
def patchedClaim (base obj stored : Object PersistentVolumeClaim) :
    Object PersistentVolumeClaim :=
  match storageRequest obj with
  | some q => if storageRequest base = some q then stored else withStorageRequest stored q
  | none => stored

/-- A text or a list that is empty is left out of a merge patch. -/
def mergeText (stored new : String) : String := if new = "" then stored else new

def mergeNames (stored new : Option (List String)) : Option (List String) :=
  if new.getD [] = [] then stored else new

/-- A merge patch with the status `new`, applied to the stored status. -/
def mergeStatus (stored new : DruidClusterStatus) : DruidClusterStatus where
  druidNodeStatus :=
    { druidNode := mergeText stored.druidNodeStatus.druidNode new.druidNodeStatus.druidNode
      druidNodeConditionStatus := new.druidNodeStatus.druidNodeConditionStatus.or
        stored.druidNodeStatus.druidNodeConditionStatus
      druidNodeConditionType := new.druidNodeStatus.druidNodeConditionType.or
        stored.druidNodeStatus.druidNodeConditionType
      reason := mergeText stored.druidNodeStatus.reason new.druidNodeStatus.reason }
  statefulSets := mergeNames stored.statefulSets new.statefulSets
  deployments := mergeNames stored.deployments new.deployments
  services := mergeNames stored.services new.services
  configMaps := mergeNames stored.configMaps new.configMaps
  podDisruptionBudgets := mergeNames stored.podDisruptionBudgets new.podDisruptionBudgets
  ingress := mergeNames stored.ingress new.ingress
  hpAutoScalers := mergeNames stored.hpAutoScalers new.hpAutoScalers
  pods := mergeNames stored.pods new.pods
  persistentVolumeClaims := mergeNames stored.persistentVolumeClaims new.persistentVolumeClaims

/-- Apply `f` to the stored object, or answer that there is none. -/
def Cluster.patch (c : Cluster) (k : Kind) (key : String × String) (f : Obj k → Obj k) :
    Except Error Unit × Cluster :=
  match (c.store k).find? key with
  | none => (.error (notFoundError key.2), c)
  | some stored => (.ok (), c.modify k (Cluster.put k (f stored)))

/-- What is answered to a patch: the object as it is stored then. -/
def Cluster.answered (c : Cluster) (k : Kind) (key : String × String) (f : Obj k → Obj k) :
    Except Error (Obj k) :=
  match (c.store k).find? key with
  | none => .error (notFoundError key.2)
  | some stored => .ok ((f stored).withResourceVersion (c.version + 1))

def withFinalizers (m : Druid) (finalizers : List String) : Druid :=
  { m with metadata := { m.metadata with finalizers := finalizers } }

/-- What a call does when it is served. The answer to a patch of the finalizers is the one the
controller goes on with. An object that is deleted is gone at once: the finalizers with which a
cluster keeps a StatefulSet or a claim for a while are left out. -/
def perform (clock : Int) : (r : Request) → Cluster → Response r × Cluster
  | .get k ns name, c =>
      match c.find? k ns name with
      | some obj => (.ok obj, c)
      | none => (.error (notFoundError name), c)
  | .list k ns selector, c => (.ok (c.listed k ns selector), c)
  | .create k obj, c =>
      match (c.store k).find? obj.key with
      | some _ => (.error (alreadyExists obj.name), c)
      | none => (.ok (), c.modify k fun version t => t.insert (accepted obj version))
  | .update k obj, c =>
      match (c.store k).find? obj.key with
      | none => (.error (notFoundError obj.name), c)
      | some stored =>
          if obj.metadata.resourceVersion ≠ 0 ∧
              obj.metadata.resourceVersion ≠ stored.metadata.resourceVersion then
            (.error (conflict obj.name), c)
          else (.ok (), c.modify k (Cluster.put k (updated k stored obj)))
  | .delete k obj _, c =>
      match (c.store k).find? obj.key with
      | none => (.error (notFoundError obj.name), c)
      | some _ => (.ok (), c.modify k fun _ t => t.erase obj.key)
  | .patchClaim base obj, c => c.patch .persistentVolumeClaim obj.key (patchedClaim base obj)
  | .patchFinalizers cr finalizers, c =>
      (c.answered .druid cr.key (withFinalizers · finalizers),
        (c.patch .druid cr.key (withFinalizers · finalizers)).2)
  | .patchStatus cr status, c => c.patch .druid cr.key fun stored =>
      { stored with body := { stored.body with status := mergeStatus stored.body.status status } }
  | .now, c => (clock, c)

/-! ## The server as the controller meets it -/

/-- A call that fails, perhaps after it took effect. -/
structure Fault where
  err : Error
  applied : Bool := false

/-- What the outside does during one call of the controller. -/
structure Env where
  clock : Int := 0
  /-- How the `n`-th request fails, if it does. -/
  fault : ℕ → Option Fault := fun _ => none
  /-- What others did to the cluster just before the `n`-th request. -/
  others : ℕ → Cluster → Cluster := fun _ c => c

structure World where
  cluster : Cluster := {}
  /-- The number of requests served so far. -/
  calls : ℕ := 0

/-- Nothing but the resource is stored. -/
def storedAlone (m : Druid) : World where
  cluster := { store := Function.update (fun _ => .empty) .druid (Table.insert .empty m) }

/-- An error in place of a response; reading the clock does not fail. -/
def Response.fail : (r : Request) → Response r → Error → Response r
  | .get _ _ _, _, e => .error e
  | .list _ _ _, _, e => .error e
  | .create _ _, _, e => .error e
  | .update _ _, _, e => .error e
  | .delete _ _ _, _, e => .error e
  | .patchClaim _ _, _, e => .error e
  | .patchFinalizers _ _, _, e => .error e
  | .patchStatus _ _, _, e => .error e
  | .now, t, _ => t

/-- A response that is an error. -/
def Response.failed : (r : Request) → Response r → Prop
  | .get _ _ _, x => x.isOk = false
  | .list _ _ _, x => x.isOk = false
  | .create _ _, x => x.isOk = false
  | .update _ _, x => x.isOk = false
  | .delete _ _ _, x => x.isOk = false
  | .patchClaim _ _, x => x.isOk = false
  | .patchFinalizers _ _, x => x.isOk = false
  | .patchStatus _ _, x => x.isOk = false
  | .now, _ => False

/-- The cluster in which the next request is served. -/
def Env.seen (env : Env) (w : World) : Cluster := env.others w.calls w.cluster

def serve (env : Env) : Handler sig World := fun r w =>
  let served := perform env.clock r (env.seen w)
  match env.fault w.calls with
  | none => (served.1, ⟨served.2, w.calls + 1⟩)
  | some f => (Response.fail r served.1 f.err,
      ⟨if f.applied then served.2 else env.seen w, w.calls + 1⟩)

/-! ## What a call changes -/

variable {k k' : Kind} {obj : Obj k} {t : Store k} {key : String × String} {c : Cluster}
    {r : Request} {clock : Int} {env : Env} {w : World}

namespace Cluster

@[simp] theorem modify_store_self (c : Cluster) (k : Kind) (f : ℕ → Store k → Store k) :
    (c.modify k f).store k = f (c.version + 1) (c.store k) := Function.update_self ..

@[simp] theorem modify_store_of_ne (c : Cluster) (f : ℕ → Store k → Store k) (h : k' ≠ k) :
    (c.modify k f).store k' = c.store k' := Function.update_of_ne h ..

theorem find?_put_of_ne {version : ℕ} (h : key ≠ obj.key) :
    (put k obj version t).find? key = t.find? key := by
  unfold put
  split_ifs
  · rw [Table.find?_erase, if_neg h.symm]
  · by_cases hobj : t.find? obj.key = none
    · -- nothing has the key of the object, so nothing is replaced
      refine Option.ext fun o => ?_
      rw [Table.find?_eq_some, Table.find?_eq_some, Table.mem_replace]
      constructor
      · rintro ⟨⟨ho, -⟩ | ⟨-, c, hc, hkey⟩, hok⟩
        · exact ⟨ho, hok⟩
        · exact absurd hkey (Table.find?_eq_none.1 hobj c hc)
      · rintro ⟨ho, hok⟩
        exact ⟨.inl ⟨ho, fun hk => h (hok.symm.trans hk)⟩, hok⟩
    · rw [Table.find?_replace (by exact hobj), if_neg (by exact h.symm)]

theorem find?_put_self (obj : Obj k) (version : ℕ)
    (hstays : ¬ (obj.metadata.deletionTimestamp.isSome ∧ obj.metadata.finalizers = []))
    (hold : t.find? obj.key ≠ none) :
    (put k obj version t).find? obj.key = some (obj.withResourceVersion version) := by
  unfold put
  rw [if_neg hstays, Table.find?_replace (by exact hold)]
  exact if_pos rfl

/-- What is found under the key of an object that was put is that object, up to its version. -/
theorem find?_put_cases {o : Obj k} {version : ℕ} (h : (put k obj version t).find? key = some o) :
    (key ≠ obj.key ∧ t.find? key = some o) ∨
      (key = obj.key ∧ o = obj.withResourceVersion version) := by
  by_cases hkey : key = obj.key
  · subst hkey
    refine .inr ⟨rfl, ?_⟩
    obtain ⟨hmem, hkey⟩ := Table.find?_eq_some.1 h
    unfold put at hmem
    split_ifs at hmem
    · exact absurd hkey (Table.mem_erase.1 hmem).2
    · rcases Table.mem_replace.1 hmem with ⟨-, hne⟩ | ⟨rfl, -⟩
      · exact absurd hkey hne
      · rfl
  · rw [find?_put_of_ne hkey] at h
    exact .inl ⟨hkey, h⟩

/-- What is found after an object was put was found before, or is that object. -/
theorem of_find?_put {o : Obj k} {version : ℕ} (h : (put k obj version t).find? key = some o) :
    t.find? key = some o ∨ o = obj.withResourceVersion version :=
  (find?_put_cases h).imp And.right And.right

theorem modify_frame {f : ℕ → Store k' → Store k'}
    (hf : k = k' → ∀ n, (f n (c.store k')).find? key = (c.store k').find? key) :
    ((c.modify k' f).store k).find? key = (c.store k).find? key := by
  by_cases hk : k = k'
  · subst hk
    rw [modify_store_self, hf rfl]
  · rw [modify_store_of_ne c f hk]

theorem patch_frame {key' : String × String} {f : Obj k' → Obj k'} (hkey : ∀ o, (f o).key = o.key)
    (h : k = k' → key ≠ key') :
    ((c.patch k' key' f).2.store k).find? key = (c.store k).find? key := by
  unfold patch
  split
  · rfl
  · next stored hstored =>
      refine modify_frame fun hk n => find?_put_of_ne ?_
      rw [hkey, (Table.find?_eq_some.1 hstored).2]
      exact h hk

theorem patch_store_of_ne {f : Obj k' → Obj k'} (h : k ≠ k') :
    (c.patch k' key f).2.store k = c.store k := by
  unfold patch
  split
  · rfl
  · exact modify_store_of_ne _ _ h

theorem listed_nodup (c : Cluster) (k : Kind) (ns : String) (selector : StrMap) :
    ((c.listed k ns selector).map Object.key).Nodup :=
  (c.store k).nodup.sublist (List.filter_sublist.map _)

theorem stored_of_listed {ns : String} {selector : StrMap} {o : Obj k}
    (ho : o ∈ c.listed k ns selector) : (c.store k).find? o.key = some o :=
  Table.find?_eq_some.2 ⟨(List.mem_filter.1 ho).1, rfl⟩

end Cluster

theorem patchedClaim_metadata (base obj stored : Object PersistentVolumeClaim) :
    (patchedClaim base obj stored).metadata = stored.metadata := by
  unfold patchedClaim
  split
  · split_ifs <;> rfl
  · rfl

theorem patchedClaim_key (base obj stored : Object PersistentVolumeClaim) :
    (patchedClaim base obj stored).key = stored.key := by
  rw [Object.key, Object.key, patchedClaim_metadata]

/-- What a call can do to the objects of one kind. -/
inductive Effect (c : Cluster) : Kind → Request → Cluster → Prop where
  | none {k : Kind} {r : Request} {c' : Cluster} (hstore : c'.store k = c.store k)
      (hversion : c.version ≤ c'.version) : Effect c k r c'
  | created {k : Kind} {obj : Obj k} (hnew : (c.store k).find? obj.key = none) :
      Effect c k (.create k obj) (c.modify k fun version t => t.insert (accepted obj version))
  | updated {k : Kind} {obj stored : Obj k} (hstored : (c.store k).find? obj.key = some stored)
      (hversion : obj.metadata.resourceVersion ≠ 0 →
        obj.metadata.resourceVersion = stored.metadata.resourceVersion) :
      Effect c k (.update k obj) (c.modify k (Cluster.put k (updated k stored obj)))
  | deleted {k : Kind} {obj : Obj k} {orphan : Bool} :
      Effect c k (.delete k obj orphan) (c.modify k fun _ t => t.erase obj.key)
  | claim {base obj stored : Obj .persistentVolumeClaim}
      (hstored : (c.store .persistentVolumeClaim).find? obj.key = some stored) :
      Effect c .persistentVolumeClaim (.patchClaim base obj)
        (c.modify .persistentVolumeClaim (Cluster.put _ (patchedClaim base obj stored)))
  /-- A patch of the finalizers or of the status. -/
  | resource {r : Request} (stored : Druid) {finalizers : List String} {status : DruidClusterStatus}
      (hwrite : r.write = some (.patch, .druid, stored.key))
      (hstored : (c.store .druid).find? stored.key = some stored) :
      Effect c .druid r (c.modify .druid (Cluster.put .druid
        { stored with
          metadata := { stored.metadata with finalizers := finalizers },
          body := { stored.body with status := status } }))

theorem Effect.other {f : ℕ → Store k' → Store k'} (hk : k ≠ k') : Effect c k r (c.modify k' f) :=
  .none (Cluster.modify_store_of_ne c f hk) (Nat.le_succ _)

theorem Effect.of_patch {f : Obj k' → Obj k'} (h : ∀ stored, (c.store k').find? key = some stored →
      Effect c k' r (c.modify k' (Cluster.put k' (f stored)))) :
    Effect c k r (c.patch k' key f).2 := by
  unfold Cluster.patch
  split
  · exact .none rfl le_rfl
  · next stored hstored =>
      by_cases hk : k = k'
      · subst hk
        exact h stored hstored
      · exact .other hk

/-- **What a call does**, to each kind. -/
theorem perform_effect (clock : Int) (r : Request) (c : Cluster) (k : Kind) :
    Effect c k r (perform clock r c).2 := by
  cases r with
  | get k' ns name =>
      simp only [perform]
      split <;> exact .none rfl le_rfl
  | list k' ns selector => exact .none rfl le_rfl
  | now => exact .none rfl le_rfl
  | create k' obj =>
      simp only [perform]
      split
      · exact .none rfl le_rfl
      · next hnew =>
          dsimp only
          by_cases hk : k = k'
          · subst hk
            exact .created hnew
          · exact .other hk
  | update k' obj =>
      simp only [perform]
      split
      · exact .none rfl le_rfl
      · next stored hstored =>
          split_ifs with hconflict
          · exact .none rfl le_rfl
          · by_cases hk : k = k'
            · subst hk
              exact .updated hstored fun hne => by_contra fun hdiffers => hconflict ⟨hne, hdiffers⟩
            · exact .other hk
  | delete k' obj orphan =>
      simp only [perform]
      split
      · exact .none rfl le_rfl
      · dsimp only
        by_cases hk : k = k'
        · subst hk
          exact .deleted
        · exact .other hk
  | patchClaim base obj => exact .of_patch fun stored hstored => .claim hstored
  | patchFinalizers cr finalizers =>
      refine .of_patch fun stored hstored => ?_
      have hkey : stored.key = cr.key := (Table.find?_eq_some.1 hstored).2
      refine .resource stored ?_ (hkey ▸ hstored)
      rw [Request.write, hkey]
  | patchStatus cr status =>
      refine .of_patch fun stored hstored => ?_
      have hkey : stored.key = cr.key := (Table.find?_eq_some.1 hstored).2
      refine .resource stored ?_ (hkey ▸ hstored)
      rw [Request.write, hkey]

/-- **A call changes at most the object it names.** -/
theorem perform_frame (h : ∀ v, r.write ≠ some (v, k, key)) :
    ((perform clock r c).2.store k).find? key = (c.store k).find? key := by
  -- the key of what the request writes is another one, if the kind is this one
  have other : ∀ {v key'}, r.write = some (v, k, key') → key ≠ key' := by
    rintro v key' hw rfl
    exact h v hw
  have heffect := perform_effect clock r c k
  generalize (perform clock r c).2 = c' at heffect ⊢
  cases heffect with
  | none hstore hversion => rw [hstore]
  | created hnew =>
      rw [Cluster.modify_store_self, Table.find?_insert (by exact hnew)]
      exact if_neg (other rfl).symm
  | updated hstored hversion =>
      rw [Cluster.modify_store_self]
      exact Cluster.find?_put_of_ne (other rfl)
  | deleted => rw [Cluster.modify_store_self, Table.find?_erase, if_neg (other rfl).symm]
  | claim hstored =>
      rw [Cluster.modify_store_self]
      refine Cluster.find?_put_of_ne ?_
      rw [patchedClaim_key, (Table.find?_eq_some.1 hstored).2]
      exact other rfl
  | resource stored hwrite hstored =>
      rw [Cluster.modify_store_self]
      exact Cluster.find?_put_of_ne (other hwrite)

/-- Nobody else writes. -/
def Env.Alone (env : Env) : Prop := ∀ n c, env.others n c = c

/-- A failure is not the answer that there is no such object. -/
def Env.Genuine (env : Env) : Prop := ∀ n f, env.fault n = some f → f.err.notFound = false

/-- Nobody else writes and no call fails. -/
structure Env.Calm (env : Env) : Prop where
  alone : env.Alone
  served : ∀ n, env.fault n = none

/-- A call takes effect or it does not. -/
theorem serve_state (env : Env) (r : Request) (w : World) :
    (serve env r w).2 = ⟨(perform env.clock r (env.seen w)).2, w.calls + 1⟩ ∨
      (serve env r w).2 = ⟨env.seen w, w.calls + 1⟩ := by
  simp only [serve]
  split
  · exact .inl rfl
  · split_ifs
    · exact .inl rfl
    · exact .inr rfl

@[simp] theorem serve_calls (env : Env) (r : Request) (w : World) :
    (serve env r w).2.calls = w.calls + 1 := by
  rcases serve_state env r w with hstate | hstate <;> rw [hstate]

theorem serve_fault {f : Fault} (hfault : env.fault w.calls = some f) (r : Request) :
    (serve env r w).1 = Response.fail r (perform env.clock r (env.seen w)).1 f.err := by
  simp only [serve, hfault]

theorem find?_of_get {ns name : String} (hget : (serve env (.get k ns name) w).1 = .ok obj) :
    (env.seen w).find? k ns name = some obj := by
  cases hfault : env.fault w.calls with
  | some f =>
      rw [serve_fault hfault] at hget
      cases hget
  | none =>
      simp only [serve, hfault, perform] at hget
      split at hget
      · next found hfound =>
          cases hget
          exact hfound
      · cases hget

theorem eq_listed_of_list {ns : String} {selector : StrMap} {objs : List (Obj k)}
    (hlist : (serve env (.list k ns selector) w).1 = .ok objs) :
    objs = (env.seen w).listed k ns selector := by
  cases hfault : env.fault w.calls with
  | some f =>
      rw [serve_fault hfault] at hlist
      cases hlist
  | none =>
      simp only [serve, hfault, perform] at hlist
      cases hlist
      rfl

theorem serve_frame (henv : env.Alone) (h : ∀ v, r.write ≠ some (v, k, key)) :
    ((serve env r w).2.cluster.store k).find? key = (w.cluster.store k).find? key := by
  have hseen : env.seen w = w.cluster := henv _ _
  rcases serve_state env r w with hstate | hstate
  · rw [hstate, hseen]
    exact perform_frame h
  · rw [hstate, hseen]

theorem perform_read (h : r.write = none) : (perform clock r c).2 = c := by
  cases r with
  | get k ns name =>
      simp only [perform]
      split <;> rfl
  | list k ns selector => rfl
  | now => rfl
  | _ => cases h

theorem perform_store (h : ∀ v key, r.write ≠ some (v, k, key)) :
    (perform clock r c).2.store k = c.store k := by
  have heffect := perform_effect clock r c k
  generalize (perform clock r c).2 = c' at heffect ⊢
  cases heffect with
  | none hstore hversion => exact hstore
  | resource stored hwrite hstored => exact absurd hwrite (h _ _)
  | _ => exact absurd rfl (h _ _)

theorem Cluster.patch_failed {f : Obj k → Obj k} (hfailed : (c.patch k key f).1.isOk = false) :
    (c.patch k key f).2 = c := by
  unfold Cluster.patch at hfailed ⊢
  split at hfailed
  · rfl
  · cases hfailed

theorem Cluster.answered_of_find? {f : Obj k → Obj k} {stored : Obj k}
    (hstored : (c.store k).find? key = some stored) :
    c.answered k key f = .ok ((f stored).withResourceVersion (c.version + 1)) := by
  simp only [Cluster.answered, hstored]

theorem Cluster.answered_failed {f : Obj k → Obj k} (hfailed : (c.answered k key f).isOk = false) :
    (c.patch k key f).2 = c := by
  unfold Cluster.answered at hfailed
  unfold Cluster.patch
  split at hfailed
  · rfl
  · cases hfailed

/-- **A request that is refused changes nothing.** -/
theorem perform_failed (hfailed : Response.failed r (perform clock r c).1) :
    (perform clock r c).2 = c := by
  cases r with
  | get k ns name => exact perform_read rfl
  | list k ns selector => rfl
  | create k obj =>
      simp only [perform, Response.failed] at hfailed ⊢
      split at hfailed
      · rfl
      · cases hfailed
  | update k obj =>
      simp only [perform, Response.failed] at hfailed ⊢
      split at hfailed
      · rfl
      · split_ifs at hfailed with hconflict
        · rw [if_pos hconflict]
        · cases hfailed
  | delete k obj orphan =>
      simp only [perform, Response.failed] at hfailed ⊢
      split at hfailed
      · rfl
      · cases hfailed
  | patchClaim base obj => exact Cluster.patch_failed hfailed
  | patchFinalizers cr finalizers => exact Cluster.answered_failed hfailed
  | patchStatus cr status => exact Cluster.patch_failed hfailed
  | now => rfl

section Alone

variable {env : Env} (henv : env.Alone) {r : Request} {w : World}

include henv

theorem seen_alone : env.seen w = w.cluster := henv _ _

theorem serve_alone (hfault : env.fault w.calls = none) :
    serve env r w = ((perform env.clock r w.cluster).1,
      ⟨(perform env.clock r w.cluster).2, w.calls + 1⟩) := by
  simp only [serve, seen_alone henv, hfault]

/-- A call whose answer is an error changes nothing, unless it was carried out all the same. -/
theorem serve_failed (hfailed : Response.failed r (serve env r w).1)
    (hlost : ∀ f ∈ env.fault w.calls, f.applied = false) :
    (serve env r w).2.cluster = w.cluster := by
  simp only [serve, seen_alone henv] at hfailed ⊢
  cases hfault : env.fault w.calls with
  | some f =>
      have hnot : f.applied = false := hlost f (by rw [hfault]; rfl)
      simp [hnot]
  | none =>
      rw [hfault] at hfailed
      exact perform_failed hfailed

omit henv in
theorem serve_calm (henv : env.Calm) (r : Request) (w : World) :
    serve env r w = ((perform env.clock r w.cluster).1,
      ⟨(perform env.clock r w.cluster).2, w.calls + 1⟩) :=
  serve_alone henv.alone (henv.served _)

theorem serve_read (hread : r.write = none) : (serve env r w).2 = ⟨w.cluster, w.calls + 1⟩ := by
  rcases serve_state env r w with hstate | hstate
  · rw [hstate, perform_read hread, seen_alone henv]
  · rw [hstate, seen_alone henv]

theorem serve_store (h : ∀ v key, r.write ≠ some (v, k, key)) :
    (serve env r w).2.cluster.store k = w.cluster.store k := by
  rcases serve_state env r w with hstate | hstate
  · rw [hstate, perform_store h, seen_alone henv]
  · rw [hstate, seen_alone henv]

theorem exec_frame {α : Type} {p : Code α} {A : Verb → Kind → String × String → Prop}
    (hp : p.Uses (Request.Within A)) (hA : ∀ v, ¬ A v k key) :
    ((exec (serve env) p w).state.cluster.store k).find? key = (w.cluster.store k).find? key := by
  have hinv : p.Uses fun r => ∀ s : World,
      (s.cluster.store k).find? key = (w.cluster.store k).find? key →
      ((serve env r s).2.cluster.store k).find? key = (w.cluster.store k).find? key ∧ True := by
    refine hp.mono fun r hr s hs => ⟨?_, trivial⟩
    rw [serve_frame henv fun v hw => hA v (hr v k key hw), hs]
  exact (Triple.ofUses (G := fun _ => True) hinv w rfl).1

theorem exec_store {α : Type} {p : Code α} {A : Verb → Kind → String × String → Prop}
    (hp : p.Uses (Request.Within A)) (hA : ∀ v key, ¬ A v k key) :
    (exec (serve env) p w).state.cluster.store k = w.cluster.store k := by
  have hinv : p.Uses fun r => ∀ s : World, s.cluster.store k = w.cluster.store k →
      (serve env r s).2.cluster.store k = w.cluster.store k ∧ True := by
    refine hp.mono fun r hr s hs => ⟨?_, trivial⟩
    rw [serve_store henv fun v key hw => hA v key (hr v k key hw), hs]
  exact (Triple.ofUses (G := fun _ => True) hinv w rfl).1

end Alone

/-! ## The writes a program can issue -/

section Writes

variable {φ : Request → Prop} {A B : Verb → Kind → String × String → Prop}

theorem uses_getObj (k : Kind) (ns name : String) (h : φ (.get k ns name)) :
    (getObj k ns name).Uses φ := by simpa [getObj] using h

theorem uses_listObjs (k : Kind) (ns : String) (selector : StrMap) (h : φ (.list k ns selector)) :
    (listObjs k ns selector).Uses φ := by simpa [listObjs] using h

@[simp] theorem uses_createObj (k : Kind) (obj : Obj k) :
    (createObj k obj).Uses φ ↔ φ (.create k obj) := by simp [createObj]

@[simp] theorem uses_updateObj (k : Kind) (obj : Obj k) :
    (updateObj k obj).Uses φ ↔ φ (.update k obj) := by simp [updateObj]

@[simp] theorem uses_deleteObj (k : Kind) (obj : Obj k) (orphan : Bool) :
    (deleteObj k obj orphan).Uses φ ↔ φ (.delete k obj orphan) := by simp [deleteObj]

@[simp] theorem uses_patchClaim (base obj : Obj .persistentVolumeClaim) :
    (patchClaim base obj).Uses φ ↔ φ (.patchClaim base obj) := by simp [patchClaim]

@[simp] theorem uses_patchFinalizers (cr : Druid) (finalizers : List String) :
    (patchFinalizers cr finalizers).Uses φ ↔ φ (.patchFinalizers cr finalizers) := by
  simp [patchFinalizers]

@[simp] theorem uses_patchStatus (cr : Druid) (status : DruidClusterStatus) :
    (patchStatus cr status).Uses φ ↔ φ (.patchStatus cr status) := by simp [patchStatus]

@[simp] theorem uses_unixNow : unixNow.Uses φ ↔ φ .now := by simp [unixNow]

namespace Request

@[simp] theorem within_get (k : Kind) (ns name : String) : (get k ns name).Within A := by
  simp [Within, write]

@[simp] theorem within_list (k : Kind) (ns : String) (selector : StrMap) :
    (list k ns selector).Within A := by simp [Within, write]

@[simp] theorem within_now : now.Within A := by simp [Within, write]

@[simp] theorem within_create (k : Kind) (obj : Obj k) :
    (create k obj).Within A ↔ A .create k obj.key := by simp [Within, write]

@[simp] theorem within_update (k : Kind) (obj : Obj k) :
    (update k obj).Within A ↔ A .update k obj.key := by simp [Within, write]

@[simp] theorem within_delete (k : Kind) (obj : Obj k) (orphan : Bool) :
    (delete k obj orphan).Within A ↔ A .delete k obj.key := by simp [Within, write]

@[simp] theorem within_patchClaim (base obj : Obj .persistentVolumeClaim) :
    (patchClaim base obj).Within A ↔ A .patch .persistentVolumeClaim obj.key := by
  simp [Within, write]

@[simp] theorem within_patchFinalizers (cr : Druid) (finalizers : List String) :
    (patchFinalizers cr finalizers).Within A ↔ A .patch .druid cr.key := by simp [Within, write]

@[simp] theorem within_patchStatus (cr : Druid) (status : DruidClusterStatus) :
    (patchStatus cr status).Within A ↔ A .patch .druid cr.key := by simp [Within, write]

theorem Within.mono (h : r.Within A) (hAB : ∀ v k key, A v k key → B v k key) :
    r.Within B := fun v k key hw => hAB v k key (h v k key hw)

end Request

theorem reads_getObj (k : Kind) (ns name : String) :
    (getObj k ns name).Uses (Request.Within A) := uses_getObj _ _ _ (by simp)

theorem reads_listObjs (k : Kind) (ns : String) (selector : StrMap) :
    (listObjs k ns selector).Uses (Request.Within A) := uses_listObjs _ _ _ (by simp)

end Writes

end DruidOperator.Kube
