import DruidOperator.Footprint

/-!
# The status patch

`druidClusterStatusPatcher` sends the computed status as a JSON merge patch (RFC 7386). Every field
of the status is left out of its encoding when it is empty, and what a merge patch leaves out keeps
its old value.

* `Json.mergePatch` — the merge patch on values.
* `encodeStatus`, `decodeStatus` — the status as it is sent and as it is read back.
* `patchedStatus_eq` — patching the encoded status is what the API server of this model does.
* `status_patch_iff` — when the stored status becomes the computed one.
-/

namespace DruidOperator

namespace Json

/-! ## Merge patches -/

def eraseField (k : String) (fs : List (String × Json)) : List (String × Json) :=
  fs.filter fun f => decide (f.1 ≠ k)

mutual

/-- A patch that is not an object replaces the target. -/
def mergePatch : Json → Json → Json
  | target, .obj fs => .obj (mergeFields target.fields fs)
  | _, .null => .null
  | _, .bool b => .bool b
  | _, .num q => .num q
  | _, .str s => .str s
  | _, .arr xs => .arr xs

/-- `null` removes a field; a field that is not there is patched as an empty one. -/
def mergeFields : List (String × Json) → List (String × Json) → List (String × Json)
  | target, [] => target
  | target, (k, x) :: fs =>
      mergeFields (if x = .null then eraseField k target
        else setField k (mergePatch ((target.lookup k).getD .null) x) target) fs

end

/-- The value of a field after a patch that has the value `x` for it, or none. -/
def mergeOption (old new : Option Json) : Option Json :=
  match new with
  | none => old
  | some x => some (mergePatch (old.getD .null) x)

/-- A patch without repeated keys and without `null` works field by field. -/
theorem lookup_mergeFields {fs : List (String × Json)} (hnodup : (fs.map Prod.fst).Nodup)
    (hnull : ∀ f ∈ fs, f.2 ≠ .null) (target : List (String × Json)) (k : String) :
    (mergeFields target fs).lookup k = mergeOption (target.lookup k) (fs.lookup k) := by
  induction fs generalizing target with
  | nil => rfl
  | cons f fs ih =>
      obtain ⟨l, x⟩ := f
      rw [List.map_cons, List.nodup_cons] at hnodup
      have hx : x ≠ .null := hnull _ List.mem_cons_self
      rw [mergeFields, if_neg hx, ih hnodup.2 fun f hf => hnull f (List.mem_cons_of_mem _ hf),
        lookup_setField, lookup_cons_eq]
      by_cases hk : k = l
      · -- the key does not come again
        subst hk
        rw [if_pos rfl, if_pos rfl, lookup_of_notMem hnodup.1]
        rfl
      · rw [if_neg hk, if_neg hk]

/-! ## Objects with fields that may be left out -/

/-- The object with those of the fields that have a value. -/
def object (fields : List (String × Option Json)) : Json :=
  .obj (fields.filterMap fun f => f.2.map fun x => (f.1, x))

theorem get?_object {fields : List (String × Option Json)}
    (hnodup : (fields.map Prod.fst).Nodup) (k : String) :
    (object fields).get? k = (fields.lookup k).join := by
  show (fields.filterMap fun f => f.2.map fun x => (f.1, x)).lookup k = _
  induction fields with
  | nil => rfl
  | cons f fields ih =>
      obtain ⟨l, x⟩ := f
      rw [List.map_cons, List.nodup_cons] at hnodup
      have ih := ih hnodup.2
      rw [lookup_cons_eq]
      by_cases hk : k = l
      · subst hk
        rw [if_pos rfl]
        cases x with
        | none => simpa [lookup_of_notMem hnodup.1] using ih
        | some y => simp
      · rw [if_neg hk]
        cases x with
        | none => exact ih
        | some y => simpa [lookup_cons_eq, hk] using ih

theorem object_nodup {fields : List (String × Option Json)}
    (hnodup : (fields.map Prod.fst).Nodup) : ((object fields).fields.map Prod.fst).Nodup := by
  refine hnodup.sublist ?_
  show ((fields.filterMap fun f => f.2.map fun x => (f.1, x)).map Prod.fst).Sublist _
  induction fields with
  | nil => exact List.Sublist.refl _
  | cons f fields ih =>
      rw [List.map_cons, List.nodup_cons] at hnodup
      obtain ⟨l, _ | x⟩ := f
      · exact (ih hnodup.2).cons l
      · exact (ih hnodup.2).cons_cons l

/-- **A merge patch between two objects, field by field.** -/
theorem get?_mergePatch_object {old new : List (String × Option Json)}
    (hold : (old.map Prod.fst).Nodup) (hnew : (new.map Prod.fst).Nodup)
    (hnull : ∀ f ∈ new, f.2 ≠ some .null) (k : String) :
    (mergePatch (object old) (object new)).get? k =
      mergeOption (old.lookup k).join (new.lookup k).join := by
  rw [← get?_object hold, ← get?_object hnew]
  refine lookup_mergeFields (object_nodup hnew) ?_ _ k
  intro f hf
  obtain ⟨⟨l, x⟩, hmem, heq⟩ := List.mem_filterMap.1 hf
  obtain ⟨y, rfl, rfl⟩ := Option.map_eq_some_iff.1 heq
  exact fun hy => hnull _ hmem (by rw [← hy])

end Json

namespace Controller

open Interaction Prog Kube Json

/-! ## The status as it is encoded -/

/-- The lists of names in the status. -/
inductive StatusList where
  | statefulSets | deployments | services | configMaps | podDisruptionBudgets | ingress
  | hpAutoScalers | pods | persistentVolumeClaims
deriving DecidableEq

namespace StatusList

def all : List StatusList :=
  [.statefulSets, .deployments, .services, .configMaps, .podDisruptionBudgets, .ingress,
    .hpAutoScalers, .pods, .persistentVolumeClaims]

/-- The name of the field. -/
def key : StatusList → String
  | .statefulSets => "statefulSets"
  | .deployments => "deployments"
  | .services => "services"
  | .configMaps => "configMaps"
  | .podDisruptionBudgets => "podDisruptionBudgets"
  | .ingress => "ingress"
  | .hpAutoScalers => "hpAutoscalers"
  | .pods => "pods"
  | .persistentVolumeClaims => "persistentVolumeClaims"

end StatusList

def statusList (s : DruidClusterStatus) : StatusList → Option (List String)
  | .statefulSets => s.statefulSets
  | .deployments => s.deployments
  | .services => s.services
  | .configMaps => s.configMaps
  | .podDisruptionBudgets => s.podDisruptionBudgets
  | .ingress => s.ingress
  | .hpAutoScalers => s.hpAutoScalers
  | .pods => s.pods
  | .persistentVolumeClaims => s.persistentVolumeClaims

theorem status_ext {a b : DruidClusterStatus} (hnode : a.druidNodeStatus = b.druidNodeStatus)
    (hlists : ∀ f, statusList a f = statusList b f) : a = b := by
  cases a
  cases b
  have h1 := hlists .statefulSets
  have h2 := hlists .deployments
  have h3 := hlists .services
  have h4 := hlists .configMaps
  have h5 := hlists .podDisruptionBudgets
  have h6 := hlists .ingress
  have h7 := hlists .hpAutoScalers
  have h8 := hlists .pods
  have h9 := hlists .persistentVolumeClaims
  simp only [statusList] at hnode h1 h2 h3 h4 h5 h6 h7 h8 h9
  simp only [hnode, h1, h2, h3, h4, h5, h6, h7, h8, h9]

def encodeText (s : String) : Option Json := if s = "" then none else some (.str s)

def encodeNames (names : Option (List String)) : Option Json :=
  if names.getD [] = [] then none else some (.arr ((names.getD []).map .str))

def conditionStatusText : Option ConditionStatus → String
  | none => ""
  | some .true => "True"
  | some .false => "False"
  | some .unknown => "Unknown"

def conditionTypeText : Option DruidNodeConditionType → String
  | none => ""
  | some .druidClusterReady => "DruidClusterReady"
  | some .druidNodeRollingUpdate => "DruidNodeRollingUpdate"
  | some .druidNodeErrorState => "DruidNodeErrorState"

def nodeStatusFields (s : DruidNodeTypeStatus) : List (String × Option Json) :=
  [("druidNode", encodeText s.druidNode),
    ("druidNodeConditionStatus", encodeText (conditionStatusText s.druidNodeConditionStatus)),
    ("druidNodeConditionType", encodeText (conditionTypeText s.druidNodeConditionType)),
    ("reason", encodeText s.reason)]

/-- A struct is never empty, so the status of the nodes is always there. -/
def statusFields (s : DruidClusterStatus) : List (String × Option Json) :=
  ("druidNodeStatus", some (object (nodeStatusFields s.druidNodeStatus))) ::
    StatusList.all.map fun f => (f.key, encodeNames (statusList s f))

def encodeStatus (s : DruidClusterStatus) : Json := object (statusFields s)

/-! ## The status as it is read back -/

def decodeText : Option Json → String
  | some (.str s) => s
  | _ => ""

def decodeNames : Option Json → Option (List String)
  | some (.arr xs) => some (xs.map fun x => decodeText (some x))
  | _ => none

def textConditionStatus (s : String) : Option ConditionStatus :=
  if s = "True" then some .true
  else if s = "False" then some .false
  else if s = "Unknown" then some .unknown
  else none

def textConditionType (s : String) : Option DruidNodeConditionType :=
  if s = "DruidClusterReady" then some .druidClusterReady
  else if s = "DruidNodeRollingUpdate" then some .druidNodeRollingUpdate
  else if s = "DruidNodeErrorState" then some .druidNodeErrorState
  else none

def decodeNodeStatus (x : Json) : DruidNodeTypeStatus where
  druidNode := decodeText (x.get? "druidNode")
  druidNodeConditionStatus := textConditionStatus (decodeText (x.get? "druidNodeConditionStatus"))
  druidNodeConditionType := textConditionType (decodeText (x.get? "druidNodeConditionType"))
  reason := decodeText (x.get? "reason")

def decodeStatus (x : Json) : DruidClusterStatus where
  druidNodeStatus := decodeNodeStatus ((x.get? "druidNodeStatus").getD .null)
  statefulSets := decodeNames (x.get? StatusList.statefulSets.key)
  deployments := decodeNames (x.get? StatusList.deployments.key)
  services := decodeNames (x.get? StatusList.services.key)
  configMaps := decodeNames (x.get? StatusList.configMaps.key)
  podDisruptionBudgets := decodeNames (x.get? StatusList.podDisruptionBudgets.key)
  ingress := decodeNames (x.get? StatusList.ingress.key)
  hpAutoScalers := decodeNames (x.get? StatusList.hpAutoScalers.key)
  pods := decodeNames (x.get? StatusList.pods.key)
  persistentVolumeClaims := decodeNames (x.get? StatusList.persistentVolumeClaims.key)

theorem statusList_decodeStatus (x : Json) (f : StatusList) :
    statusList (decodeStatus x) f = decodeNames (x.get? f.key) := by
  cases f <;> rfl

/-- The stored status after the patch with the computed one. -/
def patchedStatus (stored computed : DruidClusterStatus) : DruidClusterStatus :=
  decodeStatus (mergePatch (encodeStatus stored) (encodeStatus computed))

/-! ## The patch on the fields of the status -/

/-- An empty list is read back as nil. -/
def normNames (names : Option (List String)) : Option (List String) :=
  if names.getD [] = [] then none else names

/-- The same status, but for lists that are nil in one and empty in the other. -/
structure SameStatus (a b : DruidClusterStatus) : Prop where
  node : a.druidNodeStatus = b.druidNodeStatus
  lists : ∀ f, normNames (statusList a f) = normNames (statusList b f)

theorem mergeOption_text (a b : String) :
    decodeText (mergeOption (encodeText a) (encodeText b)) = mergeText a b := by
  unfold encodeText mergeText
  by_cases hb : b = ""
  · by_cases ha : a = "" <;> simp [ha, hb, mergeOption, decodeText]
  · simp [hb, mergeOption, mergePatch, decodeText]

theorem mergeOption_names (a b : Option (List String)) :
    decodeNames (mergeOption (encodeNames a) (encodeNames b)) = normNames (mergeNames a b) := by
  have hread : ∀ xs : List String, (xs.map Json.str).map (fun x => decodeText (some x)) = xs := by
    intro xs
    simp [decodeText, Function.comp_def]
  unfold encodeNames mergeNames normNames
  by_cases hb : b.getD [] = []
  · rw [if_pos hb, if_pos hb]
    by_cases ha : a.getD [] = []
    · simp [ha, mergeOption, decodeNames]
    · cases a with
      | none => simp at ha
      | some xs =>
          rw [if_neg ha, if_neg ha]
          exact congrArg some (hread xs)
  · cases b with
    | none => simp at hb
    | some xs =>
        rw [if_neg hb, if_neg hb, if_neg hb]
        simp only [mergeOption, mergePatch]
        exact congrArg some (hread xs)

theorem encodeText_ne_null (s : String) : encodeText s ≠ some .null := by
  unfold encodeText
  split_ifs <;> simp

theorem encodeNames_ne_null (names : Option (List String)) : encodeNames names ≠ some .null := by
  unfold encodeNames
  split_ifs <;> simp

theorem nodeStatusFields_names (s : DruidNodeTypeStatus) :
    ((nodeStatusFields s).map Prod.fst).Nodup ∧ ∀ f ∈ nodeStatusFields s, f.2 ≠ some .null := by
  refine ⟨by simp [nodeStatusFields], fun f hf => ?_⟩
  simp only [nodeStatusFields, List.mem_cons, List.not_mem_nil, or_false] at hf
  rcases hf with rfl | rfl | rfl | rfl <;> exact encodeText_ne_null _

theorem statusFields_names (s : DruidClusterStatus) :
    ((statusFields s).map Prod.fst).Nodup ∧ ∀ f ∈ statusFields s, f.2 ≠ some .null := by
  refine ⟨by simp [statusFields, StatusList.all, StatusList.key], fun f hf => ?_⟩
  rcases List.mem_cons.1 hf with rfl | hf
  · simp [object]
  · obtain ⟨l, -, rfl⟩ := List.mem_map.1 hf
    exact encodeNames_ne_null _

theorem lookup_statusFields (s : DruidClusterStatus) (f : StatusList) :
    (statusFields s).lookup f.key = some (encodeNames (statusList s f)) := by
  cases f <;> simp [statusFields, StatusList.all, StatusList.key, List.lookup_cons]

theorem textConditionStatus_merge (a b : Option ConditionStatus) :
    textConditionStatus (mergeText (conditionStatusText a) (conditionStatusText b)) = b.or a := by
  rcases a with _ | a <;> rcases b with _ | b
  · rfl
  · cases b <;> rfl
  · cases a <;> rfl
  · cases b <;> rfl

theorem textConditionType_merge (a b : Option DruidNodeConditionType) :
    textConditionType (mergeText (conditionTypeText a) (conditionTypeText b)) = b.or a := by
  rcases a with _ | a <;> rcases b with _ | b
  · rfl
  · cases b <;> rfl
  · cases a <;> rfl
  · cases b <;> rfl

theorem decodeNodeStatus_mergePatch (a b : DruidNodeTypeStatus) :
    decodeNodeStatus (mergePatch (object (nodeStatusFields a)) (object (nodeStatusFields b))) =
      { druidNode := mergeText a.druidNode b.druidNode
        druidNodeConditionStatus := b.druidNodeConditionStatus.or a.druidNodeConditionStatus
        druidNodeConditionType := b.druidNodeConditionType.or a.druidNodeConditionType
        reason := mergeText a.reason b.reason } := by
  have hget := get?_mergePatch_object (nodeStatusFields_names a).1 (nodeStatusFields_names b).1
    (nodeStatusFields_names b).2
  unfold decodeNodeStatus
  rw [hget, hget, hget, hget]
  simp only [nodeStatusFields, List.lookup_cons, String.reduceBEq, BEq.rfl, Option.join_some,
    mergeOption_text, textConditionStatus_merge, textConditionType_merge]

/-- **The patch on the encoded status.** Reading back the patched status gives what the API server
of this model stores. -/
theorem patchedStatus_eq (stored computed : DruidClusterStatus) :
    (patchedStatus stored computed).druidNodeStatus =
        (mergeStatus stored computed).druidNodeStatus ∧
      ∀ f, statusList (patchedStatus stored computed) f =
        normNames (statusList (mergeStatus stored computed) f) := by
  have hget := get?_mergePatch_object (statusFields_names stored).1 (statusFields_names computed).1
    (statusFields_names computed).2
  constructor
  · have hnode : (mergePatch (encodeStatus stored) (encodeStatus computed)).get? "druidNodeStatus" =
        some (mergePatch (object (nodeStatusFields stored.druidNodeStatus))
          (object (nodeStatusFields computed.druidNodeStatus))) := by
      refine (hget _).trans ?_
      simp [statusFields, mergeOption]
    show decodeNodeStatus (((mergePatch _ _).get? "druidNodeStatus").getD .null) = _
    rw [hnode]
    exact decodeNodeStatus_mergePatch _ _
  · intro f
    rw [patchedStatus, statusList_decodeStatus]
    refine (congrArg decodeNames (hget f.key)).trans ?_
    rw [lookup_statusFields, lookup_statusFields, Option.join_some, Option.join_some,
      mergeOption_names]
    cases f <;> rfl

/-! ## When the stored status becomes the computed one -/

/-- Nothing that the computed status leaves empty is filled in the stored one. -/
structure Carried (stored computed : DruidClusterStatus) : Prop where
  druidNode : computed.druidNodeStatus.druidNode = "" → stored.druidNodeStatus.druidNode = ""
  conditionStatus : computed.druidNodeStatus.druidNodeConditionStatus = none →
    stored.druidNodeStatus.druidNodeConditionStatus = none
  conditionType : computed.druidNodeStatus.druidNodeConditionType = none →
    stored.druidNodeStatus.druidNodeConditionType = none
  reason : computed.druidNodeStatus.reason = "" → stored.druidNodeStatus.reason = ""
  lists : ∀ f, (statusList computed f).getD [] = [] → (statusList stored f).getD [] = []

/-- No list is nil in one of the two and empty in the other. -/
def NilAlike (stored computed : DruidClusterStatus) : Prop :=
  ∀ f, (statusList stored f).isNone = (statusList computed f).isNone

theorem mergeText_eq_iff (a b : String) : mergeText a b = b ↔ (b = "" → a = "") := by
  unfold mergeText
  by_cases hb : b = "" <;> simp [hb]

theorem or_eq_iff_none {α : Type} (a b : Option α) : b.or a = b ↔ (b = none → a = none) := by
  cases b <;> simp

theorem normNames_idem (names : Option (List String)) :
    normNames (normNames names) = normNames names := by
  unfold normNames
  by_cases hnames : names.getD [] = [] <;> simp [hnames]

theorem normNames_merge_iff (a b : Option (List String)) :
    normNames (mergeNames a b) = normNames b ↔ (b.getD [] = [] → a.getD [] = []) := by
  unfold mergeNames
  by_cases hb : b.getD [] = []
  · rw [if_pos hb]
    by_cases ha : a.getD [] = []
    · simp [normNames, ha, hb]
    · cases a with
      | none => simp at ha
      | some xs =>
          have hxs : xs ≠ [] := by simpa using ha
          simp [normNames, hb, hxs]
  · simp [hb]

theorem statusList_mergeStatus (stored computed : DruidClusterStatus) (f : StatusList) :
    statusList (mergeStatus stored computed) f =
      mergeNames (statusList stored f) (statusList computed f) := by
  cases f <;> rfl

theorem sameStatus_patched_iff (stored computed : DruidClusterStatus) :
    SameStatus (patchedStatus stored computed) computed ↔ Carried stored computed := by
  obtain ⟨hnode, hlists⟩ := patchedStatus_eq stored computed
  have hlist : ∀ f, normNames (statusList (patchedStatus stored computed) f) =
        normNames (statusList computed f) ↔
      ((statusList computed f).getD [] = [] → (statusList stored f).getD [] = []) := by
    intro f
    rw [hlists, normNames_idem, statusList_mergeStatus, normNames_merge_iff]
  have hfields : (mergeStatus stored computed).druidNodeStatus = computed.druidNodeStatus ↔
      (computed.druidNodeStatus.druidNode = "" → stored.druidNodeStatus.druidNode = "") ∧
      (computed.druidNodeStatus.druidNodeConditionStatus = none →
        stored.druidNodeStatus.druidNodeConditionStatus = none) ∧
      (computed.druidNodeStatus.druidNodeConditionType = none →
        stored.druidNodeStatus.druidNodeConditionType = none) ∧
      (computed.druidNodeStatus.reason = "" → stored.druidNodeStatus.reason = "") := by
    rw [← mergeText_eq_iff, ← mergeText_eq_iff, ← or_eq_iff_none, ← or_eq_iff_none]
    exact DruidNodeTypeStatus.mk.injEq .. ▸ Iff.rfl
  constructor
  · intro hsame
    obtain ⟨hname, hstatus, htype, hreason⟩ := hfields.1 (hnode.symm.trans hsame.node)
    exact ⟨hname, hstatus, htype, hreason, fun f => (hlist f).1 (hsame.lists f)⟩
  · intro hcarried
    refine ⟨hnode.trans (hfields.2 ?_), fun f => (hlist f).2 (hcarried.lists f)⟩
    exact ⟨hcarried.druidNode, hcarried.conditionStatus, hcarried.conditionType, hcarried.reason⟩

theorem eq_iff_nilAlike {stored computed : DruidClusterStatus}
    (hsame : SameStatus stored computed) :
    computed = stored ↔ NilAlike stored computed := by
  constructor
  · rintro rfl
    exact fun _ => rfl
  · intro hnil
    refine status_ext hsame.node.symm fun f => ?_
    have hf := hsame.lists f
    have hn := hnil f
    unfold normNames at hf
    cases ha : statusList stored f with
    | none => simpa [ha] using hn
    | some xs =>
        cases hb : statusList computed f with
        | none => simp [ha, hb] at hn
        | some ys =>
            rw [ha, hb] at hf
            by_cases hx : xs = [] <;> by_cases hy : ys = [] <;> simp_all

/-- The patcher sends nothing exactly where the two are equal. -/
theorem patcher_quiet_iff (m : Druid) (computed : DruidClusterStatus) :
    (∀ {σ : Type} (h : Handler sig σ) (s : σ),
      (exec h (druidClusterStatusPatcher computed m) s).steps = []) ↔ computed = m.body.status := by
  constructor
  · intro hquiet
    by_contra hne
    have hsteps := hquiet (serve {}) {}
    rw [druidClusterStatusPatcher, if_pos hne] at hsteps
    cases hsteps
  · intro heq σ h s
    rw [druidClusterStatusPatcher, if_neg (by simpa using heq)]
    rfl

/-- **The status patch.** The patch makes the stored status the computed one, and none is sent where
they are the same already, exactly if nothing that is filled in the stored status is empty in the
computed one and, where they are the same, no list is nil in one and empty in the other. -/
theorem status_patch_iff (m : Druid) (computed : DruidClusterStatus) :
    ((SameStatus (patchedStatus m.body.status computed) computed ∧
        (SameStatus m.body.status computed → ∀ {σ : Type} (h : Handler sig σ) (s : σ),
          (exec h (druidClusterStatusPatcher computed m) s).steps = [])) ↔
      Carried m.body.status computed ∧
        (SameStatus m.body.status computed → NilAlike m.body.status computed)) ∧
    ∀ {σ : Type} (h : Handler sig σ) (s : σ),
      ∀ e ∈ (exec h (druidClusterStatusPatcher computed m) s).steps,
        e.req = .patchStatus m computed := by
  refine ⟨and_congr (sameStatus_patched_iff _ _) (forall_congr' fun hsame => ?_), ?_⟩
  · rw [patcher_quiet_iff, eq_iff_nilAlike hsame]
  · intro σ h s e he
    have huses : (druidClusterStatusPatcher computed m).Uses
        fun r : Request => r = .patchStatus m computed := by
      unfold druidClusterStatusPatcher
      split_ifs
      · exact Uses.bind (by simp) fun _ => trivial
      · trivial
    exact huses.steps he

/-! ## A Deployment that is gone -/

instance (a b : DruidClusterStatus) : Decidable (SameStatus a b) :=
  decidable_of_iff (a.druidNodeStatus = b.druidNodeStatus ∧
      ∀ f ∈ StatusList.all, normNames (statusList a f) = normNames (statusList b f))
    ⟨fun h => ⟨h.1, fun f => h.2 f (by cases f <;> decide)⟩,
      fun h => ⟨h.node, fun f _ => h.lists f⟩⟩

def brokerGroup : ServiceGroup :=
  ⟨"b", { nodeType := .broker, druidPort := 8082, replicas := 1, kind := "Deployment" }⟩

def historicalGroup : ServiceGroup :=
  ⟨"h", { nodeType := .historical, druidPort := 8083, replicas := 1 }⟩

/-- A cluster of a historical, with or without a broker. -/
def smallCluster (withBroker : Bool) (status : DruidClusterStatus) : Druid where
  metadata := { name := "c", ns := "d" }
  body := {
    spec := {
      image := "v1"
      nodes := ⟨if withBroker then [brokerGroup, historicalGroup] else [historicalGroup],
        by cases withBroker <;> decide⟩ }
    status := status }

/-- One call for the cluster, from a state in which it is stored as given. -/
def smallCall (m : Druid) (w : World) : Outcome sig World Exit Unit :=
  exec (serve {}) (deployDruidCluster (fun _ _ => "") {} m)
    ⟨{ w.cluster with store := Function.update w.cluster.store .druid (Table.insert .empty m) }, 0⟩

def storedStatus (w : World) : DruidClusterStatus :=
  (((w.cluster.store .druid).find? ("d", "c")).map fun cr => cr.body.status).getD {}

/-- The state after a call with the broker. -/
def brokerWorld : World := (smallCall (smallCluster true {}) {}).state

/-- The call after the broker was removed. -/
def brokerRemoved : Outcome sig World Exit Unit :=
  smallCall (smallCluster false (storedStatus brokerWorld)) brokerWorld

/-- The call after that, for the resource as it is stored. -/
def unchangedCall : Outcome sig World Exit Unit :=
  smallCall (smallCluster false (storedStatus (smallCall (smallCluster false {}) {}).state))
    (smallCall (smallCluster false {}) {}).state

def patchesStatus (P : DruidClusterStatus → Bool) (r : Request) : Bool :=
  match r with
  | .patchStatus _ status => P status
  | _ => false

/-- Without its broker the cluster has no Deployment, and a status without Deployments is sent, but
the stored status still has the Deployment of the broker. And a status is sent for an unchanged
cluster too, though it is the stored one. -/
theorem status_not_carried :
    (brokerRemoved.steps.any fun e =>
      patchesStatus (fun status => decide (status.deployments = some [])) e.req) ∧
    (brokerRemoved.state.cluster.store .deployment).items.map Object.name = [] ∧
    (storedStatus brokerRemoved.state).deployments = some ["druid-c-b"] ∧
    (unchangedCall.steps.any fun e => patchesStatus (fun status => decide (SameStatus
      (storedStatus (smallCall (smallCluster false {}) {}).state) status)) e.req) := by
  decide +kernel

end Controller

end DruidOperator
