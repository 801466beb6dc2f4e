import DruidOperator.ApiServer
import DruidOperator.IngestionTask
import DruidOperator.Lib.Replica

/-!
# The status over whole runs

`createOrUpdate` decides by two fields of the status whether a spec was submitted before, and reads
the remembered spec as JSON if one of them is set. Four places patch the status, with the task id of
a response or that of the object in memory. Here the two fields are shown to stay in step whatever
happens around the operator.

* `Store` — the stored object, with a cache that lags behind. Every read of the operator goes to the
  cache.
* `Outside` — users write the object at any time, Druid answers anything, and requests to Kubernetes
  fail, before or after they took effect.
* `Steady` — what is remembered fits together in every version of the object, and is never
  forgotten.
* `status_never_wedges` — so it is in every run that starts with an empty status.
-/

namespace DruidOperator.Ingestion

open Interaction Prog Triple Runs

/-! ## The outside -/

structure Store where
  object : Replica DruidIngestion
  /-- The number of requests so far. -/
  requests : ℕ := 0

/-- What happens around the operator, by the number of the request it happens at. -/
structure Outside where
  druid : ℕ → Method → String → String → Except Error Response
  /-- How a request to Kubernetes fails, if it does. -/
  fault : ℕ → Option Kube.Fault
  /-- What users write just before the request. -/
  edit : ℕ → Option DruidIngestion
  /-- The number of versions the cache catches up before the request. -/
  sync : ℕ → ℕ
  clock : ℕ → Int

/-- A write of the object: its name is fixed, and its status is a resource of its own. -/
def Store.write (s : Store) (written : DruidIngestion) : Store :=
  { s with object := s.object.put { written with
      name := s.object.latest.name
      ns := s.object.latest.ns
      status := s.object.latest.status } }

/-- A patch of the status. -/
def Store.patch (s : Store) (base modified : DruidIngestion) : Store :=
  { s with object := s.object.put { s.object.latest with
      status := applyStatusPatch base.status modified.status s.object.latest.status
      resourceVersion := s.object.latest.resourceVersion + 1 } }

/-- What is there when the next request is served. -/
def Store.next (o : Outside) (s : Store) : Store where
  object := ((o.edit s.requests).elim s s.write).object.sync (o.sync s.requests)
  requests := s.requests + 1

/-- How the two servers answer. -/
def serveCached (o : Outside) : Handler sig Store
  | .http method url body, s => (o.druid s.requests method url body, s.next o)
  | .get _ _, s =>
      match o.fault s.requests with
      | some f => (.error f.err, s.next o)
      | none => (.ok (s.next o).object.seen, s.next o)
  | .patchStatus base modified, s =>
      match o.fault s.requests with
      | some f => (.error f.err, if f.applied then (s.next o).patch base modified else s.next o)
      | none => (.ok (), (s.next o).patch base modified)
  | .now, s => (o.clock s.requests, s.next o)

/-- `Reconcile` as far as the status goes: read the object, and call `createOrUpdate`. -/
def readAndUpdate (ns name svcName : String) : IngestM (OperationResult × DruidIngestion) := do
  let di ← request (S := sig) (.get ns name) >>= orReturn
  createOrUpdate di svcName

inductive StatusAction where
  | write (written : DruidIngestion)
  | reconcile (svcName : String) (o : Outside)

/-- One reconcile. -/
def Store.reconcile (s : Store) (svcName : String) (o : Outside) :
    Outcome sig Store Exit (OperationResult × DruidIngestion) :=
  exec (serveCached o) (readAndUpdate s.object.latest.ns s.object.latest.name svcName) s

def statusStep (s : Store) : StatusAction → Store
  | .write written => s.write written
  | .reconcile svcName o => (s.reconcile svcName o).state

/-- The object as it is created, with nothing in its status. -/
def Store.created (di : DruidIngestion) : Store := ⟨⟨{ di with status := {} }, []⟩, 0⟩

/-! ## What fits together -/

/-- The status names a task exactly if it holds a spec, and the spec is a JSON text. -/
def Coherent (status : DruidIngestionStatus) : Prop :=
  (status.taskId = "" ↔ status.currentIngestionSpec = "") ∧
    (status.currentIngestionSpec ≠ "" → (Json.unmarshal status.currentIngestionSpec).isSome = true)

/-- The status names a task and holds a spec that can be read. -/
structure Remembers (status : DruidIngestionStatus) : Prop where
  taskId : status.taskId ≠ ""
  spec : status.currentIngestionSpec ≠ ""
  valid : (Json.unmarshal status.currentIngestionSpec).isSome = true

theorem coherent_empty : Coherent {} := ⟨Iff.rfl, fun h => absurd rfl h⟩

theorem Remembers.coherent {status : DruidIngestionStatus} (h : Remembers status) :
    Coherent status :=
  ⟨iff_of_false h.taskId h.spec, fun _ => h.valid⟩

theorem Coherent.remembers {status : DruidIngestionStatus} (h : Coherent status)
    (hset : status.taskId ≠ "" ∨ status.currentIngestionSpec ≠ "") : Remembers status := by
  have hspec : status.currentIngestionSpec ≠ "" :=
    hset.elim (fun ht hs => ht (h.1.2 hs)) fun hs => hs
  exact ⟨fun ht => hspec (h.1.1 ht), hspec, h.2 hspec⟩

/-- An object that was submitted before remembers it. -/
theorem Coherent.remembers_of_not_fresh {di : DruidIngestion} (h : Coherent di.status)
    (hfresh : isFresh di = false) : Remembers di.status := by
  exact h.remembers (not_and_or.1 (of_decide_eq_false hfresh))

theorem mergeField_cases {α : Type} [DecidableEq α] {Q : α → Prop} {base modified stored : α}
    (hmodified : Q modified) (hstored : base = modified → Q stored) :
    Q (mergeField base modified stored) := by
  unfold mergeField
  split_ifs with heq
  · exact hstored heq
  · exact hmodified

/-- A patch that remembers, made from an outdated status: what it does not send was remembered then,
and still is. -/
theorem Remembers.applyStatusPatch {base modified stored : DruidIngestionStatus}
    (hmodified : Remembers modified) (hbase : Coherent base)
    (hstored : Remembers base → Remembers stored) :
    Remembers (applyStatusPatch base modified stored) := by
  have htask : base.taskId = modified.taskId → Remembers stored := fun heq =>
    hstored (hbase.remembers (.inl (heq ▸ hmodified.taskId)))
  have hspec : base.currentIngestionSpec = modified.currentIngestionSpec → Remembers stored :=
    fun heq => hstored (hbase.remembers (.inr (heq ▸ hmodified.spec)))
  constructor
  · exact mergeField_cases (Q := (· ≠ "")) hmodified.taskId fun heq => (htask heq).taskId
  · exact mergeField_cases (Q := (· ≠ "")) hmodified.spec fun heq => (hspec heq).spec
  · exact mergeField_cases (Q := fun text => (Json.unmarshal text).isSome = true) hmodified.valid
      fun heq => (hspec heq).valid

theorem unmarshal_getSpecJson {di : DruidIngestion} {text : String}
    (h : getSpecJson di = .ok text) :
    (Json.unmarshal text).isSome = true := by
  obtain ⟨src, x, hx, rfl⟩ := getSpecJson_eq_map h
  rw [Json.unmarshal_toJsonString (unmarshal_of_unmarshalMap hx)]
  rfl

theorem isEqualJson_ok {s t : String} (hs : (Json.unmarshal s).isSome = true)
    (ht : (Json.unmarshal t).isSome = true) : ∃ b, isEqualJson s t = .ok b := by
  obtain ⟨x, hx⟩ := Option.isSome_iff_exists.1 hs
  obtain ⟨y, hy⟩ := Option.isSome_iff_exists.1 ht
  exact ⟨decide (x = y), by simp [isEqualJson, hx, hy]⟩

/-! ## One request -/

/-- Every version is coherent, and a version that remembers is followed by such only; `known` says
that the cache shows one. -/
structure Steady (known : Bool) (s : Store) : Prop where
  coherent : ∀ v ∈ s.object.versions, Coherent v.status
  persists : s.object.Persists fun v => Remembers v.status
  known : known = true → Remembers s.object.seen.status

/-- The object was read from the cache, now or earlier. -/
structure WasRead (s : Store) (di : DruidIngestion) : Prop where
  coherent : Coherent di.status
  persists : Remembers di.status → Remembers s.object.seen.status

section Steps

variable {known : Bool} {s : Store} {o : Outside} {di : DruidIngestion}

theorem Steady.weaken (hs : Steady known s) : Steady false s :=
  ⟨hs.coherent, hs.persists, fun h => by cases h⟩

/-- A new version that remembers if the last one did. -/
theorem Steady.put (hs : Steady known s) {v : DruidIngestion} (hv : Coherent v.status)
    (hkeep : Remembers s.object.latest.status → Remembers v.status) :
    Steady known { s with object := s.object.put v } := by
  refine ⟨fun u hu => ?_, hs.persists.put hkeep, hs.known⟩
  rw [Replica.versions_put, List.mem_append] at hu
  rcases hu with hu | hu
  · exact hs.coherent u hu
  · rw [List.mem_singleton.1 hu]
    exact hv

theorem Steady.write (hs : Steady known s) (written : DruidIngestion) :
    Steady known (s.write written) := by
  have hlatest := hs.coherent _ s.object.latest_mem
  exact hs.put hlatest fun h => h

theorem Steady.patch (hs : Steady known s) {base modified : DruidIngestion} (hbase : WasRead s base)
    (hmodified : Remembers modified.status) : Steady known (s.patch base modified) := by
  have hlatest : Remembers base.status → Remembers s.object.latest.status := fun h =>
    hs.persists.latest s.object.seen_mem (hbase.persists h)
  have hnew := hmodified.applyStatusPatch hbase.coherent hlatest
  exact hs.put hnew.coherent fun _ => hnew

theorem Steady.edited (hs : Steady known s) (edit : Option DruidIngestion) :
    Steady known (edit.elim s s.write) := by
  cases edit with
  | none => exact hs
  | some written => exact hs.write written

theorem seen_edited (s : Store) (edit : Option DruidIngestion) :
    (edit.elim s s.write).object.seen = s.object.seen := by
  cases edit <;> rfl

theorem Steady.next (hs : Steady known s) (o : Outside) : Steady known (s.next o) := by
  have hs' := hs.edited (o.edit s.requests)
  refine ⟨fun v hv => ?_, hs'.persists.sync _, fun h => hs'.persists.seen_sync _ (hs'.known h)⟩
  exact hs'.coherent v ((Replica.versions_sync _ _).subset hv)

theorem WasRead.next (h : WasRead s di) (hs : Steady known s) (o : Outside) :
    WasRead (s.next o) di := by
  refine ⟨h.coherent, fun hdi => ?_⟩
  refine (hs.edited (o.edit s.requests)).persists.seen_sync _ ?_
  rw [seen_edited]
  exact h.persists hdi

theorem Steady.wasRead (hs : Steady known s) : WasRead s s.object.seen :=
  ⟨hs.coherent _ s.object.seen_mem, fun h => h⟩

theorem serveCached_get {ns name : String} (h : (serveCached o (.get ns name) s).1 = .ok di) :
    di = (s.next o).object.seen := by
  simp only [serveCached] at h
  split at h
  · cases h
  · cases h
    rfl

theorem serveCached_get_state (ns name : String) :
    (serveCached o (.get ns name) s).2 = s.next o := by
  simp only [serveCached]
  split <;> rfl

theorem Steady.servePatch (hs : Steady known s) {base modified : DruidIngestion}
    (hbase : WasRead s base) (hmodified : Remembers modified.status) :
    Steady known (serveCached o (.patchStatus base modified) s).2 := by
  have hpatched := (hs.next o).patch (hbase.next hs o) hmodified
  simp only [serveCached]
  split
  · show Steady known (if _ then _ else _)
    split_ifs
    · exact hpatched
    · exact hs.next o
  · exact hpatched

/-! ## One reconcile -/

/-- A patch of the status, with a task id that is not empty. -/
theorem steady_makePatch (o : Outside) (known : Bool) (di : DruidIngestion) {taskId : String}
    (htask : taskId ≠ "") (msg reason : String) (status : ConditionStatus) (type : String) :
    Triple (serveCached o) (Steady known)
      (makePatchDruidIngestionStatus di taskId msg reason status type)
      (Returns (Steady known) fun obj => known = true → Remembers obj.status)
      fun e => Steady false e.pre := by
  unfold makePatchDruidIngestionStatus
  cases hspec : getSpecJson di with
  | error e => exact Triple.exit fun s hs => hs
  | ok text =>
      simp only [orReturn_ok, ret_bind, patchStatus, request, call_bind]
      refine Triple.step (M := fun (answer : Except Error DruidIngestion) s => Steady known s ∧
        ∀ obj, answer = .ok obj → WasRead s obj ∧ (known = true → Remembers obj.status))
        (fun s hs => hs.weaken) (fun s hs => ?_) fun answer => ?_
      · refine ⟨?_, fun obj hobj => ?_⟩
        · rw [serveCached_get_state]
          exact hs.next o
        · rw [serveCached_get hobj, serveCached_get_state]
          exact ⟨(hs.next o).wasRead, (hs.next o).known⟩
      cases answer with
      | error e => exact Triple.exit fun s hs => hs.1
      | ok obj =>
          simp only [orReturn_ok, ret_bind]
          refine Triple.step (M := fun _ s => Steady known s ∧ WasRead s obj ∧
            (known = true → Remembers obj.status)) (fun s hs => hs.1.weaken) (fun s hs => ?_)
            fun now => ?_
          · obtain ⟨hread, hobj⟩ := hs.2 obj rfl
            exact ⟨hs.1.next o, hread.next hs.1 o, hobj⟩
          · refine Triple.step (M := fun _ s => Steady known s ∧
              (known = true → Remembers obj.status))
              (fun s hs => hs.1.weaken) (fun s hs => ⟨hs.1.servePatch hs.2.1 ?_, hs.2.2⟩)
              fun answer => ?_
            · exact ⟨htask, getSpecJson_ne_empty hspec, unmarshal_getSpecJson hspec⟩
            · cases answer with
              | error e => exact Triple.exit fun s hs => hs.1
              | ok u => exact Triple.ret fun s hs => hs

theorem patching_serveCached (o : Outside) (known : Bool) :
    Patching (serveCached o) (Steady known) (fun e => Steady false e.pre) (· ≠ "")
      fun di => known = true → Remembers di.status where
  druid hp := by
    refine Triple.ofUses (hp.mono fun r hr s hs => ?_)
    cases r with
    | http method url body => exact ⟨hs.next o, hs.weaken⟩
    | _ => exact hr.elim
  patch di taskId msg reason status type htask :=
    steady_makePatch o known di htask msg reason status type
  started _ _ := getTaskIdFromResponse_ne_empty

/-- A reconcile of the object that is in the cache. -/
theorem steady_createOrUpdate (o : Outside) (di : DruidIngestion) (svcName : String) :
    Triple (serveCached o) (fun s => Steady false s ∧ di = s.object.seen)
      (createOrUpdate di svcName)
      (fun _ => Steady false) fun e => Steady false e.pre := by
  cases hfresh : isFresh di with
  | true =>
      exact ((patching_serveCached o false).createFresh hfresh svcName).conseq (fun s hs => hs.1)
        (fun _ _ hx => hx.invariant) fun _ he => he
  | false =>
      intro s hs
      have hdi : Remembers di.status := by
        refine Coherent.remembers_of_not_fresh ?_ hfresh
        rw [hs.2]
        exact hs.1.coherent _ s.object.seen_mem
      have hknown : Steady true s := ⟨hs.1.coherent, hs.1.persists, fun _ => hs.2 ▸ hdi⟩
      have hrun := (patching_serveCached o true).createOrUpdate (fun _ h => (h rfl).taskId)
          (fun _ => hdi)
        svcName
      obtain ⟨hend, hsteps⟩ := hrun s hknown
      exact ⟨hend.invariant.weaken, hsteps⟩

/-- **One reconcile** keeps the versions of the status coherent, at every request. -/
theorem steady_readAndUpdate (o : Outside) (ns name svcName : String) :
    Triple (serveCached o) (Steady false) (readAndUpdate ns name svcName) (fun _ => Steady false)
      fun e => Steady false e.pre := by
  unfold readAndUpdate
  simp only [request, call_bind, ret_bind]
  refine Triple.step (M := fun (answer : Except Error DruidIngestion) s => Steady false s ∧
    ∀ di, answer = .ok di → di = s.object.seen) (fun s hs => hs) (fun s hs => ?_) fun answer => ?_
  · rw [serveCached_get_state]
    exact ⟨hs.next o, fun di => serveCached_get⟩
  · cases answer with
    | error e => exact Triple.exit fun s hs => hs.1
    | ok di =>
        exact (steady_createOrUpdate o di svcName).conseq (fun s hs => ⟨hs.1, hs.2 di rfl⟩)
          (fun _ _ hs => hs) fun _ he => he

end Steps

/-! ## Whole runs -/

theorem steady_created (di : DruidIngestion) : Steady false (Store.created di) :=
  ⟨fun v hv => by rw [List.mem_singleton.1 hv]; exact coherent_empty, List.pairwise_singleton _ _,
    fun h => by cases h⟩

theorem Steady.run {s : Store} (hs : Steady false s) (acts : List StatusAction) :
    Steady false (Runs.run statusStep s acts) := by
  refine run_invariant (C := fun _ _ => True) (fun s a _ hs _ => ?_) hs
    (meets_iff.2 fun _ _ _ _ => trivial)
  cases a with
  | write written => exact hs.write written
  | reconcile svcName o => exact (steady_readAndUpdate o _ _ svcName s hs).1

/-- **The status cannot wedge.** Whatever users write, Druid answers and Kubernetes fails: a status
that was stored at any time names a task exactly if it holds a spec, the spec can be read, and so
the comparison with the remembered spec succeeds for every object that is read. -/
theorem status_never_wedges (di : DruidIngestion) (acts : List StatusAction) (svcName : String)
    (o : Outside) :
    let s := run statusStep (.created di) acts
    Coherent s.object.latest.status ∧
      ∀ e ∈ (s.reconcile svcName o).steps, Coherent e.pre.object.latest.status ∧
        ∀ pre ns name di, e = ⟨pre, .get ns name, .ok di⟩ → isFresh di = false →
          ∀ text, getSpecJson di = .ok text →
            ∃ b, isEqualJson di.status.currentIngestionSpec text = .ok b := by
  intro s
  have hs : Steady false s := (steady_created di).run acts
  refine ⟨hs.coherent _ s.object.latest_mem, fun e he => ?_⟩
  have hpre : Steady false e.pre := (steady_readAndUpdate o _ _ svcName s hs).2 e he
  refine ⟨hpre.coherent _ e.pre.object.latest_mem, ?_⟩
  intro pre ns name di heq hfresh text htext
  subst heq
  have hread : di = (pre.next o).object.seen := serveCached_get (exec_steps_resp he).symm
  have hdi : Coherent di.status := by
    rw [hread]
    exact (hpre.next o).coherent _ (Replica.seen_mem _)
  exact isEqualJson_ok (hdi.remembers_of_not_fresh hfresh).valid (unmarshal_getSpecJson htext)

end DruidOperator.Ingestion
