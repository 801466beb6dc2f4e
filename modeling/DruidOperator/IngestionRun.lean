import DruidOperator.Ingestion
import DruidOperator.Lib.Runs

/-!
# Runs of the ingestion controller

One `DruidIngestion` object, a Druid that answers as it likes, and users who edit the spec
between reconciles.

* `World` — the stored object and everything that was exchanged with Druid.
* `Env` — what the outside does during one reconcile: Druid's answer to each request, and which
  Kubernetes requests fail.
* `step` — an edit, or one call of `createOrUpdate` on the object as stored.

The lemmas of the second half say what each part of `createOrUpdate` does to the world. All but
the submission of the spec itself only `Moves` it: the exchanges grow by ones that are not
submissions, and the remembered spec stays or becomes the current one.
-/

namespace DruidOperator.Ingestion

open Interaction Prog DruidApi

variable {text : String} {w : World} {φ : Req → Prop} {di : DruidIngestion}

/-! ## The world -/

/-- One HTTP exchange with Druid. -/
structure Exchange where
  method : Method
  url : String
  body : String
  answer : Except Error Response

/-- The URL is the creation endpoint of tasks or of supervisors, on some host. -/
def isCreation (url : String) : Bool :=
  (makePath "" "indexer" "task" []).toList.isSuffixOf url.toList ||
    (makePath "" "indexer" "supervisor" []).toList.isSuffixOf url.toList

/-- The exchange submits `text` to Druid. -/
def Exchange.posts (e : Exchange) (text : String) : Bool :=
  decide (e.method = .post) && isCreation e.url && decide (e.body = text)

/-- Druid's answer is 200. -/
def Exchange.isOk (e : Exchange) : Bool :=
  match e.answer with
  | .ok resp => decide (resp.statusCode = 200)
  | .error _ => false

structure World where
  stored : DruidIngestion
  log : List Exchange := []
  /-- The number of Kubernetes requests so far. -/
  calls : ℕ := 0

/-- The outside during one reconcile. A reconcile never sends the same HTTP request twice, so an
answer is a function of the request. -/
structure Env where
  druid : Method → String → String → Except Error Response
  /-- How the `n`-th Kubernetes request fails, if it does. -/
  kube : ℕ → Option Error := fun _ => none
  clock : Int := 0

/-- Druid has answered 200 to a submission of `text`. -/
def Accepted (log : List Exchange) (text : String) : Prop :=
  ∃ e ∈ log, e.posts text = true ∧ e.isOk = true

/-- A field of a merge patch: sent only where the two objects differ. -/
def mergeField {α : Type} [DecidableEq α] (base modified stored : α) : α :=
  if base = modified then stored else modified

/-- An empty list of rules is left out of the encoded status. -/
def omitEmpty (rules : Option (List RawExtension)) : Option (List RawExtension) :=
  if rules = some [] then none else rules

/-- `client.MergeFrom(base)` for `modified`, applied to the stored status. -/
def applyStatusPatch (base modified stored : DruidIngestionStatus) : DruidIngestionStatus where
  taskId := mergeField base.taskId modified.taskId stored.taskId
  type := mergeField base.type modified.type stored.type
  status := mergeField base.status modified.status stored.status
  reason := mergeField base.reason modified.reason stored.reason
  message := mergeField base.message modified.message stored.message
  lastUpdateTime := mergeField base.lastUpdateTime modified.lastUpdateTime stored.lastUpdateTime
  currentIngestionSpec := mergeField base.currentIngestionSpec modified.currentIngestionSpec
    stored.currentIngestionSpec
  currentRules := mergeField (omitEmpty base.currentRules) (omitEmpty modified.currentRules)
    stored.currentRules

/-- How the two servers answer. -/
def serve (env : Env) : Handler sig World
  | .http method url body, w =>
      (env.druid method url body,
        { w with log := w.log ++ [⟨method, url, body, env.druid method url body⟩] })
  | .get _ _, w =>
      match env.kube w.calls with
      | some e => (.error e, { w with calls := w.calls + 1 })
      | none => (.ok w.stored, { w with calls := w.calls + 1 })
  | .patchStatus base modified, w =>
      match env.kube w.calls with
      | some e => (.error e, { w with calls := w.calls + 1 })
      | none =>
          (.ok (), { w with
            calls := w.calls + 1
            stored := { w.stored with
              status := applyStatusPatch base.status modified.status w.stored.status
              resourceVersion := w.stored.resourceVersion + 1 } })
  | .now, w => (env.clock, w)

inductive Action where
  | edit (ingestion : IngestionSpec)
  | reconcile (svcName : String) (env : Env)

/-- The world after one reconcile of the stored object. -/
def reconcile (w : World) (svcName : String) (env : Env) : World :=
  (exec (serve env) (createOrUpdate w.stored svcName) w).state

def step (w : World) : Action → World
  | .edit ingestion => { w with stored := { w.stored with ingestion := ingestion } }
  | .reconcile svcName env => reconcile w svcName env

/-- What one reconcile exchanged with Druid. -/
def exchanges (w : World) (svcName : String) (env : Env) : List Exchange :=
  (reconcile w svcName env).log.drop w.log.length

/-! ## Creation endpoints -/

theorem isCreation_append_false {base path : String}
    (htask : (makePath "" "indexer" "task" []).toList.length ≤ path.toList.length)
    (hsup : (makePath "" "indexer" "supervisor" []).toList.length ≤ path.toList.length)
    (hpath : isCreation path = false) : isCreation (base ++ path) = false := by
  have key : ∀ p : List Char, p.length ≤ path.toList.length →
      p.isSuffixOf path.toList = false → p.isSuffixOf (base ++ path).toList = false := by
    intro p hlen hp
    rw [← Bool.not_eq_true, List.isSuffixOf_iff_suffix] at hp ⊢
    rw [String.toList_append]
    exact fun h => hp (List.suffix_of_suffix_length_le h (List.suffix_append _ _) hlen)
  simp only [isCreation, Bool.or_eq_false_iff] at hpath ⊢
  exact ⟨key _ htask hpath.1, key _ hsup hpath.2⟩

theorem isCreation_compaction (svcName : String) :
    isCreation (makePath svcName "coordinator" "config" ["compaction"]) = false := by
  rw [makePath_eq_append]
  exact isCreation_append_false (by decide +kernel) (by decide +kernel) (by decide +kernel)

/-- A submission that leaves the client goes to a creation endpoint. -/
theorem isCreation_getPath {type : DruidIngestionMethod} {svcName : String}
    (h : getPath type svcName .post "" false ≠ "") :
    isCreation (getPath type svcName .post "" false) = true := by
  have suffix : ∀ comp : String, (makePath "" "indexer" comp []).toList <:+
      (makePath svcName "indexer" comp []).toList := by
    intro comp
    rw [makePath_eq_append svcName, String.toList_append]
    exact List.suffix_append _ _
  cases type with
  | kafka => simpa [isCreation, getPath] using .inr (suffix "supervisor")
  | nativeBatchIndexParallel => simpa [isCreation, getPath] using .inl (suffix "task")
  | _ => exact absurd rfl h

/-! ## What only moves the world -/

/-- A request to Druid other than a submission of `text`. -/
def NotPost (text : String) : Req → Prop
  | .http method url body => ∀ answer, (Exchange.mk method url body answer).posts text = false
  | _ => False

/-- The exchanges grew by ones that do not submit `text`. -/
def Extends (text : String) (log log' : List Exchange) : Prop :=
  ∃ new, log' = log ++ new ∧ ∀ e ∈ new, e.posts text = false

/-- Nothing was submitted; the stored spec is the same, and what the status remembers of it is
what it was or `text`. -/
structure Moves (text : String) (w w' : World) : Prop where
  ingestion : w'.stored.ingestion = w.stored.ingestion
  remembered : w'.stored.status.currentIngestionSpec = w.stored.status.currentIngestionSpec ∨
    w'.stored.status.currentIngestionSpec = text
  log : Extends text w.log w'.log

/-- As `Moves`, and the stored object was not touched at all. -/
structure Talks (text : String) (w w' : World) : Prop where
  stored : w'.stored = w.stored
  log : Extends text w.log w'.log

theorem Extends.refl (text : String) (log : List Exchange) : Extends text log log :=
  ⟨[], by simp, by simp⟩

theorem Extends.trans {l₁ l₂ l₃ : List Exchange} (h₁ : Extends text l₁ l₂)
    (h₂ : Extends text l₂ l₃) :
    Extends text l₁ l₃ := by
  obtain ⟨n₁, rfl, hn₁⟩ := h₁
  obtain ⟨n₂, rfl, hn₂⟩ := h₂
  refine ⟨n₁ ++ n₂, List.append_assoc .., fun e he => ?_⟩
  rcases List.mem_append.1 he with he | he
  · exact hn₁ e he
  · exact hn₂ e he

theorem Talks.refl (text : String) (w : World) : Talks text w w := ⟨rfl, .refl ..⟩

theorem Talks.trans {w₁ w₂ w₃ : World} (h₁ : Talks text w₁ w₂) (h₂ : Talks text w₂ w₃) :
    Talks text w₁ w₃ :=
  ⟨h₂.stored.trans h₁.stored, h₁.log.trans h₂.log⟩

theorem Talks.moves {w' : World} (h : Talks text w w') : Moves text w w' :=
  ⟨by rw [h.stored], .inl (by rw [h.stored]), h.log⟩

theorem Moves.trans {w₁ w₂ w₃ : World} (h₁ : Moves text w₁ w₂) (h₂ : Moves text w₂ w₃) :
    Moves text w₁ w₃ := by
  refine ⟨h₂.ingestion.trans h₁.ingestion, ?_, h₁.log.trans h₂.log⟩
  rcases h₂.remembered with h | h
  · rw [h]
    exact h₁.remembered
  · exact .inr h

theorem talks_of_uses {α : Type} {p : IngestM α} (hp : p.Uses (NotPost text)) (env : Env)
    (w : World) :
    Talks text w (exec (serve env) p w).state := by
  have := Triple.ofUses (h := serve env) (I := Talks text w) (G := fun _ => True) (p := p) ?_
  · exact (this w (.refl text w)).1
  · refine hp.mono fun r hr s hs => ⟨?_, trivial⟩
    cases r with
    | http method url body =>
        refine hs.trans ⟨rfl, [_], rfl, fun e he => ?_⟩
        rw [List.mem_singleton.1 he]
        exact hr _
    | _ => exact hr.elim

theorem uses_httpDo {method : Method} {url body : String} (h : φ (.http method url body)) :
    (httpDo method url body).Uses φ := by
  unfold httpDo DruidApi.httpDo
  split
  · trivial
  · exact ⟨h, fun x => uses_orReturn x⟩

/-- The compaction is read with a GET and sent to its own endpoint. -/
theorem uses_updateCompaction {svcName : String} (di : DruidIngestion)
    (hget : ∀ url, φ (.http .get url ""))
    (hpost : ∀ body, di.ingestion.compaction.isSet = true → getCompactionJson di = .ok body →
      φ (.http .post (makePath svcName "coordinator" "config" ["compaction"]) body)) :
    (updateCompaction di svcName).Uses φ := by
  unfold updateCompaction
  split_ifs with hset
  · refine (uses_orReturn _).bind fun dataSource => ?_
    refine (uses_httpDo (hget _)).bind fun currentResp => ?_
    refine (uses_orReturn _).bind fun currentCompactionJson => ?_
    cases hdesired : getCompactionJson di with
    | error e => trivial
    | ok desired =>
        refine (uses_orReturn _).bind fun areEqual => ?_
        split_ifs
        · trivial
        · refine (uses_httpDo (hpost desired hset hdesired)).bind fun resp => ?_
          split_ifs <;> trivial
  · trivial

theorem uses_makePatch (hget : ∀ ns name, φ (.get ns name)) (hnow : φ .now)
    (hpatch : ∀ base modified, φ (.patchStatus base modified)) (di : DruidIngestion)
    (taskId msg reason : String) (status : ConditionStatus) (type : String) :
    (makePatchDruidIngestionStatus di taskId msg reason status type).Uses φ := by
  refine (uses_orReturn _).bind fun text => ?_
  refine ⟨hget _ _, fun answer => (uses_orReturn answer).bind fun obj => ?_⟩
  exact ⟨hnow, fun now => ⟨hpatch _ _, fun answer => (uses_orReturn answer).bind fun _ => trivial⟩⟩

theorem notPost_get {url body : String} : NotPost text (.http .get url body) := by
  intro answer
  simp [Exchange.posts]

theorem notPost_updateCompaction (text : String) (di : DruidIngestion) (svcName : String) :
    (updateCompaction di svcName).Uses (NotPost text) := by
  refine uses_updateCompaction di (fun _ => notPost_get) fun body _ _ answer => ?_
  simp [Exchange.posts, isCreation_compaction]

theorem getSpecJson_congr {di' : DruidIngestion} (h : di.ingestion = di'.ingestion) :
    getSpecJson di = getSpecJson di' := by
  simp only [getSpecJson, getSpec, h]

theorem getSpec_eq_map {x : Json} (h : getSpec di = .ok x) :
    ∃ src, Json.unmarshalMap src = some x := by
  unfold getSpec at h
  split_ifs at h
  · split at h
    · cases h
      exact ⟨_, ‹_›⟩
    · cases h
  · split at h
    · cases h
      exact ⟨_, ‹_›⟩
    · cases h

theorem getSpecJson_eq_map (h : getSpecJson di = .ok text) :
    ∃ src x, Json.unmarshalMap src = some x ∧ text = Json.toJsonString x := by
  unfold getSpecJson at h
  cases hspec : getSpec di with
  | error e => simp [hspec, Except.map] at h
  | ok x =>
      obtain ⟨src, hsrc⟩ := getSpec_eq_map hspec
      exact ⟨src, x, hsrc, by simpa [hspec, Except.map, eq_comm] using h⟩

theorem getSpecJson_ne_empty (h : getSpecJson di = .ok text) : text ≠ "" := by
  obtain ⟨_, x, hx, rfl⟩ := getSpecJson_eq_map h
  exact Json.toJsonString_map_ne_empty (Json.unmarshalMap_cases hx)

theorem uses_updateRules (di : DruidIngestion) (svcName : String)
    (hpost : ∀ url xs, φ (.http .post url (Json.toJsonString (.arr xs)))) :
    (updateRules di svcName).Uses φ := by
  unfold updateRules
  split
  · trivial
  · rename_i hrules
    cases hget : getRulesJson di with
    | error e => trivial
    | ok rulesData =>
        simp only [getRulesJson, getRules, if_neg hrules] at hget
        cases hr : unmarshalRules (di.ingestion.rules.getD []) with
        | error e => simp [hr, Except.map] at hget
        | ok xs =>
            have hdata : rulesData = Json.toJsonString (.arr xs) := by
              simpa [hr, Except.map, eq_comm] using hget
            rw [hdata]
            refine (uses_orReturn (getDataSource di)).bind fun dataSource => ?_
            refine (uses_httpDo (hpost _ xs)).bind fun resp => ?_
            split <;> trivial

/-- No spec is an array. -/
theorem notPost_updateRules (svcName : String) (h : getSpecJson di = .ok text) :
    (updateRules di svcName).Uses (NotPost text) := by
  obtain ⟨_, x, hx, rfl⟩ := getSpecJson_eq_map h
  refine uses_updateRules di svcName fun url xs answer => ?_
  simp [Exchange.posts, Json.toJsonString_arr_ne_map (Json.unmarshalMap_cases hx)]

/-! ## Outcomes -/

/-- Druid alone, with no Kubernetes behind it. -/
def druidOnly (env : Env) : Handler sig Unit
  | .http method url body, _ => (env.druid method url body, ())
  | .get _ _, _ => (.error ⟨"", false⟩, ())
  | .patchStatus _ _, _ => (.error ⟨"", false⟩, ())
  | .now, _ => (env.clock, ())

/-- How the compaction step ends, which only Druid's answers decide. -/
def compactionOutcome (env : Env) (di : DruidIngestion) (svcName : String) : Except Exit Bool :=
  (exec (druidOnly env) (updateCompaction di svcName) ()).res

/-- How the rules step ends. -/
def rulesOutcome (env : Env) (di : DruidIngestion) (svcName : String) : Except Exit Bool :=
  (exec (druidOnly env) (updateRules di svcName) ()).res

theorem res_eq_druidOnly {α : Type} {p : IngestM α} (hp : p.Uses (NotPost text)) (env : Env)
    (w : World) :
    (exec (serve env) p w).res = (exec (druidOnly env) p ()).res := by
  refine exec_res_congr (hp.mono fun r hr s t => ?_) w ()
  cases r with
  | http method url body => rfl
  | _ => exact hr.elim

@[simp] theorem mergeField_base {α : Type} [DecidableEq α] (base modified : α) :
    mergeField base modified base = modified := by
  unfold mergeField
  split <;> simp_all

/-- A patch of the status whose read is the `n`-th Kubernetes request gets through. -/
def noted (env : Env) (n : ℕ) : Bool := (env.kube n).isNone && (env.kube (n + 1)).isNone

theorem exists_fault_of_not_noted {env : Env} {n : ℕ} (h : noted env n = false) :
    ∃ n, env.kube n ≠ none := by
  by_contra hnone
  simp only [ne_eq, not_exists, not_not] at hnone
  simp [noted, hnone] at h

theorem exec_patchStatus (di : DruidIngestion) (transform : DruidIngestion → Int → DruidIngestion)
    (env : Env) (w : World) :
    let o := exec (serve env) (patchStatus di transform) w
    o.state.log = w.log ∧
      ((noted env w.calls = true ∧ o.res = .ok w.stored ∧ o.state.stored = { w.stored with
          status := applyStatusPatch w.stored.status (transform w.stored env.clock).status
            w.stored.status
          resourceVersion := w.stored.resourceVersion + 1 }) ∨
        (noted env w.calls = false ∧ o.state.stored = w.stored ∧ ∃ e, o.res = .error e)) := by
  simp only [patchStatus, request, call_bind, ret_bind, exec_call, serve, noted]
  cases hget : env.kube w.calls with
  | some e => exact ⟨rfl, .inr ⟨rfl, rfl, _, rfl⟩⟩
  | none =>
      simp only [orReturn_ok, ret_bind, exec_call, serve]
      cases hpatch : env.kube (w.calls + 1) with
      | some e => exact ⟨rfl, .inr ⟨rfl, rfl, _, rfl⟩⟩
      | none => exact ⟨rfl, .inl ⟨rfl, rfl, rfl⟩⟩

/-- `makePatchDruidIngestionStatus` remembers the spec of `di`, or fails and changes nothing. -/
theorem exec_makePatch (hspec : getSpecJson di = .ok text) (taskId msg reason : String)
    (status : ConditionStatus) (type : String) (env : Env) (w : World) :
    let o := exec (serve env) (makePatchDruidIngestionStatus di taskId msg reason status type) w
    o.state.log = w.log ∧
      ((o.res = .ok w.stored ∧ o.state.stored.ingestion = w.stored.ingestion ∧
          o.state.stored.status.currentIngestionSpec = text) ∨
        (∃ n, env.kube n ≠ none) ∧ o.state.stored = w.stored ∧ ∃ e, o.res = .error e) := by
  simp only [makePatchDruidIngestionStatus, hspec, orReturn_ok, ret_bind]
  obtain ⟨hlog, ⟨-, hres, hstored⟩ | ⟨hfails, hsame⟩⟩ := exec_patchStatus di _ env w
  · refine ⟨hlog, .inl ⟨hres, ?_, ?_⟩⟩
    · rw [hstored]
    · rw [hstored]
      simp [applyStatusPatch]
  · exact ⟨hlog, .inr ⟨exists_fault_of_not_noted hfails, hsame⟩⟩

theorem Moves.refl (text : String) (w : World) : Moves text w w := (Talks.refl text w).moves

/-- A step that talks to Druid and, if that changed something, notes it in the status. -/
theorem exec_noted {p : IngestM Bool} (hp : p.Uses (NotPost text))
    (hspec : getSpecJson di = .ok text) (hdi : di.ingestion = w.stored.ingestion)
    (taskId msg reason : String) (status : ConditionStatus) (type : String) (env : Env) :
    let o := exec (serve env) (p >>= fun ok =>
      if ok then makePatchDruidIngestionStatus di taskId msg reason status type else return di) w
    let outcome := (exec (druidOnly env) p ()).res
    Moves text w o.state ∧ (∀ di', o.res = .ok di' → di'.ingestion = di.ingestion) ∧
      (outcome ≠ .ok true → Talks text w o.state ∧ o.res = outcome.map fun _ => di) := by
  have htalk := talks_of_uses hp env w
  have hdruid := res_eq_druidOnly hp env w
  cases hres : (exec (serve env) p w).res with
  | error e =>
      rw [exec_bind_error hres, ← hdruid, hres]
      exact ⟨htalk.moves, fun _ h => (by cases h), fun _ => ⟨htalk, rfl⟩⟩
  | ok ok =>
      rw [exec_bind_ok hres, ← hdruid, hres]
      cases ok with
      | false => exact ⟨htalk.moves, fun _ h => (by cases h; rfl), fun _ => ⟨htalk, rfl⟩⟩
      | true =>
          obtain ⟨new, hnew, hposts⟩ := htalk.log
          obtain ⟨hlog, ⟨hok, hing, htext⟩ | ⟨-, hstored, e, herr⟩⟩ :=
            exec_makePatch hspec taskId msg reason status type env (exec (serve env) p w).state
          · refine ⟨⟨?_, .inr htext, new, hlog.trans hnew, hposts⟩, fun di' h => ?_,
              fun hne => absurd rfl hne⟩
            · exact hing.trans (congrArg (·.ingestion) htalk.stored)
            · cases hok.symm.trans h
              rw [htalk.stored, hdi]
          · refine ⟨Talks.moves ⟨hstored.trans htalk.stored, new, hlog.trans hnew, hposts⟩,
              fun di' h => ?_, fun hne => absurd rfl hne⟩
            cases herr.symm.trans h

theorem exec_updateCompactionStatus (hspec : getSpecJson di = .ok text)
    (hdi : di.ingestion = w.stored.ingestion) (svcName : String) (env : Env) :
    let o := exec (serve env) (updateCompactionStatus di svcName) w
    Moves text w o.state ∧ (∀ di', o.res = .ok di' → di'.ingestion = di.ingestion) ∧
      (compactionOutcome env di svcName ≠ .ok true →
        Talks text w o.state ∧ o.res = (compactionOutcome env di svcName).map fun _ => di) :=
  exec_noted (notPost_updateCompaction text di svcName) hspec hdi ..

theorem exec_updateRulesStatus (hspec : getSpecJson di = .ok text)
    (hdi : di.ingestion = w.stored.ingestion) (svcName : String) (env : Env) :
    let o := exec (serve env) (updateRulesStatus di svcName) w
    Moves text w o.state ∧
      (di.status.currentRules = di.ingestion.rules ∨ rulesOutcome env di svcName ≠ .ok true →
        Talks text w o.state) := by
  unfold updateRulesStatus
  by_cases heq : di.status.currentRules = di.ingestion.rules
  · simp only [if_pos heq, pure_eq, exec_ret]
    exact ⟨.refl .., fun _ => .refl ..⟩
  · simp only [if_neg heq]
    obtain ⟨hmoves, -, hquiet⟩ := exec_noted (notPost_updateRules svcName hspec) hspec hdi
      di.status.taskId updateSuccess "rules updated" .true updateSuccess env
    exact ⟨hmoves, fun h => (hquiet (h.resolve_left heq)).1⟩

/-- The exchange that submits `text` for `di`. -/
def submission (env : Env) (di : DruidIngestion) (svcName text : String) : Exchange :=
  let url := getPath di.ingestion.type svcName .post "" false
  ⟨.post, url, text, env.druid .post url text⟩

def World.record (w : World) (e : Exchange) : World := { w with log := w.log ++ [e] }

theorem exec_httpDo (method : Method) {url : String} (hurl : url ≠ "") (body : String) (env : Env)
    (w : World) :
    let o := exec (serve env) (httpDo method url body) w
    o.state = w.record ⟨method, url, body, env.druid method url body⟩ ∧
      o.res = (env.druid method url body).mapError .error := by
  simp only [httpDo, DruidApi.httpDo, if_neg hurl, request, call_bind, ret_bind, exec_call, serve,
    World.record]
  cases env.druid method url body <;> exact ⟨rfl, rfl⟩

end DruidOperator.Ingestion
