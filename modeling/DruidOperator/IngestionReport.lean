import DruidOperator.IngestionDeletion
import DruidOperator.IngestionRules
import DruidOperator.IngestionSettled

/-!
# What the status reports of a creation

The first reconcile submits the spec, brings the compaction settings and the rules in step, and
patches the status with `CreateSuccess` or `CreateFail`. A patch is reached only if all three calls
went through, but `UpdateCompaction` says `false` for settings that are already in effect and where
there are none, and that counts as a failure.

* `compactionFound` — what the settings Druid reports mean for the compaction step.
* `Created` — the task was accepted, and all that is configured is in effect.
* `creation_reported_iff` — the status reports a creation as it went exactly if the task was refused
  or new compaction settings were called for.
-/

namespace DruidOperator.Ingestion

open Interaction Prog DruidApi

/-! ## What is in effect -/

/-- Where the rules of a data source are sent. -/
def rulesUrl (svcName dataSource : String) : String :=
  makePath svcName "coordinator" "rules" [dataSource]

/-- The text was sent to the URL, and Druid answered 200. -/
def Sent (log : List Exchange) (url body : String) : Prop :=
  ∃ e ∈ log, e.method = .post ∧ e.url = url ∧ e.body = body ∧ e.isOk = true

theorem Sent.mono {log log' : List Exchange} {url body : String} (h : Sent log url body)
    (hsub : log ⊆ log') : Sent log' url body := by
  obtain ⟨e, he, hsent⟩ := h
  exact ⟨e, hsub he, hsent⟩

/-- The settings that Druid reported include the desired ones. -/
def Included (log : List Exchange) (url desired : String) : Prop :=
  ∃ e ∈ log, e.method = .get ∧ e.url = url ∧ ∃ resp current, e.answer = .ok resp ∧
    currentCompaction resp = .ok current ∧ includesJson current desired = .ok true

/-- The task was accepted. -/
def TaskInEffect (log : List Exchange) (di : DruidIngestion) (svcName : String) : Prop :=
  ∃ text, getSpecJson di = .ok text ∧
    Sent log (getPath di.ingestion.type svcName .post "" false) text

/-- The compaction settings, if there are any, were included already or were accepted. -/
def CompactionInEffect (log : List Exchange) (di : DruidIngestion) (svcName : String) : Prop :=
  di.ingestion.compaction.isSet = true → ∃ dataSource desired, getDataSource di = .ok dataSource ∧
    getCompactionJson di = .ok desired ∧
    (Included log (settingsUrl svcName dataSource) desired ∨
      Sent log (compactionUrl svcName) desired)

/-- The rules, if there are any, were accepted. -/
def RulesInEffect (log : List Exchange) (di : DruidIngestion) (svcName : String) : Prop :=
  di.ingestion.rules.getD [] ≠ [] → ∃ dataSource rulesData, getDataSource di = .ok dataSource ∧
    getRulesJson di = .ok rulesData ∧ Sent log (rulesUrl svcName dataSource) rulesData

/-- All of a creation is in effect. -/
structure Created (log : List Exchange) (di : DruidIngestion) (svcName : String) : Prop where
  task : TaskInEffect log di svcName
  compaction : CompactionInEffect log di svcName
  rules : RulesInEffect log di svcName

theorem CompactionInEffect.mono {log log' : List Exchange} {di : DruidIngestion} {svcName : String}
    (h : CompactionInEffect log di svcName) (hsub : log ⊆ log') :
    CompactionInEffect log' di svcName := by
  intro hset
  obtain ⟨dataSource, desired, hsource, hdesired, ⟨e, he, hincl⟩ | hsent⟩ := h hset
  · exact ⟨dataSource, desired, hsource, hdesired, .inl ⟨e, hsub he, hincl⟩⟩
  · exact ⟨dataSource, desired, hsource, hdesired, .inr (hsent.mono hsub)⟩

theorem RulesInEffect.mono {log log' : List Exchange} {di : DruidIngestion} {svcName : String}
    (h : RulesInEffect log di svcName) (hsub : log ⊆ log') : RulesInEffect log' di svcName := by
  intro hne
  obtain ⟨dataSource, rulesData, hsource, hdata, hsent⟩ := h hne
  exact ⟨dataSource, rulesData, hsource, hdata, hsent.mono hsub⟩

/-- What the compaction step finds: whether the settings Druid reports include the desired ones, as
they do if none are desired; nothing if it cannot tell. -/
def compactionFound (env : Env) (di : DruidIngestion) (svcName : String) : Option Bool :=
  if di.ingestion.compaction.isSet then
    match getDataSource di, getCompactionJson di with
    | .ok dataSource, .ok desired =>
        match env.druid .get (settingsUrl svcName dataSource) "" with
        | .ok resp =>
            match currentCompaction resp with
            | .ok current => (includesJson current desired).toOption
            | .error _ => none
        | .error _ => none
    | _, _ => none
  else some true

section Parts

variable {env : Env} {di : DruidIngestion} {svcName : String} {w : World}

/-- A compaction step that returned: what it found, and that the settings are in effect. -/
theorem updateCompaction_returned {changed : Bool}
    (hres : (exec (serve env) (updateCompaction di svcName) w).res = .ok changed) :
    compactionFound env di svcName = some (!changed) ∧
      CompactionInEffect (talk env (updateCompaction di svcName) w) di svcName := by
  rcases updateCompaction_cases hres with ⟨hunset, rfl, -⟩ |
    ⟨dataSource, desired, resp, current, hset, hsource, hdesired, hans, hcurrent, hincl,
      htalk, hpost⟩
  · exact ⟨by simp [compactionFound, hunset], fun hset => by cases hset.symm.trans hunset⟩
  · constructor
    · simp [compactionFound, hset, hsource, hdesired, hans, hcurrent, hincl, Except.toOption]
    · refine fun _ => ⟨dataSource, desired, hsource, hdesired, ?_⟩
      rw [htalk]
      cases changed with
      | false =>
          exact .inl ⟨_, List.mem_cons_self, rfl, rfl, resp, current, rfl, hcurrent, hincl⟩
      | true =>
          obtain ⟨resp', hans', hcode⟩ := hpost rfl
          refine .inr ⟨_, List.mem_cons_of_mem _ List.mem_cons_self, rfl, rfl, rfl, ?_⟩
          simp [Exchange.isOk, hans', hcode]

theorem updateRules_returned {sent : Bool}
    (hres : (exec (serve env) (updateRules di svcName) w).res = .ok sent) :
    RulesInEffect (talk env (updateRules di svcName) w) di svcName := by
  intro hne
  unfold updateRules at hres ⊢
  rw [if_neg hne] at hres ⊢
  cases hdata : getRulesJson di with
  | error e =>
      rw [hdata] at hres
      cases hres
  | ok rulesData =>
      cases hsource : getDataSource di with
      | error e =>
          rw [hdata, hsource] at hres
          cases hres
      | ok dataSource =>
          simp only [hdata, hsource, orReturn_ok, ret_bind] at hres ⊢
          obtain ⟨resp, hpost, hres, -⟩ := exec_bind_returned hres
          obtain ⟨-, hmem⟩ := httpDo_returned (makePath_ne_empty _ _ _ _) hpost
          by_cases hcode : resp.statusCode = 200
          · refine ⟨dataSource, rulesData, rfl, rfl, _, talk_bind_left _ hmem, rfl, rfl, rfl, ?_⟩
            simp [Exchange.isOk, hcode]
          · rw [if_neg hcode] at hres
            cases hres

end Parts

/-! ## The patch of a creation -/

section Patch

variable {α β : Type} {env : Env} {di : DruidIngestion} {svcName text : String} {w : World}
  {base modified : DruidIngestion}

theorem Sends.bind_cases {p : IngestM α} {f : α → IngestM β} {r : Req}
    (h : Sends env (p >>= f) w r) : Sends env p w r ∨
      ∃ a, (exec (serve env) p w).res = .ok a ∧ Sends env (f a) (exec (serve env) p w).state r := by
  obtain ⟨e, he, hr⟩ := h
  rcases mem_steps_bind he with he | ⟨a, hres, he⟩
  · exact .inl ⟨e, he, hr⟩
  · exact .inr ⟨a, hres, e, he, hr⟩

/-- A program that only talks to Druid patches nothing, so a patch comes after it. -/
theorem Sends.after {p : IngestM α} {f : α → IngestM β} (hp : p.Uses ToDruid)
    (h : Sends env (p >>= f) w (.patchStatus base modified)) :
    ∃ a, (exec (serve env) p w).res = .ok a ∧
      Sends env (f a) (exec (serve env) p w).state (.patchStatus base modified) := by
  refine h.bind_cases.resolve_left ?_
  intro h
  obtain ⟨e, he, hreq⟩ := h
  have hdruid := hp.steps he
  rw [hreq] at hdruid
  exact hdruid

theorem patchStatus_sends {transform : DruidIngestion → Int → DruidIngestion}
    (h : Sends env (patchStatus di transform) w (.patchStatus base modified)) :
    modified = transform base env.clock := by
  obtain ⟨e, he, hreq⟩ := h
  simp only [patchStatus, request, call_bind, ret_bind, exec_call, serve] at he
  rcases List.mem_cons.1 he with rfl | he
  · cases hreq
  · cases hget : env.kube w.calls with
    | some err =>
        simp only [hget] at he
        cases he
    | none =>
        simp only [hget, orReturn_ok, ret_bind, exec_call, serve] at he
        rcases List.mem_cons.1 he with rfl | he
        · cases hreq
        · rcases List.mem_cons.1 he with rfl | he
          · cases hreq
            rfl
          · cases hpatch : env.kube (w.calls + 1) with
            | some err => simp [hpatch, orReturn] at he
            | none => simp [hpatch, orReturn] at he

/-- The status that a creation asks for, and what went before. -/
theorem finishCreate_patch {resp : Response}
    (h : Sends env (finishCreate di svcName resp) w (.patchStatus base modified)) :
    ∃ changed, compactionFound env di svcName = some (!changed) ∧
      CompactionInEffect (talk env (finishCreate di svcName resp) w) di svcName ∧
      RulesInEffect (talk env (finishCreate di svcName resp) w) di svcName ∧
      modified.status.type =
        if resp.statusCode = 200 ∧ changed = true then createSuccess else createFail := by
  unfold finishCreate at h ⊢
  obtain ⟨changed, hcomp, h⟩ := h.after (toDruid_updateCompaction di svcName)
  obtain ⟨hfound, heffect⟩ := updateCompaction_returned hcomp
  obtain ⟨sent, hrules, h⟩ := h.after (toDruid_updateRules di svcName)
  have hsent : sent = true := (yields_updateRules di svcName).result hrules
  refine ⟨changed, hfound, heffect.mono (talk_bind_left _), ?_, ?_⟩
  · refine RulesInEffect.mono ?_ (talk_bind_right hcomp)
    exact (updateRules_returned hrules).mono (talk_bind_left _)
  · cases htask : getTaskIdFromResponse resp.responseBody with
    | error e =>
        rw [htask] at h
        obtain ⟨s, hs, -⟩ := h
        cases hs
    | ok taskId =>
        simp only [htask, orReturn_ok, ret_bind, hsent, and_true] at h
        cases hspec : getSpecJson di with
        | error e =>
            rw [makePatchDruidIngestionStatus, hspec] at h
            obtain ⟨s, hs, -⟩ := h
            cases hs
        | ok text =>
            unfold makePatchDruidIngestionStatus at h
            simp only [hspec, orReturn_ok, ret_bind] at h
            obtain ⟨s, hs, hreq⟩ := h
            simp only [pure_eq, exec_bind_pure_steps] at hs
            rw [patchStatus_sends ⟨s, hs, hreq⟩]

theorem createOrUpdate_patch (hfresh : isFresh di = true)
    (h : Sends env (createOrUpdate di svcName) w (.patchStatus base modified)) :
    ∃ text resp changed, getSpecJson di = .ok text ∧
      (⟨.post, getPath di.ingestion.type svcName .post "" false, text, .ok resp⟩ : Exchange) ∈
        talk env (createOrUpdate di svcName) w ∧
      compactionFound env di svcName = some (!changed) ∧
      CompactionInEffect (talk env (createOrUpdate di svcName) w) di svcName ∧
      RulesInEffect (talk env (createOrUpdate di svcName) w) di svcName ∧
      modified.status.type =
        if resp.statusCode = 200 ∧ changed = true then createSuccess else createFail := by
  unfold createOrUpdate at h ⊢
  cases hspec : getSpecJson di with
  | error e =>
      rw [hspec] at h
      obtain ⟨s, hs, -⟩ := h
      cases hs
  | ok text =>
      simp only [hspec, orReturn_ok, ret_bind, if_pos (of_decide_eq_true hfresh)] at h ⊢
      unfold createTask at h ⊢
      by_cases hurl : getPath di.ingestion.type svcName .post "" false = ""
      · rw [httpDo, DruidApi.httpDo, if_pos hurl] at h
        obtain ⟨s, hs, -⟩ := h
        cases hs
      · obtain ⟨resp, hpost, h⟩ := h.after (toDruid_httpDo _ _ _)
        obtain ⟨-, hmem⟩ := httpDo_returned hurl hpost
        obtain ⟨changed, hfound, hcomp, hrules, htype⟩ := finishCreate_patch h
        exact ⟨text, resp, changed, rfl, talk_bind_left _ hmem, hfound,
          hcomp.mono (talk_bind_right hpost), hrules.mono (talk_bind_right hpost), htype⟩

end Patch

/-- Druid's answer to the submission of the spec is 200. -/
def acceptsTask (env : Env) (di : DruidIngestion) (svcName : String) : Bool :=
  match getSpecJson di with
  | .ok text => (submission env di svcName text).isOk
  | .error _ => false

/-- The status tells whether all of the creation is in effect. -/
def ReportsTruly (modified : DruidIngestion) (created : Prop) : Prop :=
  (modified.status.type = createSuccess ↔ created) ∧
    (¬ created → modified.status.type = createFail)

/-- **The outcome of a creation.** Whatever the answers of Druid and Kubernetes, the patch of a
first reconcile reports it truly exactly if the task was not accepted, or the compaction settings
that Druid reported did not include the desired ones. -/
theorem creation_reported_iff {env : Env} {di : DruidIngestion} {svcName : String} {w : World}
    {base modified : DruidIngestion} (hfresh : isFresh di = true)
    (hpatch : Sends env (createOrUpdate di svcName) w (.patchStatus base modified)) :
    ReportsTruly modified (Created (talk env (createOrUpdate di svcName) w) di svcName) ↔
      acceptsTask env di svcName = false ∨ compactionFound env di svcName = some false := by
  obtain ⟨text, resp, changed, hspec, hmem, hfound, hcomp, hrules, htype⟩ :=
    createOrUpdate_patch hfresh hpatch
  have hans := answer_of_mem_talk hmem
  have hcode : acceptsTask env di svcName = decide (resp.statusCode = 200) := by
    simp only [acceptsTask, hspec, submission, Exchange.isOk]
    rw [← hans]
  have hcreated : Created (talk env (createOrUpdate di svcName) w) di svcName ↔
      resp.statusCode = 200 := by
    constructor
    · intro h
      obtain ⟨text', hspec', e, he, hmethod, hurl, hbody, hok⟩ := h.task
      cases hspec.symm.trans hspec'
      have hanswer := answer_of_mem_talk he
      rw [hmethod, hurl, hbody, ← hans] at hanswer
      simpa [Exchange.isOk, hanswer] using hok
    · intro h
      exact ⟨⟨text, hspec, _, hmem, rfl, rfl, rfl, by simp [Exchange.isOk, h]⟩, hcomp, hrules⟩
  have hne : createFail ≠ createSuccess := by decide
  rw [ReportsTruly, hcreated, hcode, hfound, htype]
  by_cases h200 : resp.statusCode = 200
  · cases changed with
    | true => simp [h200]
    | false => simp [h200, hne]
  · simp [h200, hne]

/-- The `Status.Type` of a patch. -/
def patchedType : Req → Option String
  | .patchStatus _ modified => some modified.status.type
  | _ => none

theorem sends_of_patchedType {α : Type} {env : Env} {p : IngestM α} {w : World} {type : String}
    (h : some type ∈ (exec (serve env) p w).steps.map fun e => patchedType e.req) :
    ∃ base modified, Sends env p w (.patchStatus base modified) ∧ modified.status.type = type := by
  obtain ⟨e, he, htype⟩ := List.mem_map.1 h
  cases hreq : e.req with
  | patchStatus base modified =>
      rw [hreq, patchedType, Option.some.injEq] at htype
      exact ⟨base, modified, ⟨e, he, hreq⟩, htype⟩
  | _ =>
      rw [hreq] at htype
      cases htype

theorem creation_reported_wiki : ∃ base modified,
    Sends (acceptingEnv 200) (createOrUpdate wiki routerUrl) ⟨wiki, [], 0⟩
      (.patchStatus base modified) ∧ modified.status.type = createSuccess ∧
    (ReportsTruly modified (Created (talk (acceptingEnv 200) (createOrUpdate wiki routerUrl)
        ⟨wiki, [], 0⟩) wiki routerUrl) ↔
      acceptsTask (acceptingEnv 200) wiki routerUrl = false ∨
        compactionFound (acceptingEnv 200) wiki routerUrl = some false) := by
  have hpatched : some createSuccess ∈ (exec (serve (acceptingEnv 200))
      (createOrUpdate wiki routerUrl) ⟨wiki, [], 0⟩).steps.map fun e => patchedType e.req := by
    decide +kernel
  obtain ⟨base, modified, hsends, htype⟩ := sends_of_patchedType hpatched
  exact ⟨base, modified, hsends, htype, creation_reported_iff (by decide) hsends⟩

/-- Without compaction settings a creation that went all right is reported as failed. -/
theorem plain_creation_failed : ∃ base modified,
    Sends (acceptingEnv 200) (createOrUpdate plainWiki routerUrl) ⟨plainWiki, [], 0⟩
      (.patchStatus base modified) ∧
    Created (talk (acceptingEnv 200) (createOrUpdate plainWiki routerUrl) ⟨plainWiki, [], 0⟩)
      plainWiki routerUrl ∧ modified.status.type = createFail := by
  have hpatched : some createFail ∈ (exec (serve (acceptingEnv 200))
      (createOrUpdate plainWiki routerUrl) ⟨plainWiki, [], 0⟩).steps.map
        fun e => patchedType e.req := by decide +kernel
  obtain ⟨base, modified, hsends, htype⟩ := sends_of_patchedType hpatched
  refine ⟨base, modified, hsends,
    ⟨⟨wikiText, by decide +kernel, ?_⟩, fun h => ?_, fun h => ?_⟩, htype⟩
  · unfold Sent
    decide +kernel
  · cases h
  · exact absurd rfl h

end DruidOperator.Ingestion
