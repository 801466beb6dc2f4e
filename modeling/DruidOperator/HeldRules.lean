import DruidOperator.IngestionReport

/-!
# The rules that Druid holds

Druid keeps the last list of rules it took for a data source. So after a reconcile whose exchanges
were all answered 200, the rules it holds are those of the object exactly if the reconcile sent
them, or if they were before, or if there never were any.

* `heldRules` — the rules held after some exchanges.
* `sendsRules` — the reconcile gets to the rules and sends them. It sends no empty list, and none
  that two patches before, of the spec and of the compaction, have put into the status.
* `rules_current_iff` — the rules held are the current ones exactly if they are sent, or were
  before.
-/

namespace DruidOperator.Ingestion

open Interaction Prog DruidApi Runs

/-! ## Rules in exchanges -/

/-- The list of rules that Druid takes at the URL in an exchange. -/
def Exchange.takenRules (url : String) (e : Exchange) : Option (List Json) :=
  if e.method = .post ∧ e.url = url ∧ e.isOk = true then
    match Json.unmarshal e.body with
    | some (.arr rules) => some rules
    | _ => none
  else none

/-- The rules held for a data source after the exchanges, `before` being those held before, if
any. -/
def heldRules (svcName dataSource : String) (before : Option (List Json)) (log : List Exchange) :
    Option (List Json) :=
  log.foldl (fun held e => (e.takenRules (rulesUrl svcName dataSource)).or held) before

/-- The rules held, if there are any, are those of the object. -/
def HoldsCurrent (di : DruidIngestion) (held : Option (List Json)) : Prop :=
  ∀ rules, held = some rules → unmarshalRules (di.ingestion.rules.getD []) = .ok rules

/-- The request brings no rules. -/
def NoRules (url : String) : Req → Prop
  | .http method url' body => ∀ answer, (Exchange.mk method url' body answer).takenRules url = none
  | _ => True

section Held

variable {svcName dataSource : String} {before : Option (List Json)}

theorem heldRules_append (log log' : List Exchange) :
    heldRules svcName dataSource before (log ++ log') =
      heldRules svcName dataSource (heldRules svcName dataSource before log) log' :=
  List.foldl_append

theorem heldRules_of_none {log : List Exchange}
    (h : ∀ e ∈ log, e.takenRules (rulesUrl svcName dataSource) = none) :
    heldRules svcName dataSource before log = before := by
  induction log with
  | nil => rfl
  | cons e log ih =>
      rw [heldRules, List.foldl_cons, h e List.mem_cons_self, Option.none_or]
      exact ih fun e he => h e (List.mem_cons_of_mem _ he)

theorem takenRules_of_uses {α : Type} {url : String} {env : Env} {p : IngestM α}
    (hp : p.Uses (NoRules url)) {w : World} {e : Exchange} (he : e ∈ talk env p w) :
    e.takenRules url = none := by
  obtain ⟨s, hs, hexchange⟩ := List.mem_filterMap.1 he
  have hreq := hp.steps hs
  unfold exchangeOf at hexchange
  split at hexchange
  · next heq =>
      cases hexchange
      rw [heq] at hreq
      exact hreq _
  · cases hexchange

theorem heldRules_quiet {α : Type} {env : Env} {p : IngestM α}
    (hp : p.Uses (NoRules (rulesUrl svcName dataSource))) (w : World) :
    heldRules svcName dataSource before (talk env p w) = before :=
  heldRules_of_none fun _ he => takenRules_of_uses hp he

variable {α β : Type} {env : Env} {p : IngestM α} {f : α → IngestM β} {w : World}

theorem heldRules_bind_ok (hp : p.Uses (NoRules (rulesUrl svcName dataSource))) {a : α}
    (hres : (exec (serve env) p w).res = .ok a) :
    heldRules svcName dataSource before (talk env (p >>= f) w) =
      heldRules svcName dataSource before (talk env (f a) (exec (serve env) p w).state) := by
  rw [talk_bind_ok hres, heldRules_append, heldRules_quiet hp]

theorem heldRules_bind_error (hp : p.Uses (NoRules (rulesUrl svcName dataSource))) {e : Exit}
    (hres : (exec (serve env) p w).res = .error e) :
    heldRules svcName dataSource before (talk env (p >>= f) w) = before := by
  unfold talk
  rw [exec_bind_error hres]
  exact heldRules_quiet hp w

theorem heldRules_then (hf : ∀ a, (f a).Uses (NoRules (rulesUrl svcName dataSource))) :
    heldRules svcName dataSource before (talk env (p >>= f) w) =
      heldRules svcName dataSource before (talk env p w) := by
  cases hres : (exec (serve env) p w).res with
  | error e =>
      unfold talk
      rw [exec_bind_error hres]
  | ok a => rw [talk_bind_ok hres, heldRules_append, heldRules_quiet (hf a)]

end Held

/-! ## Requests that bring no rules -/

theorem noRules_get (url url' body : String) : NoRules url (.http .get url' body) := by
  intro answer
  simp [Exchange.takenRules]

theorem noRules_of_map {url url' body src : String} {x : Json} (method : Method)
    (hx : Json.unmarshalMap src = some x) (hbody : body = Json.toJsonString x) :
    NoRules url (.http method url' body) := by
  intro answer
  have hread : Json.unmarshal body = some x := by
    rw [hbody]
    exact Json.unmarshal_toJsonString (unmarshal_of_unmarshalMap hx)
  unfold Exchange.takenRules
  split_ifs
  · rcases Json.unmarshalMap_cases hx with rfl | ⟨fs, rfl⟩
    · simp [hread]
    · simp [hread]
  · rfl

section Requests

variable {url svcName text : String} {di : DruidIngestion}

theorem noRules_submission (hspec : getSpecJson di = .ok text) (method : Method) (url' : String) :
    (httpDo method url' text).Uses (NoRules url) := by
  obtain ⟨src, x, hx, htext⟩ := getSpecJson_eq_map hspec
  exact uses_httpDo (noRules_of_map method hx htext)

theorem noRules_updateCompaction (di : DruidIngestion) :
    (updateCompaction di svcName).Uses (NoRules url) := by
  refine uses_updateCompaction di (fun url' => noRules_get url url' "") fun body hset hbody => ?_
  obtain ⟨-, fs, -, hread, -⟩ := unmarshalMap_compaction hset hbody
  intro answer
  simp [Exchange.takenRules, unmarshal_of_unmarshalMap hread]

theorem noRules_makePatch (di : DruidIngestion) (taskId msg reason : String)
    (status : ConditionStatus) (type : String) :
    (makePatchDruidIngestionStatus di taskId msg reason status type).Uses (NoRules url) :=
  uses_makePatch (fun _ _ => trivial) trivial (fun _ _ => trivial) ..

theorem noRules_updateSpec (hspec : getSpecJson di = .ok text) :
    (updateSpec di svcName text).Uses (NoRules url) := by
  refine (uses_orReturn _).bind fun current => (uses_orReturn _).bind fun ok => ?_
  split_ifs
  · trivial
  · refine (noRules_submission hspec .post _).bind fun resp => ?_
    split_ifs
    · exact (uses_orReturn _).bind fun taskId => noRules_makePatch ..
    · trivial

theorem noRules_updateCompactionStatus (di : DruidIngestion) :
    (updateCompactionStatus di svcName).Uses (NoRules url) := by
  refine (noRules_updateCompaction di).bind fun changed => ?_
  split_ifs
  · exact noRules_makePatch ..
  · trivial

end Requests

/-! ## Parts of a reconcile whose exchanges are answered 200 -/

def AllOk (log : List Exchange) : Prop := ∀ e ∈ log, e.isOk = true

theorem AllOk.mono {log log' : List Exchange} (h : AllOk log') (hsub : log ⊆ log') : AllOk log :=
  fun e he => h e (hsub he)

/-- The spec can be submitted, and the answer names a task. -/
def newTask (env : Env) (di : DruidIngestion) (svcName text : String) : Bool :=
  decide (getPath di.ingestion.type svcName .post "" false ≠ "") &&
    (submission env di svcName text).hasTaskId

/-- The rules that are sent: none if the list is empty or has no text. -/
def sentRules (di : DruidIngestion) : Option (List Json) :=
  if di.ingestion.rules.getD [] = [] then none
  else (unmarshalRules (di.ingestion.rules.getD [])).toOption

section Answered

variable {env : Env} {di : DruidIngestion} {svcName text dataSource : String} {w : World}

theorem httpDo_answered {method : Method} {url body : String} (hurl : url ≠ "")
    (hok : AllOk (talk env (httpDo method url body) w)) :
    ∃ resp, env.druid method url body = .ok resp ∧ resp.statusCode = 200 ∧
      (exec (serve env) (httpDo method url body) w).res = .ok resp := by
  have hanswer := hok ⟨method, url, body, env.druid method url body⟩
      (by simp [talk_httpDo method hurl])
  have hres := (exec_httpDo method hurl body env w).2
  unfold Exchange.isOk at hanswer
  cases hdruid : env.druid method url body with
  | error e => simp [hdruid] at hanswer
  | ok resp =>
      rw [hdruid] at hres
      exact ⟨resp, rfl, by simpa [hdruid] using hanswer, hres⟩

theorem updateCompaction_of_none (hfound : compactionFound env di svcName = none) :
    ∃ e, (exec (serve env) (updateCompaction di svcName) w).res = .error e := by
  cases hres : (exec (serve env) (updateCompaction di svcName) w).res with
  | error e => exact ⟨e, rfl⟩
  | ok changed =>
      rw [(updateCompaction_returned hres).1] at hfound
      cases hfound

theorem updateCompaction_of_found {found : Bool}
    (hok : AllOk (talk env (updateCompaction di svcName) w))
    (hfound : compactionFound env di svcName = some found) :
    (exec (serve env) (updateCompaction di svcName) w).res = .ok (!found) := by
  suffices h : ∃ changed, (exec (serve env) (updateCompaction di svcName) w).res = .ok changed by
    obtain ⟨changed, hres⟩ := h
    rw [(updateCompaction_returned hres).1, Option.some.injEq] at hfound
    rw [hres, ← hfound, Bool.not_not]
  unfold updateCompaction at hok ⊢
  unfold compactionFound at hfound
  by_cases hset : di.ingestion.compaction.isSet = true
  · simp only [if_pos hset] at hok hfound ⊢
    cases hsource : getDataSource di with
    | error e => simp [hsource] at hfound
    | ok dataSource =>
    cases hdesired : getCompactionJson di with
    | error e => simp [hdesired] at hfound
    | ok desired =>
        simp only [hsource, hdesired, orReturn_ok, ret_bind] at hok hfound ⊢
        obtain ⟨resp, hanswer, -, hres⟩ := httpDo_answered (makePath_ne_empty _ _ _ _)
          (hok.mono (talk_bind_left _))
        have hok' := hok.mono (talk_bind_right hres)
        rw [exec_bind_ok hres]
        simp only [settingsUrl, hanswer] at hfound
        cases hcurrent : currentCompaction resp with
        | error e => simp [hcurrent] at hfound
        | ok current =>
            simp only [hcurrent, orReturn_ok, ret_bind] at hok' hfound ⊢
            cases hincl : includesJson current desired with
            | error e => simp [hincl, Except.toOption] at hfound
            | ok same =>
                cases same with
                | true => exact ⟨false, rfl⟩
                | false =>
                    simp only [hincl, orReturn_ok, ret_bind, Bool.false_eq_true, if_false] at hok' ⊢
                    obtain ⟨resp', -, hcode, hres'⟩ := httpDo_answered (makePath_ne_empty _ _ _ _)
                      (hok'.mono (talk_bind_left _))
                    rw [exec_bind_ok hres', if_pos hcode]
                    exact ⟨true, rfl⟩
  · rw [if_neg hset]
    exact ⟨false, rfl⟩

theorem makePatch_noted (hspec : getSpecJson di = .ok text) (taskId msg reason : String)
    (status : ConditionStatus) (type : String) (hnoted : noted env w.calls = true) :
    (exec (serve env) (makePatchDruidIngestionStatus di taskId msg reason status type) w).res =
      .ok w.stored := by
  simp only [makePatchDruidIngestionStatus, hspec, orReturn_ok, ret_bind]
  obtain ⟨-, ⟨-, hres, -⟩ | ⟨hfails, -⟩⟩ := exec_patchStatus di _ env w
  · exact hres
  · cases hnoted.symm.trans hfails

theorem makePatch_not_noted (hspec : getSpecJson di = .ok text) (taskId msg reason : String)
    (status : ConditionStatus) (type : String) (hnoted : noted env w.calls = false) :
    ∃ e, (exec (serve env) (makePatchDruidIngestionStatus di taskId msg reason status type) w).res =
      .error e := by
  simp only [makePatchDruidIngestionStatus, hspec, orReturn_ok, ret_bind]
  obtain ⟨-, ⟨hgoes, -⟩ | ⟨-, -, hres⟩⟩ := exec_patchStatus di _ env w
  · cases hnoted.symm.trans hgoes
  · exact hres

/-- Settings that are in effect leave the object as it is. -/
theorem updateCompactionStatus_included
    (hok : AllOk (talk env (updateCompactionStatus di svcName) w))
    (hfound : compactionFound env di svcName = some true) :
    (exec (serve env) (updateCompactionStatus di svcName) w).res = .ok di := by
  unfold updateCompactionStatus at hok ⊢
  rw [exec_bind_ok (updateCompaction_of_found (hok.mono (talk_bind_left _)) hfound)]
  rfl

/-- New settings are noted, and the caller goes on with the object that was read for that. -/
theorem updateCompactionStatus_sent (hspec : getSpecJson di = .ok text)
    (hok : AllOk (talk env (updateCompactionStatus di svcName) w))
    (hfound : compactionFound env di svcName = some false) :
    (noted env w.calls = true →
      (exec (serve env) (updateCompactionStatus di svcName) w).res = .ok w.stored) ∧
    (noted env w.calls = false →
      ∃ e, (exec (serve env) (updateCompactionStatus di svcName) w).res = .error e) := by
  unfold updateCompactionStatus at hok ⊢
  have hres := updateCompaction_of_found (hok.mono (talk_bind_left _)) hfound
  obtain ⟨⟨⟨hstored, hcalls⟩, -⟩, -⟩ :=
    (talking_serve env w).outcome (toDruid_updateCompaction di svcName) w ⟨rfl, rfl⟩
  rw [exec_bind_ok hres, ← hcalls]
  simp only [Bool.not_false, if_true]
  constructor
  · intro hnoted
    rw [makePatch_noted hspec _ _ _ _ _ hnoted, hstored]
  · exact makePatch_not_noted hspec _ _ _ _ _

theorem updateCompactionStatus_unknown (hfound : compactionFound env di svcName = none) :
    ∃ e, (exec (serve env) (updateCompactionStatus di svcName) w).res = .error e := by
  obtain ⟨e, hres⟩ := updateCompaction_of_none (w := w) hfound
  unfold updateCompactionStatus
  rw [exec_bind_error hres]
  exact ⟨e, rfl⟩

theorem updateSpec_same (hspec : getSpecJson di = .ok text)
    (hsame : isEqualJson di.status.currentIngestionSpec text = .ok true) :
    exec (serve env) (updateSpec di svcName text) w = ⟨.ok di, w, []⟩ := by
  simp [updateSpec, hspec, hsame]

/-- Another spec is submitted and noted, and the caller goes on with the object as it was read. -/
theorem updateSpec_changed (hspec : getSpecJson di = .ok text)
    (hok : AllOk (talk env (updateSpec di svcName text) w))
    (hchanged : isEqualJson di.status.currentIngestionSpec text = .ok false) :
    ((newTask env di svcName text && noted env w.calls) = true →
      (exec (serve env) (updateSpec di svcName text) w).res = .ok w.stored ∧
      (exec (serve env) (updateSpec di svcName text) w).state.stored.ingestion =
        w.stored.ingestion ∧
      (exec (serve env) (updateSpec di svcName text) w).state.stored.status.currentRules =
        noteRules w.stored.ingestion.rules w.stored.status.currentRules) ∧
    ((newTask env di svcName text && noted env w.calls) = false →
      ∃ e, (exec (serve env) (updateSpec di svcName text) w).res = .error e) := by
  unfold updateSpec at hok ⊢
  simp only [hspec, hchanged, orReturn_ok, ret_bind, Bool.false_eq_true, if_false] at hok ⊢
  by_cases hurl : getPath di.ingestion.type svcName .post "" false = ""
  · rw [httpDo, DruidApi.httpDo, if_pos hurl]
    exact ⟨fun htask => by simp [newTask, hurl] at htask, fun _ => ⟨_, rfl⟩⟩
  · obtain ⟨resp, hanswer, hcode, hres⟩ := httpDo_answered hurl (hok.mono (talk_bind_left _))
    obtain ⟨⟨⟨hstored, hcalls⟩, -⟩, -⟩ := (talking_serve env w).outcome
      (toDruid_httpDo .post (getPath di.ingestion.type svcName .post "" false) text) w ⟨rfl, rfl⟩
    rw [exec_bind_ok hres, if_pos hcode, ← hcalls]
    have hnew : newTask env di svcName text = (getTaskIdFromResponse resp.responseBody).isOk := by
      simp [newTask, hurl, submission, Exchange.hasTaskId, hanswer]
    rw [hnew]
    cases htask : getTaskIdFromResponse resp.responseBody with
    | error e => exact ⟨fun h => (by cases h), fun _ => ⟨.error e, rfl⟩⟩
    | ok taskId =>
        simp only [orReturn_ok, ret_bind, Except.isOk, Except.toBool, Bool.true_and]
        constructor
        · intro hnoted
          have hpatch := makePatch_noted hspec taskId updateSuccess resp.responseBody .true
            updateSuccess hnoted
          obtain ⟨-, -, hing, -, hrules⟩ := exec_makePatch_through hspec hpatch
          rw [hstored] at hpatch hing hrules
          exact ⟨hpatch, hing, hrules⟩
        · exact makePatch_not_noted hspec _ _ _ _ _

theorem heldRules_updateRules (hsource : getDataSource di = .ok dataSource)
    (hok : AllOk (talk env (updateRules di svcName) w)) (before : Option (List Json)) :
    heldRules svcName dataSource before (talk env (updateRules di svcName) w) =
      (sentRules di).or before := by
  unfold updateRules at hok ⊢
  unfold sentRules
  by_cases hne : di.ingestion.rules.getD [] = []
  · rw [if_pos hne, if_pos hne]
    rfl
  · simp only [if_neg hne] at hok ⊢
    rw [getRulesJson_eq hne, rulesText] at hok ⊢
    cases hrules : unmarshalRules (di.ingestion.rules.getD []) with
    | error e => rfl
    | ok rules =>
        simp only [hrules, Except.map, hsource, orReturn_ok, ret_bind] at hok ⊢
        obtain ⟨resp, hanswer, hcode, hres⟩ := httpDo_answered (makePath_ne_empty _ _ _ _)
          (hok.mono (talk_bind_left _))
        have hread : Json.unmarshal (Json.toJsonString (.arr rules)) = some (.arr rules) :=
          Json.unmarshal_of_canonical (canonicalList_of_rules hrules)
        rw [heldRules_then fun resp => by split_ifs <;> trivial,
          talk_httpDo _ (makePath_ne_empty _ _ _ _), heldRules, List.foldl_cons, List.foldl_nil]
        simp [Exchange.takenRules, rulesUrl, Exchange.isOk, hanswer, hcode, hread, Except.toOption]

/-- The rules held after a step that sends those that are not remembered. -/
theorem heldRules_updateRulesStatus (hsource : getDataSource di = .ok dataSource)
    (hok : AllOk (talk env (updateRulesStatus di svcName) w)) (before : Option (List Json)) :
    heldRules svcName dataSource before (talk env (updateRulesStatus di svcName) w) =
      if di.status.currentRules = di.ingestion.rules then before else (sentRules di).or before := by
  unfold updateRulesStatus at hok ⊢
  split_ifs at hok ⊢
  · rfl
  · rw [heldRules_then]
    · exact heldRules_updateRules hsource (hok.mono (talk_bind_left _)) before
    · intro sent
      split_ifs
      · exact noRules_makePatch ..
      · trivial

end Answered

/-! ## A whole reconcile -/

/-- The reconcile gets to the rules and finds them different from the remembered ones. After patches
of both the spec and the compaction it does not: the first has noted the rules, and the second reads
that. -/
def getsToRules (env : Env) (w : World) (svcName : String) : Bool :=
  match getSpecJson w.stored with
  | .error _ => false
  | .ok text =>
      if isFresh w.stored then
        decide (getPath w.stored.ingestion.type svcName .post "" false ≠ "") &&
          (compactionFound env w.stored svcName).isSome
      else
        decide (w.stored.status.currentRules ≠ w.stored.ingestion.rules) &&
          match isEqualJson w.stored.status.currentIngestionSpec text,
              compactionFound env w.stored svcName with
          | .ok true, some true => true
          | .ok true, some false => noted env w.calls
          | .ok false, some true => newTask env w.stored svcName text && noted env w.calls
          | _, _ => false

/-- The reconcile sends the rules. -/
def sendsRules (env : Env) (w : World) (svcName : String) : Bool :=
  getsToRules env w svcName && (sentRules w.stored).isSome

section Whole

variable {env : Env} {svcName text dataSource : String} {w : World} {before : Option (List Json)}

theorem heldRules_createTask (hspec : getSpecJson w.stored = .ok text)
    (hsource : getDataSource w.stored = .ok dataSource)
    (hok : AllOk (talk env (createTask w.stored svcName text) w))
    (hfresh : isFresh w.stored = true) :
    heldRules svcName dataSource before (talk env (createTask w.stored svcName text) w) =
      if getsToRules env w svcName then (sentRules w.stored).or before else before := by
  unfold createTask at hok ⊢
  unfold getsToRules
  simp only [hspec, hfresh, if_true]
  by_cases hurl : getPath w.stored.ingestion.type svcName .post "" false = ""
  · rw [httpDo, DruidApi.httpDo, if_pos hurl]
    simp only [hurl, ne_eq, not_true_eq_false, decide_false, Bool.false_and, Bool.false_eq_true,
      if_false]
    rfl
  · obtain ⟨resp, -, -, hres⟩ := httpDo_answered hurl (hok.mono (talk_bind_left _))
    rw [heldRules_bind_ok (noRules_submission hspec _ _) hres]
    have hok' := hok.mono (talk_bind_right hres)
    unfold finishCreate at hok' ⊢
    simp only [hurl, ne_eq, not_false_eq_true, decide_true, Bool.true_and]
    cases hfound : compactionFound env w.stored svcName with
    | none =>
        obtain ⟨e, hcomp⟩ := updateCompaction_of_none hfound
        rw [heldRules_bind_error (noRules_updateCompaction _) hcomp]
        rfl
    | some found =>
        have hcomp := updateCompaction_of_found (hok'.mono (talk_bind_left _)) hfound
        rw [heldRules_bind_ok (noRules_updateCompaction _) hcomp, heldRules_then]
        · exact heldRules_updateRules hsource
            ((hok'.mono (talk_bind_right hcomp)).mono (talk_bind_left _)) before
        · intro sent
          exact (uses_orReturn _).bind fun taskId => (noRules_makePatch ..).bind fun di => trivial

theorem getDataSource_congr {di di' : DruidIngestion} (h : di'.ingestion = di.ingestion) :
    getDataSource di' = getDataSource di := by
  simp only [getDataSource, getSpec, h]

theorem sentRules_congr {di di' : DruidIngestion} (h : di'.ingestion = di.ingestion) :
    sentRules di' = sentRules di := by
  simp only [sentRules, h]

/-- The two steps that follow the spec. The object that the rules are compared with is the one at
hand, or, after a patch for the compaction, the stored one before it. -/
theorem heldRules_updateRest {di : DruidIngestion} (hspec : getSpecJson di = .ok text)
    (hsource : getDataSource di = .ok dataSource) (hstored : w.stored.ingestion = di.ingestion)
    (hok : AllOk (talk env (do
      let di ← updateCompactionStatus di svcName
      let di ← updateRulesStatus di svcName
      return (OperationResult.updated, di)) w)) :
    heldRules svcName dataSource before (talk env (do
      let di ← updateCompactionStatus di svcName
      let di ← updateRulesStatus di svcName
      return (OperationResult.updated, di)) w) =
    match compactionFound env di svcName with
    | none => before
    | some true =>
        if di.status.currentRules = di.ingestion.rules then before else (sentRules di).or before
    | some false =>
        if noted env w.calls = true ∧ w.stored.status.currentRules ≠ di.ingestion.rules then
          (sentRules di).or before
        else before := by
  -- however the compaction step ends, the rules are those of the object it returns
  have hreturned : ∀ di', di'.ingestion = di.ingestion →
      (exec (serve env) (updateCompactionStatus di svcName) w).res = .ok di' →
      heldRules svcName dataSource before (talk env (do
        let di ← updateCompactionStatus di svcName
        let di ← updateRulesStatus di svcName
        return (OperationResult.updated, di)) w) =
      if di'.status.currentRules = di.ingestion.rules then before
      else (sentRules di).or before := by
    intro di' hdi' hres
    rw [heldRules_bind_ok (noRules_updateCompactionStatus di) hres, heldRules_then, ← hdi',
      ← sentRules_congr hdi']
    · refine heldRules_updateRulesStatus ((getDataSource_congr hdi').trans hsource) ?_ before
      exact (hok.mono (talk_bind_right hres)).mono (talk_bind_left _)
    · exact fun _ => trivial
  cases hfound : compactionFound env di svcName with
  | none =>
      obtain ⟨e, hres⟩ := updateCompactionStatus_unknown hfound
      exact heldRules_bind_error (noRules_updateCompactionStatus di) hres
  | some found =>
      cases found with
      | true =>
          exact hreturned di rfl
            (updateCompactionStatus_included (hok.mono (talk_bind_left _)) hfound)
      | false =>
          obtain ⟨hgoes, hfails⟩ :=
            updateCompactionStatus_sent hspec (hok.mono (talk_bind_left _)) hfound
          cases hnoted : noted env w.calls with
          | true =>
              rw [hreturned w.stored hstored (hgoes hnoted)]
              by_cases hsame : w.stored.status.currentRules = di.ingestion.rules
              · simp [hsame]
              · simp [hsame]
          | false =>
              obtain ⟨e, hres⟩ := hfails hnoted
              rw [heldRules_bind_error (noRules_updateCompactionStatus di) hres]
              simp

theorem sentRules_of_noted {di : DruidIngestion} {current : Option (List RawExtension)}
    (h : noteRules di.ingestion.rules current ≠ di.ingestion.rules) : sentRules di = none := by
  have hempty : di.ingestion.rules.getD [] = [] := by
    by_contra hne
    refine h (noteRules_eq_iff.2 ⟨fun hrules => ?_, fun hrules => ?_⟩)
    · exact absurd (by rw [hrules]; rfl) hne
    · exact absurd (by rw [hrules]; rfl) hne
  rw [sentRules, if_pos hempty]

/-- **What a reconcile leaves.** The rules held are those sent, if it gets to them. -/
theorem heldRules_createOrUpdate (hsource : getDataSource w.stored = .ok dataSource)
    (hok : AllOk (talk env (createOrUpdate w.stored svcName) w)) :
    heldRules svcName dataSource before (talk env (createOrUpdate w.stored svcName) w) =
      if getsToRules env w svcName then (sentRules w.stored).or before else before := by
  unfold createOrUpdate at hok ⊢
  cases hspec : getSpecJson w.stored with
  | error e =>
      rw [getsToRules, hspec]
      rfl
  | ok text =>
      simp only [hspec, orReturn_ok, ret_bind] at hok ⊢
      by_cases hfresh : isFresh w.stored = true
      · rw [if_pos (of_decide_eq_true hfresh)] at hok ⊢
        exact heldRules_createTask hspec hsource hok hfresh
      · rw [if_neg (of_decide_eq_false (Bool.eq_false_iff.2 hfresh))] at hok ⊢
        simp only [getsToRules, hspec, hfresh, Bool.false_eq_true, if_false]
        cases hequal : isEqualJson w.stored.status.currentIngestionSpec text with
        | error e =>
            rw [heldRules_bind_error (noRules_updateSpec hspec) (e := .error e)
              (by simp [updateSpec, hspec, hequal])]
            simp
        | ok same =>
            cases same with
            | true =>
                have hrun : exec (serve env) (updateSpec w.stored svcName text) w =
                    ⟨.ok w.stored, w, []⟩ := updateSpec_same hspec hequal
                have hres := congrArg Outcome.res hrun
                have hrest := hok.mono (talk_bind_right hres)
                rw [heldRules_bind_ok (noRules_updateSpec hspec) hres]
                rw [congrArg Outcome.state hrun] at hrest ⊢
                rw [heldRules_updateRest hspec hsource rfl hrest]
                cases compactionFound env w.stored svcName with
                | none => simp
                | some found => cases found <;> simp [and_comm]
            | false =>
                obtain ⟨hgoes, hfails⟩ :=
                  updateSpec_changed hspec (hok.mono (talk_bind_left _)) hequal
                cases hnew : newTask env w.stored svcName text && noted env w.calls with
                | false =>
                    obtain ⟨e, hres⟩ := hfails hnew
                    rw [heldRules_bind_error (noRules_updateSpec hspec) hres]
                    cases compactionFound env w.stored svcName with
                    | none => simp
                    | some found => cases found <;> simp
                | true =>
                    obtain ⟨hres, hing, hrules⟩ := hgoes hnew
                    have hrest := hok.mono (talk_bind_right hres)
                    rw [heldRules_bind_ok (noRules_updateSpec hspec) hres,
                      heldRules_updateRest hspec hsource hing hrest, hrules]
                    cases compactionFound env w.stored svcName with
                    | none => simp
                    | some found =>
                        cases found with
                        | true => simp
                        | false =>
                            -- the rules were noted with the spec, or there are none to send
                            by_cases hsame : noteRules w.stored.ingestion.rules
                                w.stored.status.currentRules = w.stored.ingestion.rules
                            · simp [hsame]
                            · simp [sentRules_of_noted hsame]

theorem holdsCurrent_sent {di : DruidIngestion} {rules : List Json}
    (h : sentRules di = some rules) :
    HoldsCurrent di (some rules) := by
  intro rules' heq
  cases heq
  unfold sentRules at h
  split_ifs at h
  cases hread : unmarshalRules (di.ingestion.rules.getD []) with
  | error e =>
      rw [hread] at h
      cases h
  | ok rs =>
      rw [hread] at h
      cases h
      rfl

/-- **The rules held.** After a reconcile whose exchanges were all answered 200 the rules that Druid
holds for the data source, if it ever got any, are those of the object exactly if the reconcile sent
them, or if that was so before. -/
theorem rules_current_iff (hsource : getDataSource w.stored = .ok dataSource)
    (hok : AllOk (talk env (createOrUpdate w.stored svcName) w)) (before : Option (List Json)) :
    HoldsCurrent w.stored
        (heldRules svcName dataSource before (talk env (createOrUpdate w.stored svcName) w)) ↔
      sendsRules env w svcName = true ∨ HoldsCurrent w.stored before := by
  rw [heldRules_createOrUpdate hsource hok, sendsRules]
  cases getsToRules env w svcName with
  | false => simp
  | true =>
      cases hsent : sentRules w.stored with
      | none => simp
      | some rules => simpa using holdsCurrent_sent hsent

end Whole

theorem rules_current_wiki :
    AllOk (talk (acceptingEnv 200) (createOrUpdate ruledWiki routerUrl) ⟨ruledWiki, [], 0⟩) ∧
    sendsRules (acceptingEnv 200) ⟨ruledWiki, [], 0⟩ routerUrl = true ∧
    (HoldsCurrent ruledWiki (heldRules routerUrl "w" none (talk (acceptingEnv 200)
        (createOrUpdate ruledWiki routerUrl) ⟨ruledWiki, [], 0⟩)) ↔
      sendsRules (acceptingEnv 200) ⟨ruledWiki, [], 0⟩ routerUrl = true ∨
        HoldsCurrent ruledWiki none) := by
  obtain ⟨hsource, hok, hsends⟩ : getDataSource ruledWiki = .ok "w" ∧
      (∀ e ∈ talk (acceptingEnv 200) (createOrUpdate ruledWiki routerUrl) ⟨ruledWiki, [], 0⟩,
        e.isOk = true) ∧
      sendsRules (acceptingEnv 200) ⟨ruledWiki, [], 0⟩ routerUrl = true := by decide +kernel
  exact ⟨hok, hsends, rules_current_iff (w := ⟨ruledWiki, [], 0⟩) hsource hok none⟩

/-- The rules are taken out of the object after they were sent. Nothing is sent, Druid holds them
still, and the status says that there are none. -/
theorem removed_rules_held :
    let w := run step ⟨ruledWiki, [], 0⟩ [.reconcile routerUrl (acceptingEnv 200),
      .edit { ruledWiki.ingestion with rules := none }]
    let before := heldRules routerUrl "w" none w.log
    getDataSource w.stored = .ok "w" ∧
    AllOk (talk (acceptingEnv 200) (createOrUpdate w.stored routerUrl) w) ∧
    before = some [.obj [("type", .str "loadForever")]] ∧
    heldRules routerUrl "w" before
      (talk (acceptingEnv 200) (createOrUpdate w.stored routerUrl) w) = before ∧
    ¬ HoldsCurrent w.stored before ∧
    (reconcile w routerUrl (acceptingEnv 200)).stored.status.currentRules = none := by
  intro w before
  obtain ⟨hsource, hok, hbefore, hafter, hrules, hnoted⟩ : getDataSource w.stored = .ok "w" ∧
      (∀ e ∈ talk (acceptingEnv 200) (createOrUpdate w.stored routerUrl) w, e.isOk = true) ∧
      before = some [.obj [("type", .str "loadForever")]] ∧
      heldRules routerUrl "w" before
        (talk (acceptingEnv 200) (createOrUpdate w.stored routerUrl) w) = before ∧
      unmarshalRules (w.stored.ingestion.rules.getD []) = .ok [] ∧
      (reconcile w routerUrl (acceptingEnv 200)).stored.status.currentRules = none := by
    decide +kernel
  exact ⟨hsource, hok, hbefore, hafter,
    fun hholds => (by cases hrules.symm.trans (hholds _ hbefore)), hnoted⟩

end DruidOperator.Ingestion
