import DruidOperator.IngestionQuiet

/-!
# The task the status names

A reconcile that submits a changed spec may patch the status three times. The first patch stores
the id of the new task; the ones for the compaction and the rules store the id of the object in
memory, and `patchStatus` has overwritten that object with the state *before* the patch. So the
second patch puts the old id back, and the third the new one.
-/

namespace DruidOperator.Ingestion

open Interaction Prog DruidApi Runs

/-! ## Which patches follow -/

/-- What a patch leaves in `currentRules`. -/
def notedRules (di : DruidIngestion) : Option (List RawExtension) :=
  mergeField (omitEmpty di.status.currentRules) (omitEmpty di.ingestion.rules)
    di.status.currentRules

/-- The rules differ from the remembered ones, and Druid accepts them. -/
def patchesRules (env : Env) (di : DruidIngestion) (svcName : String)
    (remembered : Option (List RawExtension)) : Bool :=
  decide (remembered ≠ di.ingestion.rules) && decide (rulesOutcome env di svcName = .ok true)

/-- The patches after the one for the spec cancel out: either there is none, or both the
compaction and the rules were patched. -/
def patchesCancel (env : Env) (di : DruidIngestion) (svcName : String) : Bool :=
  match compactionOutcome env di svcName with
  | .error _ => true
  | .ok true => patchesRules env di svcName (notedRules di)
  | .ok false => !patchesRules env di svcName di.status.currentRules

/-- The new task `t` is not forgotten. A first submission has to get through the compaction and the
rules; later ones must not be followed by a single patch, unless the task is still the old one. -/
def tracksTask (env : Env) (di : DruidIngestion) (svcName text t : String) : Bool :=
  if isFresh di then completes env di svcName text
  else decide (di.status.taskId = t) || patchesCancel env di svcName

/-! ## The parts of a reconcile -/

section Parts

variable {env : Env} {di : DruidIngestion} {svcName text : String}

theorem rulesOutcome_congr {di' : DruidIngestion} (h : di'.ingestion = di.ingestion) :
    rulesOutcome env di' svcName = rulesOutcome env di svcName := by
  have hds : getDataSource di' = getDataSource di := by simp only [getDataSource, getSpec, h]
  have hrules : getRulesJson di' = getRulesJson di := by simp only [getRulesJson, getRules, h]
  simp only [rulesOutcome, updateRules, hds, hrules, h]

/-- A part that only talks to Druid ends as Druid's answers say, and leaves the object alone. -/
theorem exec_toDruid (env : Env) {α : Type} {p : IngestM α} (hp : p.Uses ToDruid) (w : World) :
    (exec (serve env) p w).res = (exec (druidOnly env) p ()).res ∧
      (exec (serve env) p w).state.stored = w.stored := by
  obtain ⟨⟨⟨hstored, -⟩, hres⟩, -⟩ := (talking_serve env w).outcome hp w ⟨rfl, rfl⟩
  exact ⟨hres, hstored⟩

theorem exec_makePatch_ok (hkube : ∀ n, env.kube n = none) (hspec : getSpecJson di = .ok text)
    (taskId msg reason : String) (status : ConditionStatus) (type : String) (w : World) :
    let o := exec (serve env) (makePatchDruidIngestionStatus di taskId msg reason status type) w
    o.res = .ok w.stored ∧ o.state.stored.ingestion = w.stored.ingestion ∧
      o.state.stored.status.taskId = taskId ∧
      o.state.stored.status.currentRules = notedRules w.stored := by
  simp only [makePatchDruidIngestionStatus, hspec, orReturn_ok, ret_bind]
  obtain ⟨-, ⟨-, hres, hstored⟩ | ⟨hfails, -⟩⟩ := exec_patchStatus di _ env w
  · refine ⟨hres, ?_, ?_, ?_⟩
    · rw [hstored]
    · rw [hstored]
      simp [applyStatusPatch]
    · rw [hstored]
      rfl
  · obtain ⟨n, hn⟩ := exists_fault_of_not_noted hfails
    exact absurd (hkube n) hn

theorem taskId_updateRulesStatus (hkube : ∀ n, env.kube n = none)
    (hspec : getSpecJson di = .ok text) (w : World) :
    (exec (serve env) (updateRulesStatus di svcName) w).state.stored.status.taskId =
      if patchesRules env di svcName di.status.currentRules then di.status.taskId
      else w.stored.status.taskId := by
  obtain ⟨hres, hstored⟩ := exec_toDruid env (toDruid_updateRules di svcName) w
  unfold updateRulesStatus patchesRules
  by_cases hsame : di.status.currentRules = di.ingestion.rules
  · simp [hsame]
  · rw [if_neg hsame]
    cases hout : rulesOutcome env di svcName with
    | error e =>
        rw [exec_bind_error (hres.trans hout)]
        simp [hstored]
    | ok rulesOk =>
        rw [exec_bind_ok (hres.trans hout)]
        cases rulesOk with
        | false => simp [hstored]
        | true =>
            simp only [if_true, hsame, ne_eq, not_false_eq_true, decide_true, Bool.and_self]
            exact (exec_makePatch_ok hkube hspec ..).2.2.1

/-- The compaction step: the object the caller goes on with is the one read before the patch. -/
theorem exec_updateCompactionStatus_ok (hkube : ∀ n, env.kube n = none)
    (hspec : getSpecJson di = .ok text) (svcName : String) (w : World) :
    let o := exec (serve env) (updateCompactionStatus di svcName) w
    match compactionOutcome env di svcName with
    | .error e => o.res = .error e ∧ o.state.stored = w.stored
    | .ok false => o.res = .ok di ∧ o.state.stored = w.stored
    | .ok true => o.res = .ok w.stored ∧ o.state.stored.status.taskId = di.status.taskId := by
  obtain ⟨hres, hstored⟩ := exec_toDruid env (toDruid_updateCompaction di svcName) w
  unfold updateCompactionStatus
  cases hout : compactionOutcome env di svcName with
  | error e =>
      rw [exec_bind_error (hres.trans hout)]
      exact ⟨rfl, hstored⟩
  | ok changed =>
      rw [exec_bind_ok (hres.trans hout)]
      cases changed with
      | false => exact ⟨rfl, hstored⟩
      | true =>
          obtain ⟨hok, -, htask, -⟩ := exec_makePatch_ok hkube hspec di.status.taskId updateSuccess
            "compaction updated" .true updateSuccess
            (exec (serve env) (updateCompaction di svcName) w).state
          exact ⟨hok.trans (by rw [hstored]), htask⟩

/-- What follows the patch for the spec. The object in memory is still the one before it: `before`
is stored with its ingestion, and the patched object `w.stored` names the new task. -/
theorem taskId_after_patch (hkube : ∀ n, env.kube n = none) (hspec : getSpecJson di = .ok text)
    {w : World} {t : String} (hing : w.stored.ingestion = di.ingestion)
    (htask : w.stored.status.taskId = t) (hrules : w.stored.status.currentRules = notedRules di) :
    (exec (serve env) (updateCompactionStatus di svcName >>= fun di =>
      updateRulesStatus di svcName >>= fun di =>
        Prog.ret (OperationResult.updated, di)) w).state.stored.status.taskId = t ↔
      di.status.taskId = t ∨ patchesCancel env di svcName = true := by
  have hcomp := exec_updateCompactionStatus_ok hkube hspec svcName w
  unfold patchesCancel
  cases hout : compactionOutcome env di svcName with
  | error e =>
      rw [hout] at hcomp
      rw [exec_bind_error hcomp.1, hcomp.2]
      simp [htask]
  | ok changed =>
      cases changed with
      | false =>
          rw [hout] at hcomp
          rw [exec_bind_ok hcomp.1, exec_bind_pure_state, taskId_updateRulesStatus hkube hspec,
            hcomp.2]
          by_cases hp : patchesRules env di svcName di.status.currentRules = true
          · simp [hp]
          · simp [hp, htask]
      | true =>
          rw [hout] at hcomp
          have hspec' : getSpecJson w.stored = .ok text := (getSpecJson_congr hing).trans hspec
          have hp : patchesRules env w.stored svcName w.stored.status.currentRules =
              patchesRules env di svcName (notedRules di) := by
            simp only [patchesRules, hing, hrules, rulesOutcome_congr hing]
          rw [exec_bind_ok hcomp.1, exec_bind_pure_state, taskId_updateRulesStatus hkube hspec',
            hcomp.2,
            hp]
          by_cases hp' : patchesRules env di svcName (notedRules di) = true
          · simp [hp', htask]
          · simp [hp']

/-- Druid takes the submission of `text` with a 200 and names the task `t`. -/
structure StartsTask (env : Env) (di : DruidIngestion) (svcName text t : String) : Prop where
  spec : getSpecJson di = .ok text
  submits : Submits di svcName text
  answer : ∃ resp, env.druid .post
    (getPath di.ingestion.type svcName .post "" false) text = .ok resp ∧
    resp.statusCode = 200 ∧ getTaskIdFromResponse resp.responseBody = .ok t

/-- An accepted spec is patched into the status with its task. -/
theorem exec_updateSpec_accepted (hkube : ∀ n, env.kube n = none) {t : String}
    (hstarts : StartsTask env di svcName text t) (hfresh : isFresh di = false) (w : World) :
    let o := exec (serve env) (updateSpec di svcName text) w
    o.res = .ok w.stored ∧ o.state.stored.ingestion = w.stored.ingestion ∧
      o.state.stored.status.taskId = t ∧
      o.state.stored.status.currentRules = notedRules w.stored := by
  obtain ⟨hspec, ⟨hurl, hdiffers⟩, resp, hans, hcode, hid⟩ := hstarts
  rw [hfresh] at hdiffers
  have heq := hdiffers.resolve_left Bool.false_ne_true
  obtain ⟨hstate, hres⟩ := exec_httpDo .post hurl text env w
  rw [hans] at hres
  unfold updateSpec
  simp only [hspec, orReturn_ok, ret_bind, heq, Bool.false_eq_true, if_false]
  rw [exec_bind_ok hres, hstate]
  simp only [hcode, if_true, hid, orReturn_ok, ret_bind]
  exact exec_makePatch_ok hkube hspec ..

/-- A first submission is remembered with its task if the compaction and the rules get through. -/
theorem taskId_createTask (hkube : ∀ n, env.kube n = none) {t : String}
    (hstarts : StartsTask env di svcName text t) (w : World) :
    (exec (serve env) (createTask di svcName text) w).state.stored.status.taskId =
      if completes env di svcName text then t else w.stored.status.taskId := by
  obtain ⟨hspec, ⟨hurl, -⟩, resp, hans, -, hid⟩ := hstarts
  obtain ⟨hstate, hres⟩ := exec_httpDo .post hurl text env w
  rw [hans] at hres
  have hhas : (submission env di svcName text).hasTaskId = true := by
    simp [submission, Exchange.hasTaskId, hans, hid, Except.isOk, Except.toBool]
  unfold createTask
  rw [exec_bind_ok hres, hstate]
  dsimp only
  set w₁ := w.record ⟨.post, getPath di.ingestion.type svcName .post "" false, text, _⟩
  obtain ⟨hcres, hcstored⟩ := exec_toDruid env (toDruid_updateCompaction di svcName) w₁
  unfold finishCreate completes
  cases hcomp : compactionOutcome env di svcName with
  | error e =>
      rw [exec_bind_error (hcres.trans hcomp), hcstored]
      rfl
  | ok compactionOk =>
      rw [exec_bind_ok (hcres.trans hcomp)]
      dsimp only
      set w₂ := (exec (serve env) (updateCompaction di svcName) w₁).state
      obtain ⟨hrres, hrstored⟩ := exec_toDruid env (toDruid_updateRules di svcName) w₂
      cases hrules : rulesOutcome env di svcName with
      | error e =>
          rw [exec_bind_error (hrres.trans hrules), hrstored, hcstored]
          rfl
      | ok rulesOk =>
          rw [exec_bind_ok (hrres.trans hrules)]
          simp only [hid, orReturn_ok, ret_bind, pure_eq, exec_bind_pure_state, hhas]
          exact (exec_makePatch_ok hkube hspec ..).2.2.1

end Parts

theorem getTaskIdFromResponse_ne_empty {resp t : String} (h : getTaskIdFromResponse resp = .ok t) :
    t ≠ "" := by
  unfold getTaskIdFromResponse at h
  split at h
  · cases h
  · split_ifs at h with htask hid
    · cases h
      exact htask
    · cases h
      exact hid

/-- **The status names the live task.** A reconcile whose submission starts the task `t`, with
every Kubernetes request served: the status names `t` at the end exactly if the patches that follow
the first one cancel out, or the task has not changed. -/
theorem task_tracked_iff {w : World} {env : Env} {svcName text t : String}
    (hkube : ∀ n, env.kube n = none) (hstarts : StartsTask env w.stored svcName text t) :
    (reconcile w svcName env).stored.status.taskId = t ↔
      tracksTask env w.stored svcName text t = true := by
  obtain ⟨resp, -, -, hid⟩ := hstarts.answer
  have hspec := hstarts.spec
  unfold reconcile createOrUpdate tracksTask
  cases hfresh : isFresh w.stored with
  | true =>
      have hempty := of_decide_eq_true hfresh
      simp only [hspec, orReturn_ok, ret_bind, if_pos hempty, if_true,
        taskId_createTask hkube hstarts]
      by_cases hc : completes env w.stored svcName text = true
      · simp [hc]
      · simp [hc, hempty.1, (getTaskIdFromResponse_ne_empty hid).symm]
  | false =>
      have hne := of_decide_eq_false hfresh
      obtain ⟨hres, hing, htask, hrules⟩ := exec_updateSpec_accepted hkube hstarts hfresh w
      simp only [hspec, orReturn_ok, ret_bind, if_neg hne]
      rw [exec_bind_ok hres]
      simpa using taskId_after_patch hkube hspec hing htask hrules

/-- A Druid that takes everything and starts the task `t`. -/
def startingEnv (t : String) : Env where
  druid := fun _ url _ =>
    .ok ⟨if isCreation url then "\x7b\"task\":\"" ++ t ++ "\"\x7d" else "\x7b\x7d", 200⟩

theorem task_tracked_wiki :
    (reconcile ⟨wiki, [], 0⟩ routerUrl (startingEnv "index_1")).stored.status.taskId =
      "index_1" := by
  have hanswer : (startingEnv "index_1").druid .post
      (getPath wiki.ingestion.type routerUrl .post "" false) wikiText =
        .ok ⟨"\x7b\"task\":\"index_1\"\x7d", 200⟩ := by decide +kernel
  have hstarts : StartsTask (startingEnv "index_1") wiki routerUrl wikiText "index_1" :=
    ⟨by decide +kernel, by decide +kernel, _, hanswer, rfl, by decide +kernel⟩
  exact (task_tracked_iff (fun _ => rfl) hstarts).2 (by decide +kernel)

/-- The spec and the rules are edited together: Druid starts `index_2`, and the patch for the rules
puts `index_1` back. -/
theorem task_forgotten :
    let w := run step ⟨wiki, [], 0⟩ [.reconcile routerUrl (startingEnv "index_1"), .edit editedWiki]
    StartsTask (startingEnv "index_2") w.stored routerUrl editedText "index_2" ∧
      (reconcile w routerUrl (startingEnv "index_2")).stored.status.taskId = "index_1" := by
  intro w
  have hanswer : (startingEnv "index_2").druid .post
      (getPath editedWiki.type routerUrl .post "" false) editedText =
        .ok ⟨"\x7b\"task\":\"index_2\"\x7d", 200⟩ := by decide +kernel
  obtain ⟨hspec, hsub, hid, htask⟩ : getSpecJson w.stored = .ok editedText ∧
      Submits w.stored routerUrl editedText ∧
      getTaskIdFromResponse "\x7b\"task\":\"index_2\"\x7d" = .ok "index_2" ∧
      (reconcile w routerUrl (startingEnv "index_2")).stored.status.taskId = "index_1" := by
    decide +kernel
  exact ⟨⟨hspec, hsub, _, hanswer, rfl, hid⟩, htask⟩

end DruidOperator.Ingestion
