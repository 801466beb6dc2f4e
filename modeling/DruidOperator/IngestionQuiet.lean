import DruidOperator.IngestionProof

/-!
# Reconciles that leave the status alone

A reconcile of the ingestion controller talks to Druid first and patches the status only if that
changed something. The predicates of this file say from the object and Druid's answers which
patches there are, and the triples that the parts without a patch only talk to Druid: they keep
every invariant that Druid's answers keep.
-/

namespace DruidOperator.Ingestion

open Interaction Prog DruidApi Triple

/-! ## What the answers decide -/

/-- Druid accepts a spec that differs from the remembered one, and names its task. -/
def acceptsSpec (env : Env) (di : DruidIngestion) (svcName text : String) : Bool :=
  decide (Submits di svcName text) && (submission env di svcName text).isOk &&
    (submission env di svcName text).hasTaskId

/-- The reconcile patches the status for an accepted spec or for new compaction settings, both of
which come before the rules. -/
def notesEarly (env : Env) (di : DruidIngestion) (svcName : String) : Bool :=
  match getSpecJson di with
  | .error _ => false
  | .ok text => !isFresh di && (acceptsSpec env di svcName text ||
      decide (compactionOutcome env di svcName = .ok true))

/-- The reconcile patches the status after the rules. -/
def notesRules (env : Env) (di : DruidIngestion) (svcName : String) : Bool :=
  match getSpecJson di with
  | .error _ => false
  | .ok text =>
      if isFresh di then completes env di svcName text
      else decide (di.status.currentRules ≠ di.ingestion.rules) &&
        decide (rulesOutcome env di svcName = .ok true)

/-! ## Talking to Druid -/

/-- Requests to Druid. -/
def ToDruid : Req → Prop
  | .http .. => True
  | _ => False

theorem toDruid_httpDo (method : Method) (url body : String) :
    (httpDo method url body).Uses ToDruid := uses_httpDo trivial

theorem toDruid_updateRules (di : DruidIngestion) (svcName : String) :
    (updateRules di svcName).Uses ToDruid := uses_updateRules di svcName fun _ _ => trivial

/-- The rules step says no only by an error. -/
theorem yields_updateRules (di : DruidIngestion) (svcName : String) :
    (updateRules di svcName).Yields (· = true) := by
  unfold updateRules
  split_ifs
  · rfl
  · refine (yields_true _).bind fun _ _ => (yields_true _).bind fun _ _ =>
      (yields_true _).bind fun resp _ => ?_
    split_ifs
    · rfl
    · trivial

theorem toDruid_updateCompaction (di : DruidIngestion) (svcName : String) :
    (updateCompaction di svcName).Uses ToDruid :=
  uses_updateCompaction di (fun _ => trivial) fun _ _ _ => trivial

/-- Druid answers as `env` says, and its answers keep `I` and meet `G`. -/
structure Talking (h : Handler sig World) (env : Env) (I : World → Prop)
    (G : Step sig World → Prop) : Prop where
  answer : ∀ method url body w, (h (.http method url body) w).1 = env.druid method url body
  keeps : ∀ method url body w, I w → I (h (.http method url body) w).2
  meets : ∀ method url body w answer, I w → G ⟨w, .http method url body, answer⟩

section Talking

variable {h : Handler sig World} {env : Env} {I : World → Prop} {G : Step sig World → Prop}
  {di : DruidIngestion} {svcName text : String}

theorem Talking.triple (ht : Talking h env I G) {α : Type} {p : IngestM α} (hp : p.Uses ToDruid) :
    Triple h I p (fun _ => I) G := by
  refine Triple.ofUses (hp.mono fun r hr w hw => ?_)
  cases r with
  | http method url body => exact ⟨ht.keeps method url body w hw, ht.meets method url body w _ hw⟩
  | _ => exact hr.elim

/-- What Druid's answers decide, they decide for every server behind it. -/
theorem Talking.res_eq (ht : Talking h env I G) {α : Type} {p : IngestM α} (hp : p.Uses ToDruid)
    (w : World) : (exec h p w).res = (exec (druidOnly env) p ()).res := by
  refine exec_res_congr (hp.mono fun r hr s t => ?_) w ()
  cases r with
  | http method url body => exact ht.answer method url body s
  | _ => exact hr.elim

theorem Talking.outcome (ht : Talking h env I G) {α : Type} {p : IngestM α} (hp : p.Uses ToDruid) :
    Triple h I p (fun x w => I w ∧ x = (exec (druidOnly env) p ()).res) G := by
  intro w hw
  obtain ⟨hw', hsteps⟩ := ht.triple hp w hw
  exact ⟨⟨hw', ht.res_eq hp w⟩, hsteps⟩

theorem Talking.bind (ht : Talking h env I G) {α β : Type} {p : IngestM α} (hp : p.Uses ToDruid)
    {f : α → IngestM β} {Q : Except Exit β → World → Prop} (hQ : ∀ e w, I w → Q (.error e) w)
    (hf : ∀ a, (exec (druidOnly env) p ()).res = .ok a → Triple h I (f a) Q G) :
    Triple h I (p >>= f) Q G := by
  refine Triple.bind (M := fun a w => I w ∧ (exec (druidOnly env) p ()).res = .ok a) ?_ ?_
  · refine (ht.outcome hp).conseq (fun _ hw => hw) (fun x w hw => ?_) fun _ he => he
    cases x with
    | error e => exact hQ e w hw.1
    | ok a => exact ⟨hw.1, hw.2.symm⟩
  · rintro a w ⟨hw, ha⟩
    exact hf a ha w hw

/-- The answer `httpDo` returns is Druid's. -/
theorem druidOnly_httpDo {method : Method} {url body : String} {resp : Response}
    (hres : (exec (druidOnly env) (httpDo method url body) ()).res = .ok resp) :
    env.druid method url body = .ok resp := by
  unfold httpDo DruidApi.httpDo at hres
  split_ifs at hres
  · cases hres
  · simp only [request, call_bind, ret_bind, exec_call, druidOnly] at hres
    cases hans : env.druid method url body with
    | error e =>
        rw [hans] at hres
        cases hres
    | ok r =>
        rw [hans] at hres
        cases hres
        rfl

theorem Talking.createTask (ht : Talking h env I G)
    (hnot : completes env di svcName text = false) :
    Triple h I (createTask di svcName text) (Returns I fun _ => False) G := by
  unfold Ingestion.createTask finishCreate
  refine ht.bind (toDruid_httpDo _ _ _) (fun _ _ hw => hw) fun resp hresp => ?_
  refine ht.bind (toDruid_updateCompaction _ _) (fun _ _ hw => hw) fun compactionOk hcomp => ?_
  refine ht.bind (toDruid_updateRules _ _) (fun _ _ hw => hw) fun rulesOk hrules => ?_
  cases hid : getTaskIdFromResponse resp.responseBody with
  | error e => exact Triple.exit fun _ hw => hw
  | ok taskId =>
      simp [completes, compactionOutcome, hcomp, rulesOutcome, hrules, Exchange.hasTaskId,
        submission, druidOnly_httpDo hresp, hid, Except.isOk, Except.toBool] at hnot

/-- A spec that is not accepted is not noted, and the reconcile goes on with the object it has. -/
theorem Talking.updateSpec (ht : Talking h env I G) (hspec : getSpecJson di = .ok text)
    (hnot : acceptsSpec env di svcName text = false) :
    Triple h I (updateSpec di svcName text) (Returns I (· = di)) G := by
  unfold Ingestion.updateSpec
  simp only [hspec, orReturn_ok, ret_bind]
  cases heq : isEqualJson di.status.currentIngestionSpec text with
  | error e => exact Triple.exit fun w hw => hw
  | ok same =>
      cases same with
      | true => exact Triple.ret fun w hw => ⟨hw, rfl⟩
      | false =>
          simp only [orReturn_ok, ret_bind, Bool.false_eq_true, if_false, httpDo, DruidApi.httpDo]
          split_ifs with hurl
          · exact Triple.exit fun w hw => hw
          simp only [request, call_bind, ret_bind]
          refine Triple.step (M := fun answer w => I w ∧ answer =
              env.druid .post (getPath di.ingestion.type svcName .post "" false) text)
            (fun w hw => ht.meets _ _ _ w _ hw)
            (fun w hw => ⟨ht.keeps _ _ _ w hw, ht.answer _ _ _ w⟩) fun answer => ?_
          cases answer with
          | error e => exact Triple.exit fun w hw => hw.1
          | ok resp =>
              simp only [orReturn_ok, ret_bind]
              split_ifs with hcode
              · cases hid : getTaskIdFromResponse resp.responseBody with
                | error e => exact Triple.exit fun w hw => hw.1
                | ok taskId =>
                    -- this is an accepted spec
                    rintro w ⟨-, hans⟩
                    have hsub : Submits di svcName text := ⟨hurl, .inr heq⟩
                    simp [acceptsSpec, hsub, submission, Exchange.isOk, Exchange.hasTaskId, ← hans,
                      hcode, hid, Except.isOk, Except.toBool] at hnot
              · exact Triple.ret fun w hw => ⟨hw.1, rfl⟩

theorem Talking.updateCompactionStatus (ht : Talking h env I G)
    (hnot : compactionOutcome env di svcName ≠ .ok true) :
    Triple h I (updateCompactionStatus di svcName) (Returns I (· = di)) G := by
  unfold Ingestion.updateCompactionStatus
  refine ht.bind (toDruid_updateCompaction _ _) (fun _ _ hw => hw) fun compactionOk hcomp => ?_
  cases compactionOk with
  | false => exact Triple.ret fun _ hw => ⟨hw, rfl⟩
  | true => exact absurd hcomp hnot

theorem Talking.updateRulesStatus (ht : Talking h env I G)
    (hnot : di.status.currentRules = di.ingestion.rules ∨ rulesOutcome env di svcName ≠ .ok true) :
    Triple h I (updateRulesStatus di svcName) (Returns I (· = di)) G := by
  unfold Ingestion.updateRulesStatus
  split_ifs with hsame
  · exact Triple.ret fun _ hw => ⟨hw, rfl⟩
  · refine ht.bind (toDruid_updateRules _ _) (fun _ _ hw => hw) fun rulesOk hrules => ?_
    cases rulesOk with
    | false => exact Triple.ret fun _ hw => ⟨hw, rfl⟩
    | true => exact absurd hrules (hnot.resolve_left hsame)

/-- The parts before the rules, where none of them notes anything. -/
theorem Talking.untilRules (ht : Talking h env I G) (hspec : getSpecJson di = .ok text)
    (hfresh : isFresh di = false) (hearly : notesEarly env di svcName = false)
    {Q : Except Exit (OperationResult × DruidIngestion) → World → Prop}
    (hQ : ∀ e w, I w → Q (.error e) w)
    (hrules : Triple h I (Ingestion.updateRulesStatus di svcName >>= fun di =>
      Prog.ret (OperationResult.updated, di)) Q G) :
    Triple h I (createOrUpdate di svcName) Q G := by
  simp only [notesEarly, hspec, hfresh, Bool.not_false, Bool.true_and, Bool.or_eq_false_iff,
    decide_eq_false_iff_not] at hearly
  have hfresh' : ¬ (di.status.taskId = "" ∧ di.status.currentIngestionSpec = "") := by
    simpa [isFresh] using hfresh
  unfold createOrUpdate
  simp only [hspec, orReturn_ok, ret_bind, if_neg hfresh']
  refine (ht.updateSpec hspec hearly.1).bindReturns hQ fun di₁ hdi₁ => ?_
  rw [hdi₁]
  refine (ht.updateCompactionStatus hearly.2).bindReturns hQ fun di₂ hdi₂ => ?_
  rw [hdi₂]
  exact hrules

/-- **A quiet reconcile.** A reconcile that notes nothing only talks to Druid, and what it returns
is the object it was given. -/
theorem Talking.createOrUpdate (ht : Talking h env I G)
    (hearly : notesEarly env di svcName = false) (hlate : notesRules env di svcName = false) :
    Triple h I (createOrUpdate di svcName) (Returns I fun y => y.2 = di) G := by
  cases hspec : getSpecJson di with
  | error e =>
      unfold Ingestion.createOrUpdate
      rw [hspec]
      exact Triple.exit fun _ hw => hw
  | ok text =>
      cases hfresh : isFresh di with
      | true =>
          unfold Ingestion.createOrUpdate
          simp only [hspec, orReturn_ok, ret_bind, if_pos (of_decide_eq_true hfresh)]
          have hnot : completes env di svcName text = false := by
            simpa [notesRules, hspec, hfresh] using hlate
          refine (ht.createTask hnot).conseq (fun _ hw => hw) (fun x w hx => ?_) fun _ he => he
          cases x with
          | error e => exact hx
          | ok y => exact hx.2.elim
      | false =>
          have hnot : di.status.currentRules = di.ingestion.rules ∨
              rulesOutcome env di svcName ≠ .ok true := by
            simpa [notesRules, hspec, hfresh, Decidable.imp_iff_not_or] using hlate
          refine ht.untilRules hspec hfresh hearly (fun _ _ hw => hw) ?_
          refine (ht.updateRulesStatus hnot).bindReturns (fun _ _ hw => hw) fun di' hdi' => ?_
          exact Triple.ret fun _ hw => ⟨hw, hdi'⟩

end Talking

/-! ## Patching the status -/

/-- Druid's answers keep `I` and meet `G`, and so does every patch of the status with a task id in
`T`, which Druid's own ids are; what is re-read for a patch is in `R`. -/
structure Patching {σ : Type} (h : Handler sig σ) (I : σ → Prop) (G : Step sig σ → Prop)
    (T : String → Prop) (R : DruidIngestion → Prop) : Prop where
  druid : ∀ {α : Type} {p : IngestM α}, p.Uses ToDruid → Triple h I p (fun _ => I) G
  patch : ∀ di taskId msg reason status type, T taskId → Triple h I
    (makePatchDruidIngestionStatus di taskId msg reason status type) (Returns I R) G
  started : ∀ resp taskId, getTaskIdFromResponse resp = .ok taskId → T taskId

namespace Patching

variable {σ : Type} {h : Handler sig σ} {I : σ → Prop} {G : Step sig σ → Prop} {T : String → Prop}
  {R : DruidIngestion → Prop} {di : DruidIngestion} {svcName specJson : String}

theorem talk (hp : Patching h I G T R) {α : Type} {p : IngestM α} (huses : p.Uses ToDruid) :
    Triple h I p (Returns I fun _ => True) G := (hp.druid huses).returns

theorem taskId (hp : Patching h I G T R) (resp : String) :
    Triple h I (orReturn (getTaskIdFromResponse resp) : IngestM String) (Returns I T) G :=
  (hp.druid (uses_orReturn _)).ofYields (yields_orReturn (hp.started resp))

theorem ret (hdi : R di) : Triple h I (.ret di : IngestM _) (Returns I R) G :=
  Triple.ret fun _ hw => ⟨hw, hdi⟩

theorem createTask (hp : Patching h I G T R) (di : DruidIngestion) (svcName specJson : String) :
    Triple h I (Ingestion.createTask di svcName specJson) (Returns I fun y => R y.2) G := by
  unfold Ingestion.createTask finishCreate
  refine (hp.talk (toDruid_httpDo _ _ _)).bindReturns (fun _ _ hw => hw) fun resp _ => ?_
  refine (hp.talk (toDruid_updateCompaction _ _)).bindReturns (fun _ _ hw => hw)
    fun compactionOk _ => ?_
  refine (hp.talk (toDruid_updateRules _ _)).bindReturns (fun _ _ hw => hw) fun rulesOk _ => ?_
  refine (hp.taskId _).bindReturns (fun _ _ hw => hw) fun taskId htask => ?_
  exact (hp.patch _ _ _ _ _ _ htask).bindReturns (fun _ _ hw => hw) fun di hdi =>
    Triple.ret fun w hw => ⟨hw, hdi⟩

theorem updateSpec (hp : Patching h I G T R) (hdi : R di) :
    Triple h I (Ingestion.updateSpec di svcName specJson) (Returns I R) G := by
  unfold Ingestion.updateSpec
  refine (hp.talk (uses_orReturn _)).bindReturns (fun _ _ hw => hw) fun text _ => ?_
  refine (hp.talk (uses_orReturn _)).bindReturns (fun _ _ hw => hw) fun ok _ => ?_
  split_ifs
  · exact ret hdi
  · refine (hp.talk (toDruid_httpDo _ _ _)).bindReturns (fun _ _ hw => hw) fun resp _ => ?_
    split_ifs
    · exact (hp.taskId _).bindReturns (fun _ _ hw => hw) fun taskId htask =>
        hp.patch _ _ _ _ _ _ htask
    · exact ret hdi

theorem updateCompactionStatus (hp : Patching h I G T R) (htask : T di.status.taskId) (hdi : R di) :
    Triple h I (Ingestion.updateCompactionStatus di svcName) (Returns I R) G := by
  unfold Ingestion.updateCompactionStatus
  refine (hp.talk (toDruid_updateCompaction _ _)).bindReturns (fun _ _ hw => hw) fun ok _ => ?_
  split_ifs
  · exact hp.patch _ _ _ _ _ _ htask
  · exact ret hdi

theorem updateRulesStatus (hp : Patching h I G T R) (htask : T di.status.taskId) (hdi : R di) :
    Triple h I (Ingestion.updateRulesStatus di svcName) (Returns I R) G := by
  unfold Ingestion.updateRulesStatus
  split_ifs
  · exact ret hdi
  · refine (hp.talk (toDruid_updateRules _ _)).bindReturns (fun _ _ hw => hw) fun ok _ => ?_
    split_ifs
    · exact hp.patch _ _ _ _ _ _ htask
    · exact ret hdi

theorem createFresh (hp : Patching h I G T R) (hfresh : isFresh di = true) (svcName : String) :
    Triple h I (Ingestion.createOrUpdate di svcName) (Returns I fun y => R y.2) G := by
  unfold Ingestion.createOrUpdate
  refine (hp.talk (uses_orReturn _)).bindReturns (fun _ _ hw => hw) fun specJson _ => ?_
  rw [if_pos (of_decide_eq_true hfresh)]
  exact hp.createTask di svcName specJson

/-- **A reconcile that may patch.** What Druid's answers and the patches keep, a reconcile keeps;
what holds of the object it was given and of every object that is re-read holds of the one it
returns. -/
theorem createOrUpdate (hp : Patching h I G T R) (htask : ∀ di, R di → T di.status.taskId)
    (hdi : R di) (svcName : String) :
    Triple h I (Ingestion.createOrUpdate di svcName) (Returns I fun y => R y.2) G := by
  cases hfresh : isFresh di with
  | true => exact hp.createFresh hfresh svcName
  | false =>
      unfold Ingestion.createOrUpdate
      refine (hp.talk (uses_orReturn _)).bindReturns (fun _ _ hw => hw) fun specJson _ => ?_
      rw [if_neg (of_decide_eq_false hfresh)]
      refine (hp.updateSpec hdi).bindReturns (fun _ _ hw => hw) fun di₁ hdi₁ => ?_
      refine (hp.updateCompactionStatus (htask _ hdi₁) hdi₁).bindReturns (fun _ _ hw => hw)
        fun di₂ hdi₂ => ?_
      exact (hp.updateRulesStatus (htask _ hdi₂) hdi₂).bindReturns (fun _ _ hw => hw)
        fun di₃ hdi₃ => Triple.ret fun w hw => ⟨hw, hdi₃⟩

end Patching

/-- A reconcile whose patches all keep `I`, whatever task they name. -/
theorem Talking.createOrUpdate_patching {h : Handler sig World} {env : Env} {I : World → Prop}
    {G : Step sig World → Prop} {di : DruidIngestion} {svcName : String} (ht : Talking h env I G)
    {R : DruidIngestion → Prop}
    (hpatch : ∀ di taskId msg reason status type, Triple h I
      (makePatchDruidIngestionStatus di taskId msg reason status type) (Returns I R) G)
    (hdi : R di) :
    Triple h I (Ingestion.createOrUpdate di svcName) (Returns I fun y => R y.2) G := by
  have hp : Patching h I G (fun _ => True) R :=
    ⟨ht.triple, fun di taskId msg reason status type _ => hpatch di taskId msg reason status type,
      fun _ _ _ => trivial⟩
  exact hp.createOrUpdate (fun _ _ => trivial) hdi svcName

theorem talking_serve (env : Env) (w : World) :
    Talking (serve env) env (fun w' => w'.stored = w.stored ∧ w'.calls = w.calls)
      fun _ => True where
  answer _ _ _ _ := rfl
  keeps _ _ _ _ hw := hw
  meets _ _ _ _ _ _ := trivial

theorem reconcile_quiet {w : World} {svcName : String} {env : Env}
    (hearly : notesEarly env w.stored svcName = false)
    (hlate : notesRules env w.stored svcName = false) :
    (reconcile w svcName env).stored = w.stored ∧ (reconcile w svcName env).calls = w.calls :=
  ((talking_serve env w).createOrUpdate hearly hlate w ⟨rfl, rfl⟩).1.invariant

/-! ## Exchanges -/

/-- The exchange of a step, if it is one with Druid. -/
def exchangeOf (env : Env) (e : Step sig World) : Option Exchange :=
  match e.req with
  | .http method url body => some ⟨method, url, body, env.druid method url body⟩
  | _ => none

/-- The log grows by the exchanges of the steps. -/
theorem log_eq_steps {α : Type} (env : Env) (p : IngestM α) (w : World) :
    (exec (serve env) p w).state.log =
      w.log ++ (exec (serve env) p w).steps.filterMap (exchangeOf env) := by
  induction p generalizing w with
  | ret a => simp
  | exit e => simp
  | call r k ih =>
      rw [exec_call]
      dsimp only
      rw [ih]
      cases r with
      | http method url body => simp [serve, exchangeOf]
      | get ns name =>
          simp only [serve, exchangeOf]
          split <;> rfl
      | patchStatus base modified =>
          simp only [serve, exchangeOf]
          split <;> rfl
      | now => rfl

theorem mem_exchanges {w : World} {svcName : String} {env : Env} {method : Method}
    {url body : String} {e : Step sig World}
    (he : e ∈ (exec (serve env) (createOrUpdate w.stored svcName) w).steps)
    (hreq : e.req = .http method url body) :
    ⟨method, url, body, env.druid method url body⟩ ∈ exchanges w svcName env := by
  unfold exchanges reconcile
  rw [log_eq_steps, List.drop_left]
  refine List.mem_filterMap.2 ⟨e, he, ?_⟩
  rw [exchangeOf, hreq]

/-! ## Exchanges of a program -/

section Talk

variable {α β : Type} {env : Env} {p : IngestM α} {f : α → IngestM β} {w : World}

/-- The exchanges of a program with Druid. -/
def talk (env : Env) (p : IngestM α) (w : World) : List Exchange :=
  (exec (serve env) p w).steps.filterMap (exchangeOf env)

theorem talk_bind_left (f : α → IngestM β) : talk env p w ⊆ talk env (p >>= f) w :=
  List.filterMap_subset _ (exec_bind_begins p f w).subset

theorem talk_bind_ok {a : α} (hres : (exec (serve env) p w).res = .ok a) :
    talk env (p >>= f) w = talk env p w ++ talk env (f a) (exec (serve env) p w).state := by
  unfold talk
  rw [exec_bind_ok hres, List.filterMap_append]

theorem talk_bind_right {a : α} (hres : (exec (serve env) p w).res = .ok a) :
    talk env (f a) (exec (serve env) p w).state ⊆ talk env (p >>= f) w := by
  rw [talk_bind_ok hres]
  exact List.subset_append_right _ _

theorem answer_of_mem_talk {e : Exchange} (he : e ∈ talk env p w) :
    e.answer = env.druid e.method e.url e.body := by
  obtain ⟨s, -, hs⟩ := List.mem_filterMap.1 he
  unfold exchangeOf at hs
  split at hs
  · cases hs
    rfl
  · cases hs

theorem talk_httpDo (method : Method) {url : String} (hurl : url ≠ "") (body : String) :
    talk env (httpDo method url body) w = [⟨method, url, body, env.druid method url body⟩] := by
  unfold talk
  simp only [httpDo, DruidApi.httpDo, if_neg hurl, request, call_bind, ret_bind, exec_call, serve]
  cases hans : env.druid method url body with
  | error e => simp [exchangeOf, hans]
  | ok resp => simp [exchangeOf, hans]

theorem httpDo_returned {method : Method} {url body : String} {resp : Response} (hurl : url ≠ "")
    (hres : (exec (serve env) (httpDo method url body) w).res = .ok resp) :
    env.druid method url body = .ok resp ∧
      (⟨method, url, body, .ok resp⟩ : Exchange) ∈ talk env (httpDo method url body) w := by
  have hans : env.druid method url body = .ok resp := by
    rw [(exec_httpDo method hurl body env w).2] at hres
    cases h : env.druid method url body with
    | error e =>
        rw [h] at hres
        cases hres
    | ok resp' =>
        rw [h] at hres
        cases hres
        rfl
  refine ⟨hans, ?_⟩
  rw [talk_httpDo method hurl, hans]
  exact List.mem_singleton_self _

end Talk

end DruidOperator.Ingestion
