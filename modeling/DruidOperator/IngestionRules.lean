import DruidOperator.IngestionQuiet

/-!
# Retention rules the status remembers

The status remembers the rules that were last sent to Druid, and a reconcile sends the rules again
only if they differ from the remembered ones. But every patch of the status notes the rules of the
object as it is re-read, whatever the patch is for. So the rules may be noted before they are sent,
or newer ones than those that were sent.

This file lets users edit the rules between any two requests of a reconcile.

* `Safe` — what is remembered was accepted, and the stored rules are those the reconcile started
  with or were accepted before.
* `triple_createOrUpdate` — a reconcile that does not note its rules early keeps this at every step.
* `failed_rules_retried`, `edited_rules_sent` — runs without and with edits during a reconcile.
-/

namespace DruidOperator.Ingestion

open Interaction Prog DruidApi Runs

variable {di : DruidIngestion} {w : World} {svcName : String} {env : Env}

/-! ## Rules that were accepted -/

/-- The text that is sent for a list of rules. -/
def rulesText (rules : List RawExtension) : Except Error String :=
  (unmarshalRules rules).map fun rs => Json.toJsonString (.arr rs)

/-- The exchange sends the rules to the rules endpoint of some data source. -/
def Exchange.PostsRules (e : Exchange) (rules : List RawExtension) : Prop :=
  e.method = .post ∧
    (∃ svcName dataSource, e.url = makePath svcName "coordinator" "rules" [dataSource]) ∧
    rulesText rules = .ok e.body

/-- Druid has answered 200 to the rules. -/
def RulesAccepted (log : List Exchange) (rules : List RawExtension) : Prop :=
  ∃ e ∈ log, e.PostsRules rules ∧ e.isOk = true

/-- There are no rules, or Druid has accepted them. -/
def Recordable (log : List Exchange) (rules : Option (List RawExtension)) : Prop :=
  rules.getD [] ≠ [] → RulesAccepted log (rules.getD [])

theorem Recordable.mono {log log' : List Exchange} {rules : Option (List RawExtension)}
    (h : Recordable log rules) (hlog : log ⊆ log') : Recordable log' rules := by
  intro hne
  obtain ⟨e, he, hpost⟩ := h hne
  exact ⟨e, hlog he, hpost⟩

theorem recordable_omitEmpty {log : List Exchange} {rules : Option (List RawExtension)}
    (h : Recordable log rules) : Recordable log (omitEmpty rules) := by
  unfold omitEmpty
  split_ifs
  · exact fun hne => absurd rfl hne
  · exact h

/-- Non-empty rules are sent as one text. -/
theorem getRulesJson_eq (hne : di.ingestion.rules.getD [] ≠ []) :
    getRulesJson di = rulesText (di.ingestion.rules.getD []) := by
  unfold getRulesJson getRules rulesText
  rw [if_neg hne]
  cases unmarshalRules (di.ingestion.rules.getD []) <;> rfl

/-! ## Edits during a reconcile -/

/-- The rules users put in place just before the `n`-th Kubernetes request. -/
abbrev Edits := ℕ → Option (Option (List RawExtension))

/-- What is stored when the next request is served. -/
def World.edited (edits : Edits) (w : World) : World :=
  match edits w.calls with
  | some rules => { w with stored := { w.stored with
      ingestion := { w.stored.ingestion with rules := rules } } }
  | none => w

def serveEdited (edits : Edits) (env : Env) : Handler sig World :=
  fun r w => serve env r (w.edited edits)

theorem serveEdited_none (env : Env) : serveEdited (fun _ => none) env = serve env := rfl

/-- What the status remembers was accepted. -/
def RulesRemembered (w : World) : Prop := Recordable w.log w.stored.status.currentRules

/-- The invariant of a reconcile that starts with the exchanges `log` and the rules `rules`; `sent`
says that these rules may be noted by now. -/
structure Safe (sent : Bool) (log : List Exchange) (rules : Option (List RawExtension))
    (w : World) : Prop where
  remembered : RulesRemembered w
  log : log ⊆ w.log
  stored : w.stored.ingestion.rules = rules ∨ Recordable w.log w.stored.ingestion.rules
  sent : sent = true → Recordable w.log rules

/-- Every edit puts back the rules the reconcile started with, or rules that were accepted
before. -/
def Harmless (log : List Exchange) (rules : Option (List RawExtension)) (edits : Edits) : Prop :=
  ∀ n r, edits n = some r → r = rules ∨ Recordable log r

section Steps

variable {edits : Edits} {env : Env} {sent : Bool} {log : List Exchange}
  {rules : Option (List RawExtension)}

theorem Safe.edited (hw : Safe sent log rules w) (hedits : Harmless log rules edits) :
    Safe sent log rules (w.edited edits) := by
  unfold World.edited
  split
  · next r hr =>
      refine ⟨hw.remembered, hw.log, ?_, hw.sent⟩
      exact (hedits _ r hr).imp_right fun h => h.mono hw.log
  · exact hw

theorem subset_edited (w : World) : w.log ⊆ (w.edited edits).log := by
  unfold World.edited
  split <;> exact List.Subset.refl _

theorem Safe.record (hw : Safe sent log rules w) (e : Exchange) :
    Safe sent log rules (w.record e) where
  remembered := hw.remembered.mono (List.subset_append_left _ _)
  log := List.Subset.trans hw.log (List.subset_append_left _ _)
  stored := hw.stored.imp_right fun h => h.mono (List.subset_append_left _ _)
  sent h := (hw.sent h).mono (List.subset_append_left _ _)

theorem Safe.congr {w' : World} (hw : Safe sent log rules w) (hlog : w'.log = w.log)
    (hstored : w'.stored = w.stored) : Safe sent log rules w' := by
  refine ⟨?_, ?_, ?_, ?_⟩
  · rw [RulesRemembered, hlog, hstored]
    exact hw.remembered
  · rw [hlog]
    exact hw.log
  · rw [hlog, hstored]
    exact hw.stored
  · rw [hlog]
    exact hw.sent

/-- Rules that are stored while a reconcile may note its own are rules it may note. -/
theorem Safe.recordable (hw : Safe true log rules w) :
    Recordable w.log w.stored.ingestion.rules := by
  rcases hw.stored with heq | hrec
  · rw [heq]
    exact hw.sent rfl
  · exact hrec

/-! ## One request -/

theorem Safe.http (hw : Safe sent log rules w) (hedits : Harmless log rules edits) (env : Env)
    (method : Method) (url body : String) :
    Safe sent log rules (serveEdited edits env (.http method url body) w).2 :=
  (hw.edited hedits).record _

theorem Safe.now (hw : Safe sent log rules w) (hedits : Harmless log rules edits) :
    Safe sent log rules (serveEdited edits env .now w).2 := hw.edited hedits

theorem Safe.get (hw : Safe sent log rules w) (hedits : Harmless log rules edits) (env : Env)
    (ns name : String) :
    Safe sent log rules (serveEdited edits env (.get ns name) w).2 ∧
      ∀ obj, (serveEdited edits env (.get ns name) w).1 = .ok obj →
        obj = (serveEdited edits env (.get ns name) w).2.stored := by
  have hw' := hw.edited hedits
  cases hkube : env.kube (w.edited edits).calls with
  | some e =>
      simp only [serveEdited, serve, hkube]
      exact ⟨hw'.congr rfl rfl, fun obj h => by cases h⟩
  | none =>
      simp only [serveEdited, serve, hkube]
      exact ⟨hw'.congr rfl rfl, fun obj h => by cases h; rfl⟩

/-- A patch of the status notes the rules it carries, or leaves those that are noted. -/
theorem Safe.patch (hw : Safe sent log rules w) (hedits : Harmless log rules edits)
    {base modified : DruidIngestion} (hrules : Recordable w.log modified.status.currentRules) :
    Safe sent log rules (serveEdited edits env (.patchStatus base modified) w).2 := by
  have hw' := hw.edited hedits
  cases hkube : env.kube (w.edited edits).calls with
  | some e =>
      simp only [serveEdited, serve, hkube]
      exact hw'.congr rfl rfl
  | none =>
      simp only [serveEdited, serve, hkube]
      refine ⟨?_, hw'.log, hw'.stored, hw'.sent⟩
      show Recordable (w.edited edits).log (mergeField _ _ _)
      unfold mergeField
      split_ifs
      · exact hw'.remembered
      · exact recordable_omitEmpty (hrules.mono (subset_edited w))

/-! ## Parts of a reconcile -/

/-- From one state of the invariant to another, with nothing unaccepted remembered on the way. -/
def Keeps (edits : Edits) (env : Env) (P : World → Prop) {α : Type} (p : IngestM α)
    (Q : Except Exit α → World → Prop) : Prop :=
  Triple (serveEdited edits env) P p Q fun e => RulesRemembered e.pre

theorem talking_edited (hedits : Harmless log rules edits) :
    Talking (serveEdited edits env) env (Safe sent log rules) fun e => RulesRemembered e.pre where
  answer _ _ _ _ := rfl
  keeps method url body _ hw := hw.http hedits env method url body
  meets _ _ _ _ _ hw := hw.remembered

/-- Rules that `updateRules` returns from may be noted. -/
theorem keeps_updateRules (hdi : di.ingestion.rules = rules) (svcName : String)
    (hedits : Harmless log rules edits) :
    Keeps edits env (Safe sent log rules) (updateRules di svcName) fun
      | .ok _ => Safe true log rules
      | .error _ => Safe sent log rules := by
  unfold updateRules
  split_ifs with hempty
  · refine Triple.ret fun w hw => ⟨hw.remembered, hw.log, hw.stored, fun _ hne => ?_⟩
    exact absurd (hdi ▸ hempty) hne
  cases htext : getRulesJson di with
  | error e => exact Triple.exit fun w hw => hw
  | ok rulesData =>
      cases hds : getDataSource di with
      | error e => exact Triple.exit fun w hw => hw
      | ok dataSource =>
          have hurl := makePath_ne_empty svcName "coordinator" "rules" [dataSource]
          simp only [orReturn_ok, ret_bind, httpDo, DruidApi.httpDo, if_neg hurl,
            request, call_bind]
          refine Triple.call (fun w hw => hw.remembered) fun answer => ?_
          rintro w' ⟨w, hw, hserve⟩
          have hw' := hw.http hedits env .post
            (makePath svcName "coordinator" "rules" [dataSource]) rulesData
          rw [hserve] at hw'
          cases answer with
          | error e => exact ⟨hw', by simp⟩
          | ok resp =>
              simp only [orReturn_ok, ret_bind]
              split_ifs with hcode
              · refine ⟨⟨hw'.remembered, hw'.log, hw'.stored, fun _ _ => ?_⟩, by simp⟩
                obtain ⟨hans, rfl⟩ := Prod.mk.inj hserve
                refine ⟨_, List.mem_append_right _ List.mem_cons_self,
                  ⟨rfl, ⟨svcName, dataSource, rfl⟩, ?_⟩, ?_⟩
                · rw [← hdi, ← getRulesJson_eq hempty, htext]
                · simp [Exchange.isOk, hans, hcode]
              · exact ⟨hw', by simp [fail]⟩

/-- A patch of the status notes the rules that are stored when the object is re-read. -/
theorem keeps_makePatch (hedits : Harmless log rules edits) (di : DruidIngestion)
    (taskId msg reason : String) (status : ConditionStatus) (type : String) :
    Keeps edits env (Safe true log rules)
      (makePatchDruidIngestionStatus di taskId msg reason status type)
      fun _ => Safe true log rules := by
  unfold makePatchDruidIngestionStatus
  cases getSpecJson di with
  | error e => exact Triple.exit fun w hw => hw
  | ok text =>
      simp only [orReturn_ok, ret_bind, patchStatus, request, call_bind]
      -- the rules of the object that was read
      refine Triple.step (M := fun (answer : Except Error DruidIngestion) w =>
        Safe true log rules w ∧ ∀ obj, answer = .ok obj → Recordable w.log obj.ingestion.rules)
        (fun w hw => hw.remembered) (fun w hw => ?_) fun answer => ?_
      · obtain ⟨hw', hobj⟩ := hw.get hedits env di.ns di.name
        refine ⟨hw', fun obj h => ?_⟩
        rw [hobj obj h]
        exact hw'.recordable
      cases answer with
      | error e => exact Triple.exit fun w hw => hw.1
      | ok obj =>
          simp only [orReturn_ok, ret_bind]
          refine Triple.step (M := fun _ w => Safe true log rules w ∧
            Recordable w.log obj.ingestion.rules) (fun w hw => hw.1.remembered) (fun w hw => ?_)
            fun now => ?_
          · exact ⟨hw.1.now hedits, (hw.2 obj rfl).mono (subset_edited w)⟩
          · refine Triple.step (M := fun _ => Safe true log rules) (fun w hw => hw.1.remembered)
              (fun w hw => hw.1.patch hedits hw.2) fun answer => ?_
            cases answer with
            | error e => exact Triple.exit fun w hw => hw
            | ok u => exact Triple.ret fun w hw => hw

/-! ## A whole reconcile -/

/-- A reconcile whose rules were accepted before may note them at any time. -/
theorem keeps_createOrUpdate (hedits : Harmless log rules edits) (di : DruidIngestion)
    (svcName : String) :
    Keeps edits env (Safe true log rules) (createOrUpdate di svcName)
      fun _ => Safe true log rules := by
  refine ((talking_edited hedits).createOrUpdate_patching (R := fun _ => True)
    (fun di taskId msg reason status type => ?_) trivial).conseq (fun _ hw => hw)
      (fun _ _ hx => hx.invariant) fun _ he => he
  exact (keeps_makePatch hedits di taskId msg reason status type).returns

/-! ## Noting rules before they are sent -/

theorem Safe.weaken (hw : Safe sent log rules w) : Safe false log rules w :=
  ⟨hw.remembered, hw.log, hw.stored, fun h => by cases h⟩

/-- Sending the rules, and then noting them. -/
theorem keeps_updateRules_bind {α : Type} (hdi : di.ingestion.rules = rules) (svcName : String)
    (hedits : Harmless log rules edits) {f : Bool → IngestM α}
    (hf : ∀ rulesOk, Keeps edits env (Safe true log rules) (f rulesOk)
      fun _ => Safe true log rules) :
    Keeps edits env (Safe false log rules) (updateRules di svcName >>= f)
      fun _ => Safe false log rules := by
  refine Triple.bind (M := fun _ => Safe true log rules) ?_ fun rulesOk =>
    (hf rulesOk).conseq (fun _ hw => hw) (fun _ _ hw => hw.weaken) fun _ he => he
  refine (keeps_updateRules hdi svcName hedits).conseq (fun _ hw => hw) (fun x w hw => ?_)
    fun _ he => he
  cases x with
  | error e => exact hw
  | ok rulesOk => exact hw

theorem keeps_createTask (hedits : Harmless log rules edits) (hdi : di.ingestion.rules = rules)
    (svcName specJson : String) :
    Keeps edits env (Safe false log rules) (createTask di svcName specJson)
      fun _ => Safe false log rules := by
  have ht : ∀ b, Talking (serveEdited edits env) env (Safe b log rules)
      fun e => RulesRemembered e.pre := fun b => talking_edited hedits
  unfold createTask finishCreate
  refine Triple.bindInvariant ((ht false).triple (toDruid_httpDo _ _ _)) fun resp => ?_
  refine Triple.bindInvariant ((ht false).triple (toDruid_updateCompaction _ _))
    fun compactionOk => ?_
  refine keeps_updateRules_bind hdi svcName hedits fun rulesOk => ?_
  refine Triple.bindInvariant ((ht true).triple (uses_orReturn _)) fun taskId => ?_
  exact Triple.bindInvariant (keeps_makePatch hedits _ _ _ _ _ _) fun di =>
    Triple.ret fun w hw => hw

theorem keeps_updateRulesStatus (hedits : Harmless log rules edits)
    (hdi : di.ingestion.rules = rules) (svcName : String) :
    Keeps edits env (Safe false log rules) (updateRulesStatus di svcName)
      fun _ => Safe false log rules := by
  unfold updateRulesStatus
  split_ifs
  · exact Triple.ret fun w hw => hw
  · refine keeps_updateRules_bind hdi svcName hedits fun rulesOk => ?_
    split_ifs
    · exact keeps_makePatch hedits _ _ _ _ _ _
    · exact Triple.ret fun w hw => hw

/-- **One reconcile.** What is remembered was accepted at every step of a reconcile that starts
with it, does not note new rules before they are sent, and meets no edit to rules that were never
accepted. -/
theorem triple_createOrUpdate (hedits : Harmless log rules edits) (env : Env)
    (hdi : di.ingestion.rules = rules)
    (hearly : Recordable log rules ∨ notesEarly env di svcName = false) :
    Keeps edits env (Safe false log rules) (createOrUpdate di svcName)
      fun _ => Safe false log rules := by
  rcases hearly with hrec | hnot
  · refine (keeps_createOrUpdate hedits di svcName).conseq (fun w hw => ?_)
      (fun _ _ hw => hw.weaken) fun _ he => he
    exact ⟨hw.remembered, hw.log, hw.stored, fun _ => hrec.mono hw.log⟩
  cases hspec : getSpecJson di with
  | error e =>
      unfold createOrUpdate
      rw [hspec]
      exact Triple.exit fun w hw => hw
  | ok text =>
      cases hfresh : isFresh di with
      | true =>
          unfold createOrUpdate
          simp only [hspec, orReturn_ok, ret_bind, if_pos (of_decide_eq_true hfresh)]
          exact keeps_createTask hedits hdi svcName text
      | false =>
          refine (talking_edited hedits).untilRules hspec hfresh hnot (fun _ _ hw => hw) ?_
          exact Triple.bindInvariant (keeps_updateRulesStatus hedits hdi svcName) fun di =>
            Triple.ret fun w hw => hw

theorem safe_start (hw : RulesRemembered w) : Safe false w.log w.stored.ingestion.rules w :=
  ⟨hw, List.Subset.refl _, .inl rfl, fun h => by cases h⟩

end Steps

/-! ## Rules that are due -/

/-- There are rules that a reconcile has to send: nothing is remembered yet, or other rules. -/
def rulesDue (di : DruidIngestion) : Bool :=
  decide (di.ingestion.rules.getD [] ≠ []) &&
    (isFresh di || decide (di.status.currentRules ≠ di.ingestion.rules))

/-- The spec is the remembered one, or Druid answers that it does not accept it. -/
def passesSpec (env : Env) (di : DruidIngestion) (svcName text : String) : Bool :=
  match isEqualJson di.status.currentIngestionSpec text with
  | .error _ => false
  | .ok true => true
  | .ok false => decide (getPath di.ingestion.type svcName .post "" false ≠ "") &&
      (submission env di svcName text).answer.isOk && !(submission env di svcName text).isOk

/-- Nothing before the rules stops the reconcile or notes anything, and they can be encoded. -/
def reachesRules (env : Env) (di : DruidIngestion) (svcName : String) : Bool :=
  (getRulesJson di).isOk && (getDataSource di).isOk &&
    match getSpecJson di with
    | .error _ => false
    | .ok text =>
        if isFresh di then
          decide (getPath di.ingestion.type svcName .post "" false ≠ "") &&
            (submission env di svcName text).answer.isOk && (compactionOutcome env di svcName).isOk
        else
          passesSpec env di svcName text && decide (compactionOutcome env di svcName = .ok false)

/-- The program sends the request. -/
def Sends {α : Type} (env : Env) (p : IngestM α) (w : World) (r : Req) : Prop :=
  ∃ e ∈ (exec (serve env) p w).steps, e.req = r

theorem Sends.bind_left {α β : Type} {p : IngestM α} {r : Req} (h : Sends env p w r)
    (f : α → IngestM β) : Sends env (p >>= f) w r := by
  obtain ⟨e, he, hr⟩ := h
  exact ⟨e, (exec_bind_begins p f w).subset he, hr⟩

theorem Sends.bind_right {α β : Type} {p : IngestM α} {f : α → IngestM β} {r : Req} {a : α}
    (hres : (exec (serve env) p w).res = .ok a)
    (h : Sends env (f a) (exec (serve env) p w).state r) :
    Sends env (p >>= f) w r := by
  obtain ⟨e, he, hr⟩ := h
  refine ⟨e, ?_, hr⟩
  rw [exec_bind_ok hres]
  exact List.mem_append_right _ he

theorem sends_updateRules {rulesData dataSource : String} (hne : di.ingestion.rules.getD [] ≠ [])
    (htext : getRulesJson di = .ok rulesData) (hds : getDataSource di = .ok dataSource)
    (w : World) :
    Sends env (updateRules di svcName) w
      (.http .post (makePath svcName "coordinator" "rules" [dataSource]) rulesData) := by
  have hurl := makePath_ne_empty svcName "coordinator" "rules" [dataSource]
  unfold Sends updateRules
  simp only [if_neg hne, htext, hds, orReturn_ok, ret_bind, httpDo, DruidApi.httpDo, if_neg hurl,
    request, call_bind,
    exec_call]
  exact ⟨_, List.mem_cons_self, rfl⟩

theorem updateSpec_passes {text : String} (hspec : getSpecJson di = .ok text)
    (hpass : passesSpec env di svcName text = true) (w : World) :
    (exec (serve env) (updateSpec di svcName text) w).res = .ok di := by
  unfold updateSpec
  simp only [hspec, orReturn_ok, ret_bind]
  unfold passesSpec at hpass
  split at hpass
  · cases hpass
  · next heq =>
      rw [heq]
      rfl
  · next heq =>
      simp only [Bool.and_eq_true, decide_eq_true_eq, Bool.not_eq_true'] at hpass
      obtain ⟨⟨hurl, hans⟩, hcode⟩ := hpass
      simp only [heq, orReturn_ok, ret_bind, Bool.false_eq_true, if_false]
      obtain ⟨-, hres⟩ := exec_httpDo .post hurl text env w
      simp only [submission, Exchange.isOk] at hans hcode
      cases hdruid : env.druid .post (getPath di.ingestion.type svcName .post "" false) text with
      | error e =>
          rw [hdruid] at hans
          cases hans
      | ok resp =>
          rw [hdruid] at hres hcode
          rw [exec_bind_ok hres]
          simp only [if_neg (of_decide_eq_false hcode)]
          rfl

theorem compaction_passes (hcomp : compactionOutcome env di svcName = .ok false) (w : World) :
    (exec (serve env) (updateCompactionStatus di svcName) w).res = .ok di := by
  unfold updateCompactionStatus
  have hres := (talking_serve env w).res_eq (toDruid_updateCompaction di svcName) w
  rw [exec_bind_ok (hres.trans hcomp)]
  rfl

theorem rules_sent (hdue : rulesDue w.stored = true)
    (hreach : reachesRules env w.stored svcName = true) :
    ∃ e ∈ exchanges w svcName env, e.PostsRules (w.stored.ingestion.rules.getD []) := by
  obtain ⟨hne, hnew⟩ : w.stored.ingestion.rules.getD [] ≠ [] ∧ (isFresh w.stored = true ∨
      w.stored.status.currentRules ≠ w.stored.ingestion.rules) := by simpa [rulesDue] using hdue
  simp only [reachesRules, Bool.and_eq_true] at hreach
  obtain ⟨⟨htext, hds⟩, hreach⟩ := hreach
  cases htext' : getRulesJson w.stored with
  | error e => simp [htext', Except.isOk, Except.toBool] at htext
  | ok rulesData =>
  cases hds' : getDataSource w.stored with
  | error e => simp [hds', Except.isOk, Except.toBool] at hds
  | ok dataSource =>
  cases hspec : getSpecJson w.stored with
  | error e => simp [hspec] at hreach
  | ok text =>
      have hsent : Sends env (createOrUpdate w.stored svcName) w
          (.http .post (makePath svcName "coordinator" "rules" [dataSource]) rulesData) := by
        unfold createOrUpdate
        simp only [hspec, orReturn_ok, ret_bind] at hreach ⊢
        cases hfresh : isFresh w.stored with
        | true =>
            simp only [hfresh, if_true, Bool.and_eq_true, decide_eq_true_eq] at hreach
            obtain ⟨⟨hurl, hans⟩, hcomp⟩ := hreach
            rw [if_pos (of_decide_eq_true hfresh)]
            obtain ⟨-, hres⟩ := exec_httpDo .post hurl text env w
            simp only [submission] at hans
            cases hdruid : env.druid .post (getPath w.stored.ingestion.type svcName .post "" false)
                text with
            | error e =>
                rw [hdruid] at hans
                cases hans
            | ok resp =>
                rw [hdruid] at hres
                refine Sends.bind_right hres ?_
                cases hout : compactionOutcome env w.stored svcName with
                | error e =>
                    rw [hout] at hcomp
                    cases hcomp
                | ok changed =>
                    refine Sends.bind_right (((talking_serve env w).res_eq
                      (toDruid_updateCompaction _ _) _).trans hout) ?_
                    exact (sends_updateRules hne htext' hds' _).bind_left _
        | false =>
            simp only [hfresh, Bool.false_eq_true, if_false, Bool.and_eq_true,
              decide_eq_true_eq] at hreach
            rw [if_neg (of_decide_eq_false hfresh)]
            refine Sends.bind_right (updateSpec_passes hspec hreach.1 w) ?_
            refine Sends.bind_right (compaction_passes hreach.2 _) (Sends.bind_left ?_ _)
            unfold updateRulesStatus
            rw [if_neg (hnew.resolve_left (by simp [hfresh]))]
            exact (sends_updateRules hne htext' hds' _).bind_left _
      obtain ⟨e, he, hreq⟩ := hsent
      refine ⟨_, mem_exchanges he hreq, rfl, ⟨svcName, dataSource, rfl⟩, ?_⟩
      rw [← getRulesJson_eq hne, htext']

/-! ## Edits between reconciles -/

/-- Rules that are due are not noted before they are sent. -/
def notesSentRules (w : World) : Action → Bool
  | .edit _ => true
  | .reconcile svcName env => !rulesDue w.stored || !notesEarly env w.stored svcName

/-- What is not due is remembered, and so it was accepted. -/
theorem recordable_of_not_due (hw : RulesRemembered w) (hdue : rulesDue w.stored = false) :
    Recordable w.log w.stored.ingestion.rules := by
  intro hne
  simp only [rulesDue, hne, ne_eq, not_false_eq_true, decide_true, Bool.true_and,
    Bool.or_eq_false_iff, decide_eq_false_iff_not, not_not] at hdue
  have := hw
  rw [RulesRemembered, hdue.2] at this
  exact this hne

theorem RulesRemembered.reconcile (hw : RulesRemembered w)
    (hnotes : notesSentRules w (.reconcile svcName env) = true) :
    RulesRemembered (reconcile w svcName env) ∧
      ∀ e ∈ (exec (serve env) (createOrUpdate w.stored svcName) w).steps,
        RulesRemembered e.pre := by
  have hedits : Harmless w.log w.stored.ingestion.rules fun _ => none := fun n r h => by cases h
  have hearly : Recordable w.log w.stored.ingestion.rules ∨
      notesEarly env w.stored svcName = false := by
    simp only [notesSentRules, Bool.or_eq_true, Bool.not_eq_true'] at hnotes
    exact hnotes.imp_left (recordable_of_not_due hw)
  have := triple_createOrUpdate hedits env rfl hearly w (safe_start hw)
  rw [serveEdited_none] at this
  exact ⟨this.1.remembered, this.2⟩

theorem rulesOutcome_ne_false (env : Env) (di : DruidIngestion) (svcName : String) :
    rulesOutcome env di svcName ≠ .ok false := by
  intro hfalse
  have := (yields_updateRules di svcName).result hfalse
  cases this

/-- Rules that are due and not accepted stay due: nothing is noted. -/
theorem reconcile_unsent (hnotes : notesSentRules w (.reconcile svcName env) = true)
    (hdue : rulesDue w.stored = true) (hfailed : rulesOutcome env w.stored svcName ≠ .ok true) :
    (reconcile w svcName env).stored = w.stored := by
  have hearly : notesEarly env w.stored svcName = false := by
    simpa [notesSentRules, hdue] using hnotes
  refine (reconcile_quiet hearly ?_).1
  have herror : (rulesOutcome env w.stored svcName).isOk = false := by
    cases hout : rulesOutcome env w.stored svcName with
    | error e => rfl
    | ok ok =>
        cases ok with
        | true => exact absurd hout hfailed
        | false => exact absurd hout (rulesOutcome_ne_false env w.stored svcName)
  unfold notesRules
  split
  · rfl
  · split_ifs
    · simp [completes, herror]
    · simp [hfailed]

/-- **Rules are not lost.** In a run whose reconciles do not note rules that are due before they are
sent, what the status remembers was accepted, at every moment. Rules that Druid did not accept stay
due, and every later reconcile that gets to them sends them. -/
theorem failed_rules_retried {w : World} {acts : List Action} (hw : RulesRemembered w)
    (hacts : Meets step (fun w a => notesSentRules w a = true) w acts) :
    let w' := run step w acts
    RulesRemembered w' ∧ ∀ svcName env, notesSentRules w' (.reconcile svcName env) = true →
      (∀ e ∈ (exec (serve env) (createOrUpdate w'.stored svcName) w').steps,
        RulesRemembered e.pre) ∧
      (rulesDue w'.stored = true → rulesOutcome env w'.stored svcName ≠ .ok true →
        (reconcile w' svcName env).stored = w'.stored ∧
        ∀ svcName' env', reachesRules env' w'.stored svcName' = true →
          ∃ e ∈ exchanges (reconcile w' svcName env) svcName' env',
            e.PostsRules (w'.stored.ingestion.rules.getD [])) := by
  have hinv : RulesRemembered (run step w acts) := by
    refine run_invariant (fun v a _ hv hnotes => ?_) hw hacts
    cases a with
    | edit ingestion => exact hv
    | reconcile svcName env => exact (hv.reconcile hnotes).1
  refine ⟨hinv, fun svcName env hnotes => ⟨(hinv.reconcile hnotes).2, fun hdue hfailed => ?_⟩⟩
  have hstored := reconcile_unsent hnotes hdue hfailed
  refine ⟨hstored, fun svcName' env' hreach => ?_⟩
  have hdue' : rulesDue (reconcile (run step w acts) svcName env).stored = true := hstored ▸ hdue
  have hreach' :
      reachesRules env' (reconcile (run step w acts) svcName env).stored svcName' = true :=
    hstored ▸ hreach
  have hsent := rules_sent hdue' hreach'
  rwa [hstored] at hsent

theorem failed_rules_retried_wiki :
    let w := run step ⟨ruledWiki, [], 0⟩ [.reconcile routerUrl (acceptingEnv 200)]
    w.stored.status.currentRules = ruledWiki.ingestion.rules ∧ RulesRemembered w := by
  obtain ⟨hnoted, hacts⟩ : (run step ⟨ruledWiki, [], 0⟩
      [.reconcile routerUrl (acceptingEnv 200)]).stored.status.currentRules =
        ruledWiki.ingestion.rules ∧
      Meets step (fun w a => notesSentRules w a = true) ⟨ruledWiki, [], 0⟩
        [.reconcile routerUrl (acceptingEnv 200)] := by decide +kernel
  exact ⟨hnoted, (failed_rules_retried (fun h => absurd rfl h) hacts).1⟩

/-- Druid accepts every submission, and the coordinator is down. -/
def rulesDownEnv : Env where
  druid := fun _ url _ =>
    if isCreation url then .ok ⟨"\x7b\"task\":\"index_2\"\x7d", 200⟩ else .ok ⟨"\x7b\x7d", 500⟩

theorem not_accepted_of_log {log : List Exchange} {rules : List RawExtension}
    (h : ∀ e ∈ log, rulesText rules = .ok e.body → e.isOk = false) : ¬ RulesAccepted log rules := by
  rintro ⟨e, he, ⟨-, -, hbody⟩, hok⟩
  exact absurd ((h e he hbody).symm.trans hok) (by simp)

/-- The spec and the rules are edited together. The patch that notes the accepted spec also notes
the rules, which are rejected afterwards; the next reconcile sends nothing. -/
theorem rules_lost :
    let w := run step ⟨wiki, [], 0⟩ [.reconcile routerUrl (acceptingEnv 200), .edit editedWiki,
      .reconcile routerUrl rulesDownEnv]
    w.stored.status.currentRules = editedWiki.rules ∧ ¬ RulesRemembered w ∧
      (exchanges w routerUrl (acceptingEnv 200)).length = 0 := by
  intro w
  obtain ⟨hrules, hlog, hquiet⟩ : w.stored.status.currentRules = editedWiki.rules ∧
      (∀ e ∈ w.log, rulesText (editedWiki.rules.getD []) = .ok e.body → e.isOk = false) ∧
      (exchanges w routerUrl (acceptingEnv 200)).length = 0 := by decide +kernel
  refine ⟨hrules, fun hremembered => ?_, hquiet⟩
  rw [RulesRemembered, hrules] at hremembered
  exact not_accepted_of_log hlog (hremembered (by decide))

/-! ## Edits during reconciles -/

inductive EditedAction where
  | edit (ingestion : IngestionSpec)
  | reconcile (svcName : String) (env : Env) (edits : Edits)

/-- What a reconcile does while users edit the rules. -/
def editedOutcome (w : World) (svcName : String) (env : Env) (edits : Edits) :=
  exec (serveEdited edits env) (createOrUpdate w.stored svcName) w

def editedStep (w : World) : EditedAction → World
  | .edit ingestion => { w with stored := { w.stored with ingestion := ingestion } }
  | .reconcile svcName env edits => (editedOutcome w svcName env edits).state

/-- The reconcile meets no edit to rules that were never accepted, and does not note such rules
before they are sent. -/
def MeetsNoNewRules (w : World) : EditedAction → Prop
  | .edit _ => True
  | .reconcile svcName env edits => Harmless w.log w.stored.ingestion.rules edits ∧
      (Recordable w.log w.stored.ingestion.rules ∨ notesEarly env w.stored svcName = false)

/-- What is remembered was accepted before, at every step of a reconcile. -/
def RemembersThroughout (w : World) : EditedAction → Prop
  | .edit _ => True
  | .reconcile svcName env edits =>
      ∀ e ∈ (editedOutcome w svcName env edits).steps, RulesRemembered e.pre

/-- **Edited rules are not swallowed.** Whatever is answered, and however the rules are edited
between the steps: if no reconcile meets an edit to rules that were never accepted, or notes such
rules before it sends them, the rules the status remembers were sent and accepted before. -/
theorem edited_rules_sent {w : World} {acts : List EditedAction} (hw : RulesRemembered w)
    (hacts : Meets editedStep MeetsNoNewRules w acts) :
    RulesRemembered (run editedStep w acts) ∧ Meets editedStep RemembersThroughout w acts := by
  have hstep : ∀ v, ∀ a ∈ acts, RulesRemembered v → MeetsNoNewRules v a →
      RulesRemembered (editedStep v a) ∧ RemembersThroughout v a := by
    intro v a _ hv hmeets
    cases a with
    | edit ingestion => exact ⟨hv, trivial⟩
    | reconcile svcName env edits =>
        obtain ⟨hsafe, hsteps⟩ := triple_createOrUpdate hmeets.1 env rfl hmeets.2 v (safe_start hv)
        exact ⟨hsafe.remembered, hsteps⟩
  exact ⟨run_invariant (fun v a ha hv hmeets => (hstep v a ha hv hmeets).1) hw hacts,
    hacts.ofInvariant hstep hw⟩

/-- A user puts other rules in place before the Kubernetes request `n`. -/
def editsAt (n : ℕ) (rules : Option (List RawExtension)) : Edits :=
  fun n' => if n' = n then some rules else none

/-- A user who removes the rules in between does no harm. -/
theorem edited_rules_sent_wiki :
    RulesRemembered (run editedStep ⟨ruledWiki, [], 0⟩
      [.reconcile routerUrl (acceptingEnv 200) (editsAt 0 none)]) := by
  have hharmless : Harmless [] ruledWiki.ingestion.rules (editsAt 0 none) := by
    intro n r hr
    by_cases hn : n = 0
    · simp only [editsAt, hn, if_true, Option.some.injEq] at hr
      exact hr ▸ .inr fun h => absurd rfl h
    · simp [editsAt, hn] at hr
  have hearly : notesEarly (acceptingEnv 200) ruledWiki routerUrl = false := by decide +kernel
  have hmeets : Meets editedStep MeetsNoNewRules ⟨ruledWiki, [], 0⟩
      [.reconcile routerUrl (acceptingEnv 200) (editsAt 0 none)] :=
    ⟨⟨hharmless, .inr hearly⟩, trivial⟩
  exact (edited_rules_sent (fun h => absurd rfl h) hmeets).1

def dropRules : Option (List RawExtension) := some [⟨"\x7b\"type\":\"dropForever\"\x7d"⟩]

/-- A user edits the rules after the reconcile has read the object. The rules that were read are
sent, the new ones are noted, and the next reconcile sends nothing. -/
theorem edit_swallowed :
    let w := run editedStep ⟨ruledWiki, [], 0⟩
      [.reconcile routerUrl (acceptingEnv 200) (editsAt 0 dropRules)]
    w.stored.status.currentRules = dropRules ∧
      (∀ e ∈ w.log, rulesText (dropRules.getD []) ≠ .ok e.body) ∧
      ∀ e ∈ exchanges w routerUrl (acceptingEnv 200), rulesText (dropRules.getD []) ≠
        .ok e.body := by
  decide +kernel

end DruidOperator.Ingestion
