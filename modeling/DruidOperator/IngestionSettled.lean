import DruidOperator.IngestionTask

/-!
# When the ingestion controller comes to rest

A reconcile compares four things with what it finds, and each difference it sees costs a request to
Druid or a patch of the status. After a reconcile that went through, all four should agree.

**Druid.** It answers 200 to what it is sent and keeps the compaction settings: `settings` are those
it has after the exchanges so far, and an environment is `Obliging` if it answers by them.

**At rest** (`Reached`). The remembered spec is the spec, Druid's compaction settings include the
desired ones, and the remembered rules are the rules. A reconcile at rest asks Druid for the
settings at most, and nothing changes (`Reached.quiet`).

**The way there.** A reconcile that goes through leaves the spec and the compaction agreeing, and
the rules as `noteRules` says (`reached_of_ok`). The encoding leaves out an empty list of rules, so
an empty list and an absent one are the same to the patch, but not to the comparison: `settles_iff`
says that this is the only obstacle.
-/

namespace DruidOperator.Ingestion

open Interaction Prog DruidApi Runs

variable {svcName : String} {s : String → Option String} {text : String} {di : DruidIngestion}
    {initial : String → Option String}

/-! ## What Druid stores -/

/-- Where new compaction settings are sent. -/
def compactionUrl (svcName : String) : String :=
  makePath svcName "coordinator" "config" ["compaction"]

/-- Where the compaction settings of a data source are read. -/
def settingsUrl (svcName dataSource : String) : String :=
  makePath svcName "coordinator" "config" ["compaction", dataSource]

/-- The data source that compaction settings name. -/
def dataSourceOf (text : String) : Option String :=
  match (Json.unmarshalMap text).bind (·.get? "dataSource") with
  | some (.str dataSource) => some dataSource
  | _ => none

/-- Where the settings sent in an exchange can be read afterwards. -/
def Exchange.storesAt (svcName : String) (e : Exchange) : Option String :=
  if e.method = .post ∧ e.url = compactionUrl svcName then
    (dataSourceOf e.body).map (settingsUrl svcName)
  else none

/-- The compaction settings after one more exchange. -/
def store (svcName : String) (s : String → Option String) (e : Exchange) : String → Option String :=
  match e.storesAt svcName with
  | some url => Function.update s url (some e.body)
  | none => s

/-- The compaction settings Druid has after the exchanges of `log`. -/
def settings (svcName : String) (initial : String → Option String) (log : List Exchange) :
    String → Option String := log.foldl (store svcName) initial

/-- Druid answers 200 to what it is sent, and a request for compaction settings with those it
has. -/
structure Obliging (s : String → Option String) (env : Env) : Prop where
  post : ∀ url body, ∃ resp, env.druid .post url body = .ok resp ∧ resp.statusCode = 200
  get : ∀ url, env.druid .get url "" =
    match s url with
    | some text => .ok ⟨text, 200⟩
    | none => .ok ⟨"", 404⟩

theorem settings_append (svcName : String) (initial : String → Option String)
    (log new : List Exchange) :
    settings svcName initial (log ++ new) = settings svcName (settings svcName initial log) new :=
  List.foldl_append

theorem store_get {e : Exchange} (he : e.method = .get) : store svcName s e = s := by
  simp [store, Exchange.storesAt, he]

theorem store_of_no_dataSource {e : Exchange} (he : dataSourceOf e.body = none) :
    store svcName s e = s := by
  simp [store, Exchange.storesAt, he]

theorem getPath_ne_compactionUrl (type : DruidIngestionMethod) (svcName : String) :
    getPath type svcName .post "" false ≠ compactionUrl svcName := by
  have hne : ∀ comp, makePath "" "indexer" comp [] ≠ makePath "" "coordinator" "config"
      ["compaction"] →
      makePath svcName "indexer" comp [] ≠ compactionUrl svcName := by
    intro comp hne h
    rw [compactionUrl, makePath_eq_append, makePath_eq_append svcName "coordinator"] at h
    exact hne ((String.append_right_inj _).1 h)
  cases type with
  | kafka => exact hne "supervisor" (by decide +kernel)
  | nativeBatchIndexParallel => exact hne "task" (by decide +kernel)
  | _ => exact fun h => makePath_ne_empty _ _ _ _ h.symm

theorem store_submission {type : DruidIngestionMethod} {answer : Except Error Response} :
    store svcName s ⟨.post, getPath type svcName .post "" false, text, answer⟩ = s := by
  simp [store, Exchange.storesAt, getPath_ne_compactionUrl]

/-! ## Texts -/

theorem canonicalList_of_rules {rules : List RawExtension} {xs : List Json}
    (h : unmarshalRules rules = .ok xs) : Json.CanonicalList xs := by
  induction rules generalizing xs with
  | nil =>
      cases h
      trivial
  | cons rule rules ih =>
      unfold unmarshalRules at h
      cases hrule : Json.unmarshalMap rule.raw with
      | none =>
          rw [hrule] at h
          cases h
      | some x =>
          rw [hrule] at h
          cases hrest : unmarshalRules rules with
          | error e =>
              rw [hrest] at h
              cases h
          | ok ys =>
              rw [hrest] at h
              cases h
              exact ⟨Json.canonical_of_unmarshal (unmarshal_of_unmarshalMap hrule), ih hrest⟩

/-- The rules are an array, which names no data source. -/
theorem dataSourceOf_rules {rulesData : String} (hrules : getRulesJson di = .ok rulesData)
    (hne : di.ingestion.rules.getD [] ≠ []) : dataSourceOf rulesData = none := by
  simp only [getRulesJson, getRules, if_neg hne] at hrules
  cases hxs : unmarshalRules (di.ingestion.rules.getD []) with
  | error e =>
      rw [hxs] at hrules
      cases hrules
  | ok xs =>
      rw [hxs] at hrules
      cases hrules
      have hread : Json.unmarshal (Json.toJsonString (.arr xs)) = some (.arr xs) :=
        Json.unmarshal_of_canonical (canonicalList_of_rules hxs)
      simp [dataSourceOf, Json.unmarshalMap, hread]

theorem unmarshalMap_compaction {desired : String} (hset : di.ingestion.compaction.isSet = true)
    (h : getCompactionJson di = .ok desired) :
    ∃ dataSource fs, getDataSource di = .ok dataSource ∧
      Json.unmarshalMap desired = some (.obj fs) ∧
      fs.Pairwise (·.1 < ·.1) ∧ fs.lookup "dataSource" = some (.str dataSource) := by
  have hraw : di.ingestion.compaction.raw ≠ "" := by simpa [RawExtension.isSet] using hset
  simp only [getCompactionJson, getCompaction, if_neg hraw] at h
  cases hcomp : Json.unmarshalMap di.ingestion.compaction.raw with
  | none =>
      rw [hcomp] at h
      cases h
  | some compaction =>
      rw [hcomp] at h
      cases hsource : getDataSource di with
      | error e =>
          rw [hsource] at h
          cases h
      | ok dataSource =>
          rw [hsource] at h
          rcases Json.unmarshalMap_cases hcomp with rfl | ⟨fs, rfl⟩
          · cases h
          · cases h
            obtain ⟨hsorted, hfields⟩ :=
              Json.canonical_of_unmarshal (unmarshal_of_unmarshalMap hcomp)
            have hread : Json.unmarshal (Json.toJsonString (.obj (Json.setField "dataSource"
                (.str dataSource) fs))) = some (.obj (Json.setField "dataSource"
                (.str dataSource) fs)) := Json.unmarshal_of_canonical
              ⟨Json.setField_sorted _ _ hsorted, Json.canonicalFields_setField trivial hfields⟩
            refine ⟨dataSource, Json.setField "dataSource" (.str dataSource) fs, rfl, ?_,
              Json.setField_sorted _ _ hsorted, ?_⟩
            · rw [Json.unmarshalMap, hread]
            · rw [Json.lookup_setField, if_pos rfl]

theorem includesValue_self (x : Json) : includesValue x x = true := by
  cases x <;> simp [includesValue]

theorem includesFields_of_lookup {current desired : List (String × Json)}
    (h : ∀ f ∈ desired, current.lookup f.1 = some f.2) : includesFields current desired = true := by
  induction desired with
  | nil => rfl
  | cons f desired ih =>
      unfold includesFields
      rw [h f List.mem_cons_self]
      simp [includesValue_self, ih fun f hf => h f (List.mem_cons_of_mem _ hf)]

theorem includesJson_self {fs : List (String × Json)} (h : Json.unmarshalMap text = some (.obj fs))
    (hsorted : fs.Pairwise (·.1 < ·.1)) : includesJson text text = .ok true := by
  simp only [includesJson, h, Json.fields]
  rw [includesFields_of_lookup fun f hf => Json.lookup_of_mem hsorted hf]

/-- A spec that is remembered as it is counts as the same. -/
theorem isEqualJson_spec (h : getSpecJson di = .ok text) : isEqualJson text text = .ok true := by
  obtain ⟨src, x, hx, rfl⟩ := getSpecJson_eq_map h
  simp [isEqualJson, Json.unmarshal_toJsonString (unmarshal_of_unmarshalMap hx)]

/-! ## The compaction settings -/

theorem exec_httpDo_bind {α : Type} {env : Env} {method : Method} {url body : String}
    {resp : Response} (hurl : url ≠ "") (hanswer : env.druid method url body = .ok resp)
    (f : Response → IngestM α) (w : World) :
    exec (serve env) (httpDo method url body >>= f) w =
      ⟨(exec (serve env) (f resp) (w.record ⟨method, url, body, .ok resp⟩)).res,
        (exec (serve env) (f resp) (w.record ⟨method, url, body, .ok resp⟩)).state,
        ⟨w, .http method url body, .ok resp⟩ ::
          (exec (serve env) (f resp) (w.record ⟨method, url, body, .ok resp⟩)).steps⟩ := by
  simp only [httpDo, DruidApi.httpDo, if_neg hurl, request, call_bind, ret_bind, exec_call, serve,
    World.record, hanswer,
    orReturn_ok]

/-- The settings Druid has for the data source include the desired ones. -/
def CompactionSettled (s : String → Option String) (di : DruidIngestion) (svcName : String) :
    Prop :=
  di.ingestion.compaction.isSet = true → ∃ dataSource desired, getDataSource di = .ok dataSource ∧
    getCompactionJson di = .ok desired ∧
    includesJson ((s (settingsUrl svcName dataSource)).getD "\x7b\x7d") desired = .ok true

theorem CompactionSettled.congr {di' : DruidIngestion} (h : CompactionSettled s di svcName)
    (hdi : di'.ingestion = di.ingestion) : CompactionSettled s di' svcName := by
  have hsource : getDataSource di' = getDataSource di := by simp only [getDataSource, getSpec, hdi]
  have hcomp : getCompactionJson di' = getCompactionJson di := by
    simp only [getCompactionJson, getCompaction, hsource, hdi]
  unfold CompactionSettled
  rwa [hdi, hsource, hcomp]

section Compaction

variable {env : Env} {s : String → Option String} {di : DruidIngestion} {svcName : String}

theorem Obliging.current (henv : Obliging s env) (url : String) :
    ∃ resp, env.druid .get url "" = .ok resp ∧
      currentCompaction resp = .ok ((s url).getD "\x7b\x7d") := by
  rw [henv.get url]
  cases s url with
  | none => exact ⟨_, rfl, by simp [currentCompaction]⟩
  | some text => exact ⟨_, rfl, by simp [currentCompaction]⟩

/-- The request only asks Druid. -/
def Asks : Req → Prop
  | .http method _ _ => method = .get
  | _ => False

/-- Settings that include the desired ones are asked for and left alone. -/
theorem exec_updateCompaction_settled (henv : Obliging s env)
    (hsettled : CompactionSettled s di svcName) (w : World) :
    (exec (serve env) (updateCompaction di svcName) w).res = .ok false ∧
      ∀ e ∈ (exec (serve env) (updateCompaction di svcName) w).steps, Asks e.req := by
  unfold updateCompaction
  split_ifs with hset
  · obtain ⟨dataSource, desired, hsource, hdesired, hincludes⟩ := hsettled hset
    obtain ⟨resp, hanswer, hcurrent⟩ := henv.current (settingsUrl svcName dataSource)
    rw [hsource, orReturn_ok, ret_bind, exec_httpDo_bind (makePath_ne_empty _ _ _ _) hanswer]
    simp only [hcurrent, orReturn_ok, ret_bind, hdesired, hincludes, if_true, pure_eq, exec_ret]
    exact ⟨trivial, by simp [Asks]⟩
  · exact ⟨rfl, by simp⟩

/-- Sent settings can be read where the next reconcile asks for them. -/
theorem store_compaction {dataSource desired : String} {fs : List (String × Json)}
    (hdesired : Json.unmarshalMap desired = some (.obj fs))
    (hsource : fs.lookup "dataSource" = some (.str dataSource)) (s : String → Option String)
    (answer : Except Error Response) :
    store svcName s ⟨.post, compactionUrl svcName, desired, answer⟩
      (settingsUrl svcName dataSource) =
      some desired := by
  have hnames : dataSourceOf desired = some dataSource := by
    simp [dataSourceOf, hdesired, Json.get?, Json.fields, hsource]
  simp [store, Exchange.storesAt, hnames]

/-- A compaction step that returned. There was nothing to do; or the settings were asked for, and
those that did not include the desired ones were replaced. -/
theorem updateCompaction_cases {w : World} {changed : Bool}
    (hres : (exec (serve env) (updateCompaction di svcName) w).res = .ok changed) :
    (di.ingestion.compaction.isSet = false ∧ changed = false ∧
      talk env (updateCompaction di svcName) w = []) ∨
    ∃ dataSource desired resp current, di.ingestion.compaction.isSet = true ∧
      getDataSource di = .ok dataSource ∧ getCompactionJson di = .ok desired ∧
      env.druid .get (settingsUrl svcName dataSource) "" = .ok resp ∧
      currentCompaction resp = .ok current ∧ includesJson current desired = .ok (!changed) ∧
      talk env (updateCompaction di svcName) w =
        ⟨.get, settingsUrl svcName dataSource, "", .ok resp⟩ ::
          (if changed then [⟨.post, compactionUrl svcName, desired,
            env.druid .post (compactionUrl svcName) desired⟩] else []) ∧
      (changed = true → ∃ resp', env.druid .post (compactionUrl svcName) desired = .ok resp' ∧
        resp'.statusCode = 200) := by
  unfold updateCompaction at hres ⊢
  by_cases hset : di.ingestion.compaction.isSet = true
  · refine .inr ?_
    simp only [if_pos hset] at hres ⊢
    cases hsource : getDataSource di with
    | error e =>
        rw [hsource] at hres
        cases hres
    | ok dataSource =>
        simp only [hsource, orReturn_ok, ret_bind] at hres ⊢
        obtain ⟨resp, hget, hres, -⟩ := exec_bind_returned hres
        obtain ⟨hans, -⟩ := httpDo_returned (makePath_ne_empty _ _ _ _) hget
        rw [talk_bind_ok hget, talk_httpDo _ (makePath_ne_empty _ _ _ _), hans]
        cases hcurrent : currentCompaction resp with
        | error e =>
            rw [hcurrent] at hres
            cases hres
        | ok current =>
            simp only [hcurrent, orReturn_ok, ret_bind] at hres ⊢
            cases hdesired : getCompactionJson di with
            | error e =>
                rw [hdesired] at hres
                cases hres
            | ok desired =>
                simp only [hdesired] at hres ⊢
                cases hincl : includesJson current desired with
                | error e =>
                    rw [hincl] at hres
                    cases hres
                | ok same =>
                    simp only [hincl, orReturn_ok, ret_bind] at hres ⊢
                    cases same with
                    | true =>
                        cases hres
                        exact ⟨dataSource, desired, resp, current, hset, rfl, rfl, hans, hcurrent,
                          hincl, rfl, fun h => by cases h⟩
                    | false =>
                        obtain ⟨resp', hpost, hres, -⟩ := exec_bind_returned hres
                        obtain ⟨hans', -⟩ := httpDo_returned (makePath_ne_empty _ _ _ _) hpost
                        by_cases hcode : resp'.statusCode = 200
                        · rw [if_pos hcode] at hres
                          cases hres
                          refine ⟨dataSource, desired, resp, current, hset, rfl, rfl,
                            hans, hcurrent,
                            hincl, ?_, fun _ => ⟨resp', hans', hcode⟩⟩
                          simp only [Bool.false_eq_true, if_false, if_true]
                          rw [talk_bind_ok hpost, talk_httpDo _ (makePath_ne_empty _ _ _ _),
                            if_pos hcode]
                          rfl
                        · rw [if_neg hcode] at hres
                          cases hres
  · rw [if_neg hset] at hres ⊢
    cases hres
    exact .inl ⟨by simpa using hset, rfl, rfl⟩

theorem exec_updateCompaction_ok {w : World} {changed : Bool}
    (henv : Obliging (settings svcName initial w.log) env)
    (hres : (exec (serve env) (updateCompaction di svcName) w).res = .ok changed) :
    CompactionSettled (settings svcName initial
      (exec (serve env) (updateCompaction di svcName) w).state.log) di svcName := by
  intro hset
  rw [log_eq_steps, settings_append]
  rcases updateCompaction_cases hres with ⟨hunset, -⟩ |
    ⟨dataSource, desired, resp, current, -, hsource, hdesired, hanswer, hcurrent,
      hincludes, htalk, -⟩
  · cases hset.symm.trans hunset
  · obtain ⟨resp', hanswer', hcurrent'⟩ := henv.current (settingsUrl svcName dataSource)
    cases hanswer.symm.trans hanswer'
    cases hcurrent.symm.trans hcurrent'
    rw [talk] at htalk
    refine ⟨dataSource, desired, hsource, hdesired, ?_⟩
    rw [htalk, settings, List.foldl_cons, store_get rfl]
    cases changed with
    | false => exact hincludes
    | true =>
        obtain ⟨source, fs, hsource', hread, hsorted, hnames⟩ :=
          unmarshalMap_compaction hset hdesired
        cases hsource.symm.trans hsource'
        rw [if_pos rfl, List.foldl_cons, List.foldl_nil, store_compaction hread hnames]
        exact includesJson_self hread hsorted

end Compaction

/-! ## A reconcile that goes through -/

/-- The rules of the object in memory and of the stored one: a patch since the object was read has
replaced `old` by `new`. -/
def RulesFollow (old new : Option (List RawExtension)) (di : DruidIngestion) (w : World) : Prop :=
  (w.stored.status.currentRules = old ∧ di.status.currentRules = old) ∨
    (w.stored.status.currentRules = new ∧
      (di.status.currentRules = old ∨ di.status.currentRules = new))

theorem omitEmpty_idem (rules : Option (List RawExtension)) :
    omitEmpty (omitEmpty rules) = omitEmpty rules := by
  unfold omitEmpty
  split_ifs <;> simp_all

/-- What a patch leaves of the rules, from what they were. -/
def noteRules (rules current : Option (List RawExtension)) : Option (List RawExtension) :=
  mergeField (omitEmpty current) (omitEmpty rules) current

theorem noteRules_idem (rules current : Option (List RawExtension)) :
    noteRules rules (noteRules rules current) = noteRules rules current := by
  unfold noteRules mergeField
  by_cases h : omitEmpty current = omitEmpty rules
  · simp [h]
  · simp [h, omitEmpty_idem]

theorem noteRules_self (rules : Option (List RawExtension)) : noteRules rules rules = rules := by
  simp [noteRules, mergeField]

/-- A patch leaves the rules alike exactly if none of the two lists is empty and the other
absent. -/
theorem noteRules_eq_iff {rules current : Option (List RawExtension)} :
    noteRules rules current = rules ↔
      (rules = some [] → current = some []) ∧ (rules = none → current ≠ some []) := by
  unfold noteRules mergeField omitEmpty
  by_cases hr : rules = some []
  · subst hr
    by_cases hc : current = some []
    · simp [hc]
    · simp [hc]
  · by_cases hc : current = some []
    · subst hc
      cases rules <;> simp_all
    · simp [hr, hc]

/-- In the course of a reconcile: the spec is that of the start, and so are the rules up to
patches. -/
structure Going (ingestion : IngestionSpec) (old : Option (List RawExtension)) (di : DruidIngestion)
    (w : World) : Prop where
  read : di.ingestion = ingestion
  stored : w.stored.ingestion = ingestion
  rules : RulesFollow old (noteRules ingestion.rules old) di w

def SpecAgrees (text : String) (w : World) : Prop :=
  isEqualJson w.stored.status.currentIngestionSpec text = .ok true

section Through

variable {env : Env} {di di' : DruidIngestion} {svcName text : String} {w : World}
  {ingestion : IngestionSpec} {old : Option (List RawExtension)}

theorem Going.record (hgoing : Going ingestion old di w) (e : Exchange) :
    Going ingestion old di (w.record e) :=
  ⟨hgoing.read, hgoing.stored, hgoing.rules⟩

theorem exec_makePatch_through (hspec : getSpecJson di = .ok text) {taskId msg reason : String}
    {status : ConditionStatus} {type : String}
    (hres :
      (exec (serve env) (makePatchDruidIngestionStatus di taskId msg reason status type) w).res =
      .ok di') :
    let w' :=
      (exec (serve env) (makePatchDruidIngestionStatus di taskId msg reason status type) w).state
    di' = w.stored ∧ w'.log = w.log ∧ w'.stored.ingestion = w.stored.ingestion ∧
      w'.stored.status.currentIngestionSpec = text ∧
      w'.stored.status.currentRules =
        noteRules w.stored.ingestion.rules w.stored.status.currentRules := by
  simp only [makePatchDruidIngestionStatus, hspec, orReturn_ok, ret_bind] at hres ⊢
  obtain ⟨hlog, ⟨-, hok, hstored⟩ | ⟨-, -, e, herr⟩⟩ := exec_patchStatus di _ env w
  · cases hok.symm.trans hres
    refine ⟨rfl, hlog, ?_, ?_, ?_⟩
    · rw [hstored]
    · rw [hstored]
      simp [applyStatusPatch]
    · rw [hstored]
      rfl
  · cases herr.symm.trans hres

theorem Going.patch (hgoing : Going ingestion old di w) (hspec : getSpecJson di = .ok text)
    {taskId msg reason : String} {status : ConditionStatus} {type : String}
    (hres :
      (exec (serve env) (makePatchDruidIngestionStatus di taskId msg reason status type) w).res =
      .ok di') :
    let w' :=
      (exec (serve env) (makePatchDruidIngestionStatus di taskId msg reason status type) w).state
    Going ingestion old di' w' ∧ SpecAgrees text w' ∧ w'.log = w.log ∧
      w'.stored.status.currentRules = noteRules ingestion.rules old := by
  obtain ⟨rfl, hlog, hing, htext, hrules⟩ := exec_makePatch_through hspec hres
  have hnoted : noteRules w.stored.ingestion.rules w.stored.status.currentRules =
      noteRules ingestion.rules old := by
    rw [hgoing.stored]
    rcases hgoing.rules with ⟨hw, -⟩ | ⟨hw, -⟩
    · rw [hw]
    · rw [hw, noteRules_idem]
  refine ⟨⟨hgoing.stored, hing.trans hgoing.stored, .inr ⟨hrules.trans hnoted, ?_⟩⟩, ?_, hlog,
    hrules.trans hnoted⟩
  · exact hgoing.rules.imp And.left And.left
  · rw [SpecAgrees, htext]
    exact isEqualJson_spec hspec

/-- A step that talks to Druid and notes what it changed, and went through. -/
theorem Going.noted (hgoing : Going ingestion old di w) (hspec : getSpecJson di = .ok text)
    {p : IngestM Bool} (hp : p.Uses ToDruid) {taskId msg reason : String} {status : ConditionStatus}
    {type : String}
    (hres : (exec (serve env) (p >>= fun ok =>
      if ok then makePatchDruidIngestionStatus di taskId msg reason status type
        else return di) w).res =
        .ok di') :
    let w' := (exec (serve env) (p >>= fun ok =>
      if ok then makePatchDruidIngestionStatus di taskId msg reason status type
        else return di) w).state
    ∃ changed, (exec (serve env) p w).res = .ok changed ∧ Going ingestion old di' w' ∧
      w'.log = (exec (serve env) p w).state.log ∧ (SpecAgrees text w → SpecAgrees text w') ∧
      (changed = true → w'.stored.status.currentRules = noteRules ingestion.rules old) := by
  obtain ⟨-, hstored⟩ := exec_toDruid env hp w
  have hgoing' : Going ingestion old di (exec (serve env) p w).state :=
    ⟨hgoing.read, by rw [hstored]; exact hgoing.stored, by
      unfold RulesFollow
      rw [hstored]
      exact hgoing.rules⟩
  obtain ⟨changed, hchanged, hres, -⟩ := exec_bind_returned hres
  rw [exec_bind_ok hchanged]
  cases changed with
  | false =>
      cases hres
      refine ⟨false, hchanged, hgoing', rfl, fun hagrees => ?_, fun h => by cases h⟩
      rw [SpecAgrees] at hagrees ⊢
      exact hstored ▸ hagrees
  | true =>
      obtain ⟨hgoing', hagrees, hlog, hrules⟩ := hgoing'.patch hspec hres
      exact ⟨true, hchanged, hgoing', hlog, fun _ => hagrees, fun _ => hrules⟩

/-- The request stores no settings. -/
def Unstored (svcName : String) : Req → Prop
  | .http method url body => ∀ answer s, store svcName s ⟨method, url, body, answer⟩ = s
  | _ => True

theorem settings_of_unstored {α : Type} {p : IngestM α} {w : World}
    (hp : ∀ e ∈ (exec (serve env) p w).steps, Unstored svcName e.req)
    (initial : String → Option String) :
    settings svcName initial (exec (serve env) p w).state.log = settings svcName initial w.log := by
  have hstore : ∀ e ∈ (exec (serve env) p w).steps.filterMap (exchangeOf env), ∀ s,
      store svcName s e = s := by
    intro e he s
    obtain ⟨t, ht, hexchange⟩ := List.mem_filterMap.1 he
    have hreq := hp t ht
    unfold exchangeOf at hexchange
    split at hexchange
    · next hhttp =>
        cases hexchange
        rw [hhttp] at hreq
        exact hreq _ s
    · cases hexchange
  rw [log_eq_steps, settings_append]
  generalize settings svcName initial w.log = s
  generalize (exec (serve env) p w).steps.filterMap (exchangeOf env) = new at hstore
  induction new with
  | nil => rfl
  | cons e new ih =>
      rw [settings, List.foldl_cons, hstore e List.mem_cons_self]
      exact ih fun e he => hstore e (List.mem_cons_of_mem _ he)

theorem unstored_updateRules (di : DruidIngestion) (svcName : String) :
    (updateRules di svcName).Uses (Unstored svcName) := by
  unfold updateRules
  split_ifs with hnone
  · trivial
  · cases hrules : getRulesJson di with
    | error e => trivial
    | ok rulesData =>
        refine (uses_orReturn (getDataSource di)).bind fun dataSource => ?_
        refine (uses_httpDo fun answer s => ?_).bind fun resp => ?_
        · exact store_of_no_dataSource (dataSourceOf_rules hrules hnone)
        · split_ifs <;> trivial

theorem updateSpec_through (henv : Obliging (settings svcName initial w.log) env)
    (hspec : getSpecJson w.stored = .ok text)
    (hres : (exec (serve env) (updateSpec w.stored svcName text) w).res = .ok di') :
    let w' := (exec (serve env) (updateSpec w.stored svcName text) w).state
    Going w.stored.ingestion w.stored.status.currentRules di' w' ∧ SpecAgrees text w' ∧
      settings svcName initial w'.log = settings svcName initial w.log := by
  have hgoing : Going w.stored.ingestion w.stored.status.currentRules w.stored w :=
    ⟨rfl, rfl, .inl ⟨rfl, rfl⟩⟩
  revert hres
  simp only [updateSpec, hspec, orReturn_ok, ret_bind]
  cases hequal : isEqualJson w.stored.status.currentIngestionSpec text with
  | error e => exact fun hres => by cases hres
  | ok same =>
      cases same with
      | true =>
          intro hres
          cases hres
          exact ⟨hgoing, hequal, rfl⟩
      | false =>
          simp only [orReturn_ok, ret_bind, Bool.false_eq_true, if_false]
          by_cases hurl : getPath w.stored.ingestion.type svcName .post "" false = ""
          · intro hres
            rw [httpDo, DruidApi.httpDo, if_pos hurl] at hres
            cases hres
          · obtain ⟨resp, hanswer, hcode⟩ := henv.post _ text
            rw [exec_httpDo_bind hurl hanswer]
            simp only [hcode, if_true]
            cases htask : getTaskIdFromResponse resp.responseBody with
            | error e => exact fun hres => by cases hres
            | ok taskId =>
                intro hres
                obtain ⟨hgoing', hagrees, hlog, -⟩ := (hgoing.record _).patch hspec hres
                refine ⟨hgoing', hagrees, (congrArg (settings svcName initial) hlog).trans ?_⟩
                rw [World.record, settings_append]
                exact store_submission

theorem updateRulesStatus_through (hgoing : Going ingestion old di w)
    (hspec : getSpecJson di = .ok text) (hagrees : SpecAgrees text w)
    (hres : (exec (serve env) (updateRulesStatus di svcName) w).res = .ok di')
    (initial : String → Option String) :
    let w' := (exec (serve env) (updateRulesStatus di svcName) w).state
    w'.stored.ingestion = ingestion ∧ SpecAgrees text w' ∧
      settings svcName initial w'.log = settings svcName initial w.log ∧
      w'.stored.status.currentRules = noteRules ingestion.rules old := by
  unfold updateRulesStatus at hres ⊢
  by_cases hsame : di.status.currentRules = di.ingestion.rules
  · rw [if_pos hsame]
    refine ⟨hgoing.stored, hagrees, rfl, ?_⟩
    rw [hgoing.read] at hsame
    rcases hgoing.rules with ⟨hw, hdi⟩ | ⟨hw, -⟩
    · rw [hdi] at hsame
      show w.stored.status.currentRules = _
      rw [hw, hsame, noteRules_self]
    · exact hw
  · rw [if_neg hsame] at hres ⊢
    obtain ⟨changed, hp, hgoing', hlog, hagrees', hrules⟩ :=
      hgoing.noted hspec (toDruid_updateRules di svcName) hres
    refine ⟨hgoing'.stored, hagrees' hagrees, ?_, hrules ?_⟩
    · rw [hlog]
      exact settings_of_unstored (fun e he => (unstored_updateRules di svcName).steps he) initial
    · exact (yields_updateRules di svcName).result hp

theorem updateCompactionStatus_through (henv : Obliging (settings svcName initial w.log) env)
    (hgoing : Going ingestion old di w) (hspec : getSpecJson di = .ok text)
    (hagrees : SpecAgrees text w)
    (hres : (exec (serve env) (updateCompactionStatus di svcName) w).res = .ok di') :
    let w' := (exec (serve env) (updateCompactionStatus di svcName) w).state
    Going ingestion old di' w' ∧ SpecAgrees text w' ∧
      CompactionSettled (settings svcName initial w'.log) di svcName := by
  obtain ⟨changed, hp, hgoing', hlog, hagrees', -⟩ :=
    hgoing.noted hspec (toDruid_updateCompaction di svcName) hres
  refine ⟨hgoing', hagrees' hagrees, ?_⟩
  have hsettled := exec_updateCompaction_ok henv hp
  rw [← hlog] at hsettled
  exact hsettled

theorem createTask_through (henv : Obliging (settings svcName initial w.log) env)
    (hspec : getSpecJson w.stored = .ok text) {y : OperationResult × DruidIngestion}
    (hres : (exec (serve env) (createTask w.stored svcName text) w).res = .ok y) :
    let w' := (exec (serve env) (createTask w.stored svcName text) w).state
    w'.stored.ingestion = w.stored.ingestion ∧ SpecAgrees text w' ∧
      CompactionSettled (settings svcName initial w'.log) w.stored svcName ∧
      w'.stored.status.currentRules =
        noteRules w.stored.ingestion.rules w.stored.status.currentRules := by
  unfold createTask at hres ⊢
  by_cases hurl : getPath w.stored.ingestion.type svcName .post "" false = ""
  · rw [httpDo, DruidApi.httpDo, if_pos hurl] at hres
    cases hres
  obtain ⟨resp, hanswer, -⟩ := henv.post _ text
  rw [exec_httpDo_bind hurl hanswer] at hres ⊢
  set w₁ := w.record ⟨.post, getPath w.stored.ingestion.type svcName .post "" false, text, .ok resp⟩
  have hlog₁ : settings svcName initial w₁.log = settings svcName initial w.log :=
    (settings_append ..).trans store_submission
  unfold finishCreate at hres ⊢
  -- the compaction
  obtain ⟨compactionOk, hcomp, hres, -⟩ := exec_bind_returned hres
  have hsettled := exec_updateCompaction_ok (by rwa [hlog₁]) hcomp
  obtain ⟨-, hstored₂⟩ := exec_toDruid env (toDruid_updateCompaction w.stored svcName) w₁
  rw [exec_bind_ok hcomp]
  set w₂ := (exec (serve env) (updateCompaction w.stored svcName) w₁).state
  -- the rules
  obtain ⟨rulesOk, hrules, hres, -⟩ := exec_bind_returned hres
  have hlog₃ := settings_of_unstored (w := w₂)
    (fun e he => (unstored_updateRules w.stored svcName).steps (h := serve env) he) initial
  obtain ⟨-, hstored₃⟩ := exec_toDruid env (toDruid_updateRules w.stored svcName) w₂
  rw [exec_bind_ok hrules]
  set w₃ := (exec (serve env) (updateRules w.stored svcName) w₂).state
  have hstored : w₃.stored = w.stored := hstored₃.trans hstored₂
  -- the patch
  cases htask : getTaskIdFromResponse resp.responseBody with
  | error e =>
      rw [htask] at hres
      cases hres
  | ok taskId =>
      simp only [htask, orReturn_ok, ret_bind, pure_eq, exec_bind_pure_state] at hres ⊢
      generalize (if resp.statusCode = 200 ∧ compactionOk = true ∧ rulesOk = true then
        createSuccess else createFail) = type at hres ⊢
      obtain ⟨di', hpatch, -⟩ := exec_bind_returned hres
      obtain ⟨-, hlog, hing, htext, hnoted⟩ := exec_makePatch_through hspec hpatch
      rw [hstored] at hing hnoted
      refine ⟨hing, ?_, ?_, hnoted⟩
      · rw [SpecAgrees, htext]
        exact isEqualJson_spec hspec
      · rwa [hlog, hlog₃]

/-- The spec is remembered, and Druid has the compaction settings. -/
structure Reached (svcName : String) (initial : String → Option String) (w : World) : Prop where
  spec : ∃ text, getSpecJson w.stored = .ok text ∧ SpecAgrees text w
  compaction : CompactionSettled (settings svcName initial w.log) w.stored svcName

/-- **A reconcile that went through.** The spec and the compaction agree, and the rules are
noted. -/
theorem reached_of_ok (henv : Obliging (settings svcName initial w.log) env)
    {y : OperationResult × DruidIngestion}
    (hres : (exec (serve env) (createOrUpdate w.stored svcName) w).res = .ok y) :
    Reached svcName initial (reconcile w svcName env) ∧
      (reconcile w svcName env).stored.ingestion = w.stored.ingestion ∧
      (reconcile w svcName env).stored.status.currentRules =
        noteRules w.stored.ingestion.rules w.stored.status.currentRules := by
  unfold reconcile
  unfold createOrUpdate at hres ⊢
  cases hspec : getSpecJson w.stored with
  | error e =>
      rw [hspec] at hres
      cases hres
  | ok text =>
      simp only [hspec, orReturn_ok, ret_bind] at hres ⊢
      split_ifs at hres ⊢ with hfresh
      · obtain ⟨hing, hagrees, hsettled, hrules⟩ := createTask_through henv hspec hres
        exact ⟨⟨⟨text, (getSpecJson_congr hing).trans hspec, hagrees⟩, hsettled.congr hing⟩, hing,
          hrules⟩
      · obtain ⟨di₁, hres₁, hres, -⟩ := exec_bind_returned hres
        obtain ⟨hgoing₁, hagrees₁, hlog₁⟩ := updateSpec_through henv hspec hres₁
        have hspec₁ := (getSpecJson_congr hgoing₁.read).trans hspec
        rw [exec_bind_ok hres₁]
        set w₁ := (exec (serve env) (updateSpec w.stored svcName text) w).state
        obtain ⟨di₂, hres₂, hres, -⟩ := exec_bind_returned hres
        obtain ⟨hgoing₂, hagrees₂, hsettled⟩ :=
          updateCompactionStatus_through (by rwa [hlog₁]) hgoing₁ hspec₁ hagrees₁ hres₂
        have hspec₂ := (getSpecJson_congr hgoing₂.read).trans hspec
        rw [exec_bind_ok hres₂]
        set w₂ := (exec (serve env) (updateCompactionStatus di₁ svcName) w₁).state
        obtain ⟨di₃, hres₃, -⟩ := exec_bind_returned hres
        simp only [pure_eq, exec_bind_pure_state]
        obtain ⟨hing, hagrees, hlog₃, hrules⟩ :=
          updateRulesStatus_through hgoing₂ hspec₂ hagrees₂ hres₃ initial
        refine ⟨⟨⟨text, (getSpecJson_congr hing).trans hspec, hagrees⟩, ?_⟩, hing, hrules⟩
        rw [hlog₃]
        exact hsettled.congr (hing.trans hgoing₁.read.symm)

end Through

/-! ## At rest -/

/-- The request changes something: it sends Druid something or patches the status. -/
def Disturbs : Req → Prop
  | .http method _ _ => method = .post
  | .patchStatus _ _ => True
  | _ => False

/-- The reconcile changes nothing. -/
def Quiet (svcName : String) (w : World) (env : Env) : Prop :=
  ∀ e ∈ (exec (serve env) (createOrUpdate w.stored svcName) w).steps, ¬ Disturbs e.req

theorem Asks.not_disturbs {r : Req} (hr : Asks r) : ¬ Disturbs r := by
  cases r with
  | http method url body =>
      intro hpost
      cases hr.symm.trans hpost
  | _ => exact hr.elim

theorem Asks.unstored {r : Req} (hr : Asks r) (svcName : String) : Unstored svcName r := by
  cases r with
  | http method url body => exact fun answer s => store_get hr
  | _ => exact hr.elim

section Rest

variable {env : Env} {svcName : String} {initial : String → Option String} {w : World}

theorem isFresh_of_agrees (hagrees : SpecAgrees text w) :
    ¬ (w.stored.status.taskId = "" ∧ w.stored.status.currentIngestionSpec = "") := by
  rintro ⟨-, hempty⟩
  rw [SpecAgrees, hempty] at hagrees
  have hnone : Json.unmarshal "" = none := by decide +kernel
  simp [isEqualJson, hnone] at hagrees

/-- Once the spec and the compaction agree, a reconcile asks for the compaction settings at most
before it comes to the rules. -/
theorem Reached.exec_eq (hreached : Reached svcName initial w)
    (henv : Obliging (settings svcName initial w.log) env) :
    ∃ w' asked, (∀ e ∈ asked, Asks e.req) ∧ w'.stored = w.stored ∧
      settings svcName initial w'.log = settings svcName initial w.log ∧
      exec (serve env) (createOrUpdate w.stored svcName) w =
        let o := exec (serve env) (updateRulesStatus w.stored svcName >>= fun di =>
          Prog.ret (OperationResult.updated, di)) w'
        ⟨o.res, o.state, asked ++ o.steps⟩ := by
  obtain ⟨text, hspec, hagrees⟩ := hreached.spec
  obtain ⟨hres, hasks⟩ := exec_updateCompaction_settled henv hreached.compaction w
  obtain ⟨-, hstored⟩ := exec_toDruid env (toDruid_updateCompaction w.stored svcName) w
  refine ⟨(exec (serve env) (updateCompaction w.stored svcName) w).state,
    (exec (serve env) (updateCompaction w.stored svcName) w).steps, hasks, hstored, ?_, ?_⟩
  · exact settings_of_unstored (fun e he => (hasks e he).unstored svcName) initial
  · unfold createOrUpdate updateSpec updateCompactionStatus
    rw [SpecAgrees] at hagrees
    simp only [hspec, orReturn_ok, ret_bind, if_neg (isFresh_of_agrees hagrees), hagrees, if_true,
      pure_eq, bind_assoc]
    rw [exec_bind_ok hres]
    rfl

/-- **Nothing changes at rest.** -/
theorem Reached.quiet (hreached : Reached svcName initial w)
    (hrules : w.stored.status.currentRules = w.stored.ingestion.rules)
    (henv : Obliging (settings svcName initial w.log) env) :
    Quiet svcName w env ∧ (reconcile w svcName env).stored = w.stored ∧
      settings svcName initial (reconcile w svcName env).log = settings svcName initial w.log := by
  obtain ⟨w', asked, hasked, hstored, hlog, hrun⟩ := hreached.exec_eq henv
  have hdone : updateRulesStatus w.stored svcName = .ret w.stored := if_pos hrules
  rw [hdone] at hrun
  refine ⟨?_, ?_, ?_⟩
  · intro e he
    rw [hrun] at he
    exact (hasked e (by simpa using he)).not_disturbs
  · rw [reconcile, hrun]
    exact hstored
  · rw [reconcile, hrun]
    exact hlog

/-- No rules to be sent, but others noted: the status is patched again. -/
theorem Reached.not_quiet (hreached : Reached svcName initial w)
    (hrules : w.stored.status.currentRules ≠ w.stored.ingestion.rules)
    (hnone : w.stored.ingestion.rules.getD [] = [])
    (henv : Obliging (settings svcName initial w.log) env) (hkube : ∀ n, env.kube n = none) :
    ¬ Quiet svcName w env := by
  obtain ⟨text, hspec, -⟩ := hreached.spec
  obtain ⟨w', asked, -, -, -, hrun⟩ := hreached.exec_eq henv
  intro hquiet
  unfold Quiet at hquiet
  rw [hrun] at hquiet
  simp only [updateRulesStatus, if_neg hrules, updateRules, if_pos hnone, pure_eq,
    ret_bind, if_true,
    makePatchDruidIngestionStatus, hspec, orReturn_ok, patchStatus, request, call_bind, exec_call,
    serve, hkube] at hquiet
  -- the object is read, the clock is read, and the third request is the patch
  exact hquiet _ (List.mem_append_right _ (List.mem_cons_of_mem _ (List.mem_cons_of_mem _
    List.mem_cons_self))) trivial

/-- The rules of the spec and those remembered are not such that one list is empty and the other
absent. -/
def RulesAlike (di : DruidIngestion) : Prop :=
  (di.ingestion.rules = some [] → di.status.currentRules = some []) ∧
    (di.ingestion.rules = none → di.status.currentRules ≠ some [])

/-- A Druid with these settings that takes everything and starts the task `index_1`. -/
def obligingEnv (s : String → Option String) : Env where
  druid method url _ :=
    match method with
    | .post => .ok ⟨"\x7b\"task\":\"index_1\"\x7d", 200⟩
    | .get =>
        match s url with
        | some text => .ok ⟨text, 200⟩
        | none => .ok ⟨"", 404⟩

theorem obliging_obligingEnv (s : String → Option String) : Obliging s (obligingEnv s) :=
  ⟨fun _ _ => ⟨_, rfl, rfl⟩, fun _ => rfl⟩

/-- **The controller comes to rest.** After a reconcile that went through, with a Druid that takes
and keeps what it is sent and nobody editing the object, no later reconcile sends Druid anything or
patches the status, exactly if an empty list of rules and an absent one did not meet. -/
theorem settles_iff (henv : Obliging (settings svcName initial w.log) env)
    {y : OperationResult × DruidIngestion}
    (hres : (exec (serve env) (createOrUpdate w.stored svcName) w).res = .ok y) :
    (∀ envs : List Env, Meets (reconcile · svcName ·)
        (fun w env => Obliging (settings svcName initial w.log) env)
          (reconcile w svcName env) envs →
      Meets (reconcile · svcName ·) (Quiet svcName) (reconcile w svcName env) envs) ↔
    RulesAlike w.stored := by
  obtain ⟨hreached, hing, hrules⟩ := reached_of_ok henv hres
  constructor
  · intro hquiet
    refine noteRules_eq_iff.1 ?_
    by_contra hne
    have hnone : w.stored.ingestion.rules.getD [] = [] := by
      rw [noteRules_eq_iff, not_and_or] at hne
      rcases hne with hne | hne
      · rw [(Classical.not_imp.1 hne).1]
        rfl
      · rw [(Classical.not_imp.1 hne).1]
        rfl
    have henv' := obliging_obligingEnv (settings svcName initial (reconcile w svcName env).log)
    refine hreached.not_quiet ?_
      (by rwa [hing]) henv' (fun _ => rfl) (hquiet [_] ⟨henv', trivial⟩).1
    rw [hrules, hing]
    exact hne
  · intro halike envs hmeets
    have hsettled : Reached svcName initial (reconcile w svcName env) ∧
        (reconcile w svcName env).stored.status.currentRules =
          (reconcile w svcName env).stored.ingestion.rules := by
      refine ⟨hreached, ?_⟩
      rw [hrules, hing]
      exact noteRules_eq_iff.2 halike
    -- a quiet reconcile leaves the object and the settings as they are
    refine Meets.ofInvariant (I := fun w => Reached svcName initial w ∧
      w.stored.status.currentRules = w.stored.ingestion.rules) ?_ hsettled hmeets
    rintro w env' - ⟨hreached, hsame⟩ henv'
    obtain ⟨hquiet, hstored, hlog⟩ := hreached.quiet hsame henv'
    refine ⟨⟨⟨?_, ?_⟩, ?_⟩, hquiet⟩
    · unfold SpecAgrees
      rw [hstored]
      exact hreached.spec
    · rw [hstored, hlog]
      exact hreached.compaction
    · rw [hstored]
      exact hsame

end Rest

/-! ### An empty list of rules -/

/-- With a rule the controller comes to rest after one reconcile. -/
theorem settles_wiki :
    (exec (serve (obligingEnv fun _ => none)) (createOrUpdate ruledWiki routerUrl)
      ⟨ruledWiki, [], 0⟩).res = .ok (.created, ruledWiki) ∧
    ∀ envs : List Env, Meets (reconcile · routerUrl ·)
      (fun w env => Obliging (settings routerUrl (fun _ => none) w.log) env)
      (reconcile ⟨ruledWiki, [], 0⟩ routerUrl (obligingEnv fun _ => none)) envs →
    Meets (reconcile · routerUrl ·) (Quiet routerUrl)
      (reconcile ⟨ruledWiki, [], 0⟩ routerUrl (obligingEnv fun _ => none)) envs := by
  have hres : (exec (serve (obligingEnv fun _ => none)) (createOrUpdate ruledWiki routerUrl)
      ⟨ruledWiki, [], 0⟩).res = .ok (.created, ruledWiki) := by decide +kernel
  refine ⟨hres, ?_⟩
  exact (settles_iff (w := ⟨ruledWiki, [], 0⟩) (obliging_obligingEnv fun _ => none) hres).2
    ⟨fun h => (by cases h), fun h => (by cases h)⟩

/-- The list of rules is there, but empty. -/
def emptyRulesWiki : DruidIngestion :=
  { wiki with ingestion := { wiki.ingestion with rules := some [] } }

def patches (r : Req) : Bool :=
  match r with
  | .patchStatus _ _ => true
  | _ => false

/-- With an empty list of rules the second reconcile patches the status again. -/
theorem empty_rules_patched :
    (exec (serve (obligingEnv fun _ => none)) (createOrUpdate emptyRulesWiki routerUrl)
      ⟨emptyRulesWiki, [], 0⟩).res = .ok (.created, emptyRulesWiki) ∧
    let w := reconcile ⟨emptyRulesWiki, [], 0⟩ routerUrl (obligingEnv fun _ => none)
    (exec (serve (obligingEnv (settings routerUrl (fun _ => none) w.log)))
      (createOrUpdate w.stored routerUrl) w).steps.any fun e => patches e.req := by
  decide +kernel

end DruidOperator.Ingestion
