import DruidOperator.IngestionLifecycle

/-!
# What a `do` submits

`do` calls `createOrUpdate` before it looks at the deletion timestamp. So whether a reconcile starts
an ingestion does not depend on the object being deleted: it does if the router is found and the
spec is not the remembered one.
-/

namespace DruidOperator.Ingestion

open Interaction Prog DruidApi Runs

/-! ## Submissions among the requests -/

/-- The exchange posts the text of a spec to a creation endpoint. -/
def Exchange.IsSubmission (e : Exchange) : Prop :=
  e.method = .post ∧ isCreation e.url = true ∧ IsMarshalled e.body

/-- The request submits nothing but what `sub` allows. -/
def Submitting (sub : String → String → Prop) : Req → Prop
  | .http method url body =>
      method = .post → isCreation url = true → IsMarshalled body → sub url body
  | _ => True

/-- What `createOrUpdate` may submit: the spec it was given. -/
def OwnSpec (di : DruidIngestion) (svcName url text : String) : Prop :=
  getSpecJson di = .ok text ∧ Submits di svcName text ∧
    url = getPath di.ingestion.type svcName .post "" false

theorem not_isMarshalled_arr (xs : List Json) : ¬ IsMarshalled (Json.toJsonString (.arr xs)) := by
  rintro ⟨_, x, hx, heq⟩
  exact Json.toJsonString_arr_ne_map (Json.unmarshalMap_cases hx) heq

theorem not_isMarshalled_empty : ¬ IsMarshalled "" := by
  rintro ⟨_, x, hx, heq⟩
  exact Json.toJsonString_map_ne_empty (Json.unmarshalMap_cases hx) heq.symm

section Requests

variable {sub : String → String → Prop} (di : DruidIngestion) (svcName : String)

theorem submitting_updateCompaction :
    (updateCompaction di svcName).Uses (Submitting sub) := by
  refine uses_updateCompaction di (fun url hpost => by cases hpost) fun body _ _ _ hurl => ?_
  rw [isCreation_compaction] at hurl
  cases hurl

theorem submitting_updateRules : (updateRules di svcName).Uses (Submitting sub) :=
  uses_updateRules di svcName fun _ xs _ _ hbody => absurd hbody (not_isMarshalled_arr xs)

theorem submitting_makePatch (taskId msg reason : String) (status : ConditionStatus)
    (type : String) :
    (makePatchDruidIngestionStatus di taskId msg reason status type).Uses (Submitting sub) :=
  uses_makePatch (fun _ _ => trivial) trivial (fun _ _ => trivial) ..

theorem submitting_httpDo {text : String} (hspec : getSpecJson di = .ok text)
    (hdiffers : isFresh di = true ∨ isEqualJson di.status.currentIngestionSpec text = .ok false) :
    (httpDo .post (getPath di.ingestion.type svcName .post "" false) text).Uses
      (Submitting (OwnSpec di svcName)) := by
  unfold httpDo DruidApi.httpDo
  split_ifs with hurl
  · trivial
  · exact ⟨fun _ _ _ => ⟨hspec, ⟨hurl, hdiffers⟩, rfl⟩, fun x => uses_orReturn x⟩

theorem submitting_createOrUpdate :
    (createOrUpdate di svcName).Uses (Submitting (OwnSpec di svcName)) := by
  unfold createOrUpdate
  cases hspec : getSpecJson di with
  | error e => trivial
  | ok text =>
      simp only [orReturn_ok, ret_bind]
      split_ifs with hfresh
      · refine (submitting_httpDo di svcName hspec (.inl (decide_eq_true hfresh))).bind
          fun resp => ?_
        refine (submitting_updateCompaction di svcName).bind fun compactionOk => ?_
        refine (submitting_updateRules di svcName).bind fun rulesOk => ?_
        refine (uses_orReturn _).bind fun taskId => ?_
        exact (submitting_makePatch ..).bind fun di => trivial
      · refine Uses.bind ?_ fun di₁ => Uses.bind ?_ fun di₂ => Uses.bind ?_ fun di₃ => trivial
        · unfold updateSpec
          simp only [hspec, orReturn_ok, ret_bind]
          cases heq : isEqualJson di.status.currentIngestionSpec text with
          | error e => trivial
          | ok same =>
              cases same with
              | true => trivial
              | false =>
                  refine (submitting_httpDo di svcName hspec (.inr heq)).bind fun resp => ?_
                  split_ifs
                  · exact (uses_orReturn _).bind fun taskId => submitting_makePatch ..
                  · trivial
        · refine (submitting_updateCompaction di₁ svcName).bind fun compactionOk => ?_
          split_ifs
          · exact submitting_makePatch ..
          · trivial
        · unfold updateRulesStatus
          split_ifs
          · trivial
          · refine (submitting_updateRules di₂ svcName).bind fun rulesOk => ?_
            split_ifs
            · exact submitting_makePatch ..
            · trivial

end Requests

/-! ## The exchanges of a `do` -/

def DoSubmitting (sub : String → String → Prop) : DoReq → Prop
  | .ingest r => Submitting sub r
  | _ => True

theorem submitting_finishDo (di : DruidIngestion) :
    (finishDo di).Uses (DoSubmitting fun _ _ => False) := by
  have hupdate : ∀ di, (updateObject di).Uses (DoSubmitting fun _ _ => False) :=
    fun di => ⟨trivial, fun x => trivial⟩
  unfold finishDo registerFinalizer shutDown
  split_ifs
  · trivial
  · exact hupdate _
  · refine Uses.bind ⟨trivial, fun x => (uses_orReturn x).bind fun _ => uses_orReturn _⟩
      fun svcName => ?_
    refine Uses.bind ?_ fun resp => hupdate _
    refine Uses.embed (uses_httpDo (φ := Submitting fun _ _ => False) fun _ _ hbody => ?_)
      fun r hr => hr
    exact not_isMarshalled_empty hbody
  · trivial

/-- The exchanges grew by ones whose submissions `sub` allows, all answered as `env` says. -/
def Grows (env : Env) (sub : String → String → Prop) (log log' : List Exchange) : Prop :=
  ∃ new, log' = log ++ new ∧ ∀ e ∈ new, e.IsSubmission →
    sub e.url e.body ∧ e.answer = env.druid e.method e.url e.body

theorem Grows.trans {env : Env} {sub : String → String → Prop} {l₁ l₂ l₃ : List Exchange}
    (h₁ : Grows env sub l₁ l₂) (h₂ : Grows env sub l₂ l₃) : Grows env sub l₁ l₃ := by
  obtain ⟨n₁, rfl, hn₁⟩ := h₁
  obtain ⟨n₂, rfl, hn₂⟩ := h₂
  refine ⟨n₁ ++ n₂, List.append_assoc .., fun e he hsub => ?_⟩
  rcases List.mem_append.1 he with he | he
  · exact hn₁ e he hsub
  · exact hn₂ e he hsub

theorem Grows.refl (env : Env) (sub : String → String → Prop) (log : List Exchange) :
    Grows env sub log log := ⟨[], by simp, by simp⟩

theorem grows_serveDo {sub : String → String → Prop} {r : DoReq} (hr : DoSubmitting sub r)
    (env : DoEnv) (s : Server) :
    Grows env.toEnv sub s.world.log (serveDo env r s).2.world.log := by
  cases r with
  | ingest r =>
      cases r with
      | http method url body =>
          refine ⟨[_], rfl, fun e he hsub => ?_⟩
          rw [List.mem_singleton.1 he] at hsub ⊢
          exact ⟨hr hsub.1 hsub.2.1 hsub.2.2, rfl⟩
      | get ns name =>
          simp only [serveDo, serveIngest, serve]
          split_ifs
          · exact .refl ..
          · split <;> exact .refl ..
      | patchStatus base modified =>
          simp only [serveDo, serveIngest, serve]
          split_ifs
          · exact .refl ..
          · split <;> exact .refl ..
      | now => exact .refl ..
  | getSecret ns name =>
      simp only [serveDo]
      split <;> exact .refl ..
  | listServices ns druidCr component =>
      simp only [serveDo]
      split <;> exact .refl ..
  | update di =>
      simp only [serveDo]
      split
      · exact .refl ..
      · split_ifs <;> exact .refl ..

theorem grows_of_uses {α : Type} {sub : String → String → Prop} {p : DoM α}
    (hp : p.Uses (DoSubmitting sub)) (env : DoEnv) (s : Server) :
    Grows env.toEnv sub s.world.log (exec (serveDo env) p s).state.world.log := by
  have htriple : Triple (serveDo env) (fun s' : Server =>
      Grows env.toEnv sub s.world.log s'.world.log)
      p (fun _ s' => Grows env.toEnv sub s.world.log s'.world.log) fun _ => True :=
    Triple.ofUses (hp.mono fun r hr s' hs' => ⟨hs'.trans (grows_serveDo hr env s'), trivial⟩)
  exact (htriple s (.refl ..)).1

/-- A `do` that reaches Druid submits nothing but the spec of its object. -/
theorem grows_do {env : DoEnv} {di : DruidIngestion} {s : Server} {svcName : String}
    (h : reaches env di s.world.calls = some svcName) :
    Grows env.toEnv (OwnSpec di svcName) s.world.log
      (exec (serveDo env) (doIngestion di) s).state.world.log := by
  rw [(exec_do_reached h).2]
  refine grows_of_uses (s := s.called (lookups di)) (Uses.bind ?_ fun y => ?_) env
  · exact (submitting_createOrUpdate di svcName).embed fun r hr => hr
  · refine (submitting_finishDo y.2).mono fun r hr => ?_
    cases r with
    | ingest r =>
        cases r with
        | http method url body => exact fun hm hu hb => (hr hm hu hb).elim
        | _ => trivial
    | _ => trivial

/-! ## Objects that are being deleted -/

/-- What one `do` on the stored object exchanges with Druid. -/
def doExchanges (env : DoEnv) (s : Server) : List Exchange :=
  (exec (serveDo env) (doIngestion s.world.stored) s).state.world.log.drop s.world.log.length

/-- A `do` whose first Kubernetes request is the `n`-th finds the router, and a spec other than the
remembered one that it has an endpoint for. -/
def startsIngestion (env : DoEnv) (di : DruidIngestion) (n : ℕ) : Bool :=
  match reaches env di n, getSpecJson di with
  | some svcName, .ok text => decide (Submits di svcName text)
  | _, _ => false

theorem startsIngestion_iff {env : DoEnv} {di : DruidIngestion} {n : ℕ} :
    startsIngestion env di n = true ↔ ∃ svcName text, reaches env di n = some svcName ∧
      getSpecJson di = .ok text ∧ Submits di svcName text := by
  unfold startsIngestion
  cases reaches env di n with
  | none => simp
  | some svcName =>
      cases getSpecJson di with
      | error e => simp
      | ok text => simp

/-- `createOrUpdate` inside `do` is a reconcile of the world as it is then. -/
theorem exec_embed_createOrUpdate {s : Server} (hgone : s.gone = false) (env : DoEnv)
    (di : DruidIngestion) (svcName : String) :
    let o := exec (serveDo env) ((createOrUpdate di svcName).embed ingestEmbedding) s
    let o' := exec (serve env.toEnv) (createOrUpdate di svcName) s.world
    o.res = o'.res ∧ o.state = ⟨o'.state, false⟩ :=
  (simulates_serve env).exec_embed (createOrUpdate di svcName) (hgone ▸ rfl)

theorem submission_isSubmission {env : Env} {di : DruidIngestion} {svcName text : String}
    (hspec : getSpecJson di = .ok text) (hsub : Submits di svcName text) :
    (submission env di svcName text).IsSubmission :=
  ⟨rfl, isCreation_getPath hsub.1, getSpecJson_eq_map hspec⟩

theorem submission_mem_doExchanges {env : DoEnv} {s : Server} {svcName text : String}
    (hgone : s.gone = false) (hreach : reaches env s.world.stored s.world.calls = some svcName)
    (hspec : getSpecJson s.world.stored = .ok text) (hsub : Submits s.world.stored svcName text) :
    submission env.toEnv s.world.stored svcName text ∈ doExchanges env s := by
  have hrest : ∀ y : OperationResult × DruidIngestion,
      (finishDo y.2).Uses (DoSubmitting fun _ _ => False) := fun y => submitting_finishDo y.2
  set s₁ := s.called (lookups s.world.stored) with hs₁
  obtain ⟨hmoves, -⟩ := reconcile_submits (w := s₁.world) hspec hsub env.toEnv
  obtain ⟨new, hnew, -⟩ := hmoves.log
  obtain ⟨-, hstate⟩ := exec_embed_createOrUpdate (s := s₁) hgone env s.world.stored svcName
  have hlog : ∃ new', (exec (serveDo env) (doIngestion s.world.stored) s).state.world.log =
      (reconcile s₁.world svcName env.toEnv).log ++ new' := by
    rw [(exec_do_reached hreach).2]
    cases hres : (exec (serveDo env) ((createOrUpdate s.world.stored svcName).embed
        ingestEmbedding) s₁).res with
    | error e =>
        rw [exec_bind_error hres, hstate]
        exact ⟨[], by simp [reconcile, hs₁, Server.called]⟩
    | ok y =>
        rw [exec_bind_ok hres, hstate]
        obtain ⟨new', hnew', -⟩ := grows_of_uses (hrest y) env
          ⟨(exec (serve env.toEnv) (createOrUpdate s.world.stored svcName) s₁.world).state, false⟩
        exact ⟨new', hnew'⟩
  obtain ⟨new', hlog⟩ := hlog
  have hrecord : (reconcile s₁.world svcName env.toEnv).log =
      s.world.log ++ submission env.toEnv s.world.stored svcName text :: new := by
    rw [hnew]
    simp [World.record, hs₁, Server.called]
  rw [doExchanges, hlog, hrecord, List.append_assoc, List.drop_left]
  exact List.mem_cons_self

/-- **Deletion does not hold a `do` back.** Whatever the object, its deletion timestamp included:
the `do` submits no spec exactly if it does not reach Druid, or the spec has no text or no endpoint,
or it is the remembered one. -/
theorem submits_nothing_iff {env : DoEnv} {s : Server} (hgone : s.gone = false) :
    (∀ e ∈ doExchanges env s, ¬ e.IsSubmission) ↔
      startsIngestion env s.world.stored s.world.calls = false := by
  rw [← Bool.not_eq_true, startsIngestion_iff]
  constructor
  · rintro hnone ⟨svcName, text, hreach, hspec, hsub⟩
    exact hnone _ (submission_mem_doExchanges hgone hreach hspec hsub)
      (submission_isSubmission hspec hsub)
  · intro hnot e he hsub
    cases hreach : reaches env s.world.stored s.world.calls with
    | none =>
        obtain ⟨-, n, hstate⟩ := exec_do_unreached hreach
        rw [doExchanges, hstate] at he
        simp [Server.called] at he
    | some svcName =>
        obtain ⟨new, hlog, hown⟩ := grows_do hreach
        rw [doExchanges, hlog, List.drop_left] at he
        obtain ⟨⟨hspec, hsubmits, -⟩, -⟩ := hown e he hsub
        exact hnot ⟨svcName, e.body, hreach, hspec, hsubmits⟩

/-- Druid starts the task `t`, and the cluster has a router. -/
def routedEnv (t : String) : DoEnv where
  druid := fun _ url _ =>
    .ok ⟨if isCreation url then "\x7b\"task\":\"" ++ t ++ "\"\x7d" else "\x7b\x7d", 200⟩
  secrets := fun _ _ => .ok ∅
  services := fun _ => ["r"]

/-- The wiki without compaction settings. -/
def plainWiki : DruidIngestion :=
  { wiki with ingestion := { wiki.ingestion with compaction := {} } }

/-- The wiki was ingested, and is deleted while another controller holds on to it. -/
def deletedWiki : Server :=
  run lifeStep ⟨⟨plainWiki, [], 0⟩, false⟩
    [.others ["backup/protect"], .reconcile (routedEnv "index_1"), .delete 1]

theorem submits_nothing_wiki : deletedWiki.gone = false ∧
    ∀ e ∈ doExchanges (routedEnv "index_2") deletedWiki, ¬ e.IsSubmission := by
  have hgone : deletedWiki.gone = false := by decide +kernel
  exact ⟨hgone, (submits_nothing_iff hgone).2 (by decide +kernel)⟩

/-- The spec was edited before the deletion: the reconcile of the deleted object submits it. -/
theorem deleted_but_submitted :
    let s := run lifeStep ⟨⟨plainWiki, [], 0⟩, false⟩ [.others ["backup/protect"],
      .reconcile (routedEnv "index_1"), .edit editedWiki, .delete 1]
    s.gone = false ∧ s.world.stored.deletionTimestamp = some 1 ∧
      ∃ e ∈ doExchanges (routedEnv "index_2") s, e.IsSubmission := by
  intro s
  obtain ⟨hgone, hdel, htext, e, he, hpost⟩ : s.gone = false ∧
      s.world.stored.deletionTimestamp = some 1 ∧
      getSpecJson s.world.stored = .ok editedText ∧
      ∃ e ∈ doExchanges (routedEnv "index_2") s, e.posts editedText = true := by decide +kernel
  simp only [Exchange.posts, Bool.and_eq_true, decide_eq_true_eq] at hpost
  exact ⟨hgone, hdel, e, he, hpost.1.1, hpost.1.2, hpost.2 ▸ getSpecJson_eq_map htext⟩

end DruidOperator.Ingestion
