import DruidOperator.ApiServer
import DruidOperator.IngestionLifecycle
import DruidOperator.Lib.Locking

/-!
# What the ingestion controller writes

`Reconcile` reads the object from a cache, talks to Druid, and ends with an `Update` of the whole
object it holds in memory, with the finalizer added or taken away. Users and other controllers write
the object at any time, and the cache shows their writes late. The API server numbers the versions
and refuses an `Update` that is not made from the stored one.

* `Bench`, `Around` — the object with its cache, and all that happens around the operator.
* `UpdatesRead` — what an `Update` sends, as far as the program alone decides it.
* `Tends` — what the operator may do to the stored object: note the status, register its finalizer,
  and release it once Druid has answered the shutdown of the task.
* `object_tended` — it does nothing else, in any interleaving.
-/

namespace DruidOperator.Ingestion

open Interaction Prog DruidApi Runs

variable {s : Register DruidIngestion} {di : DruidIngestion}

/-! ## Reconcile -/

/-- `Reconcile`. -/
def reconcileRequest (ns name : String) : DoM Result := do
  match ← request (S := doSig) (.ingest (.get ns name)) with
  | .error err => if err.notFound then return .done else .exit (.error err)
  | .ok di => do
      doIngestion di
      return .requeueAfter

/-! ## The servers -/

structure Bench where
  register : Register DruidIngestion
  /-- The number of requests so far. -/
  requests : ℕ := 0

/-- What happens around the operator, by the number of the request it happens at. -/
structure Around where
  druid : ℕ → Method → String → String → Except Error Response
  /-- How a request to Kubernetes fails, if it does. -/
  fault : ℕ → Option Kube.Fault := fun _ => none
  /-- What others write just before the request, where `some none` deletes the object for good. -/
  write : ℕ → Option (Option DruidIngestion) := fun _ => none
  /-- The number of versions the cache catches up before the request. -/
  sync : ℕ → ℕ := fun _ => 0
  clock : ℕ → Int := fun _ => 0
  secrets : ℕ → Except Error StrMap := fun _ => .ok ∅
  services : ℕ → Except Error (List String) := fun _ => .ok []

/-- The object under the next number. -/
def numbered (s : Register DruidIngestion) (di : DruidIngestion) : DruidIngestion :=
  { di with resourceVersion := s.version + 1 }

/-- What is there when the next request is served. -/
def Bench.next (o : Around) (s : Bench) : Bench where
  register := ((o.write s.requests).elim s.register fun v =>
    s.register.put (v.map (numbered s.register))).sync (o.sync s.requests)
  requests := s.requests + 1

/-- A patch of the status. -/
def performPatch (base modified : DruidIngestion) (s : Register DruidIngestion) :
    Except Error Unit × Register DruidIngestion :=
  match s.stored with
  | none => (.error notFound, s)
  | some stored => (.ok (), s.put (some (numbered s { stored with
      status := applyStatusPatch base.status modified.status stored.status })))

/-- An object that is being deleted goes with its last finalizer. -/
def kept (di : DruidIngestion) : Option DruidIngestion :=
  if di.deletionTimestamp.isSome && di.finalizers.isEmpty then none else some di

/-- An `Update`. -/
def performUpdate (di : DruidIngestion) (s : Register DruidIngestion) :
    Except Error Unit × Register DruidIngestion :=
  match s.stored with
  | none => (.error notFound, s)
  | some stored =>
      if di.resourceVersion ≠ stored.resourceVersion then (.error conflict, s)
      else (.ok (), s.put (kept (numbered s (updated stored di))))

/-- A write, and how it may fail. -/
def Bench.attempt (o : Around) (s : Bench)
    (perform : Register DruidIngestion → Except Error Unit × Register DruidIngestion) :
    Except Error Unit × Bench :=
  match o.fault s.requests with
  | none =>
      ((perform (s.next o).register).1,
        { s.next o with register := (perform (s.next o).register).2 })
  | some f => (.error f.err, if f.applied then
      { s.next o with register := (perform (s.next o).register).2 } else s.next o)

def serveBench (o : Around) : Handler doSig Bench
  | .ingest (.http method url body), s => (o.druid s.requests method url body, s.next o)
  | .ingest (.get _ _), s =>
      (match o.fault s.requests with
        | some f => .error f.err
        | none => (s.next o).register.object.seen.elim (.error notFound) .ok, s.next o)
  | .ingest (.patchStatus base modified), s => s.attempt o (performPatch base modified)
  | .ingest .now, s => (o.clock s.requests, s.next o)
  | .getSecret _ _, s => (o.secrets s.requests, s.next o)
  | .listServices _ _ _, s => (o.services s.requests, s.next o)
  | .update di, s => s.attempt o (performUpdate di)

/-! ## What the program sends -/

abbrev DoTalk := List (Answered doSig)

/-- The object was read in the conversation. -/
def WasReadIn (talk : DoTalk) (di : DruidIngestion) : Prop :=
  ∃ ns name, (⟨.ingest (.get ns name), .ok di⟩ : Answered doSig) ∈ talk

/-- Druid has answered the shutdown of the task of the object. -/
def ShutDownIn (talk : DoTalk) (di : DruidIngestion) : Prop :=
  ∃ svcName resp, (⟨.ingest (.http .post
    (getPath di.ingestion.type svcName .post di.status.taskId true) ""),
      .ok resp⟩ : Answered doSig) ∈ talk

def registered (di : DruidIngestion) : DruidIngestion :=
  { di with finalizers := di.finalizers ++ [druidIngestionControllerFinalizer] }

def released (di : DruidIngestion) : DruidIngestion :=
  { di with finalizers := di.finalizers.filter (· ≠ druidIngestionControllerFinalizer) }

/-- An object that may be sent after the conversation. -/
inductive Sendable (talk : DoTalk) : DruidIngestion → Prop where
  | registered {di : DruidIngestion} (hread : WasReadIn talk di)
      (hlive : di.deletionTimestamp = none)
      (hnew : druidIngestionControllerFinalizer ∉ di.finalizers) : Sendable talk (registered di)
  | released {di : DruidIngestion} (hread : WasReadIn talk di)
      (hgoing : di.deletionTimestamp ≠ none)
      (hheld : druidIngestionControllerFinalizer ∈ di.finalizers) (hdown : ShutDownIn talk di) :
      Sendable talk (released di)

/-- The request is no `Update`. -/
def NoUpdate (r : DoReq) : Prop := ∀ sent, r ≠ .update sent

/-- An `Update` sends an object that may be sent after what was said before. -/
def UpdatesRead (before : DoTalk) (a : Answered doSig) : Prop :=
  ∀ sent, a.req = .update sent → Sendable before sent

section Talk

variable {first talk more : DoTalk} {di : DruidIngestion}

theorem WasReadIn.mono (h : WasReadIn talk di) (hsub : talk ⊆ more) : WasReadIn more di := by
  obtain ⟨ns, name, hmem⟩ := h
  exact ⟨ns, name, hsub hmem⟩

theorem follows_quiet (h : ∀ a ∈ talk, NoUpdate a.req) : Follows UpdatesRead first talk :=
  .of_forall fun a ha _ sent heq => absurd heq (h a ha sent)

/-! ### `createOrUpdate` -/

/-- The object given, or one that was read. -/
def GivenOrRead (di : DruidIngestion) (talk : List (Answered sig)) (di' : DruidIngestion) : Prop :=
  di' = di ∨ ∃ ns name, (⟨.get ns name, .ok di'⟩ : Answered sig) ∈ talk

/-- A program that returns the object it was given, or one it has read, as part of its result. -/
def ReturnsRead {α : Type} (object : α → DruidIngestion) (di : DruidIngestion) (p : IngestM α) :
    Prop :=
  p.Converses fun talk x => ∀ a, x = .ok a → GivenOrRead di talk (object a)

theorem returnsRead_ret {α : Type} {object : α → DruidIngestion} {a : α} (h : object a = di) :
    ReturnsRead object di (.ret a) := by
  intro a' ha'
  cases ha'
  exact .inl h

theorem ReturnsRead.bind {α β : Type} {object : β → DruidIngestion} {p : IngestM α}
    {f : α → IngestM β} (hf : ∀ a, ReturnsRead object di (f a)) :
    ReturnsRead object di (p >>= f) := by
  refine (Converses.ofUses (uses_of_forall p fun _ => trivial)).bind
    (fun talk e _ b h => by cases h)
    fun talk a _ => ?_
  refine (hf a).mono fun more x hx b h => (hx b h).imp_right ?_
  rintro ⟨ns, name, hmem⟩
  exact ⟨ns, name, List.mem_append_right _ hmem⟩

theorem ReturnsRead.seq {β : Type} {object : β → DruidIngestion} {p : IngestM DruidIngestion}
    {f : DruidIngestion → IngestM β} (hp : ReturnsRead id di p)
    (hf : ∀ di, ReturnsRead object di (f di)) : ReturnsRead object di (p >>= f) := by
  refine Converses.bind hp (fun talk e _ b h => by cases h) fun talk di₁ hdi₁ => ?_
  refine (hf di₁).mono fun more x hx b h => ?_
  rcases hx b h with hsame | ⟨ns, name, hmem⟩
  · rw [hsame]
    refine (hdi₁ di₁ rfl).imp_right ?_
    rintro ⟨ns, name, hmem⟩
    exact ⟨ns, name, List.mem_append_left _ hmem⟩
  · exact .inr ⟨ns, name, List.mem_append_right _ hmem⟩

theorem returnsRead_patchStatus (di : DruidIngestion)
    (transform : DruidIngestion → Int → DruidIngestion) :
    ReturnsRead id di (patchStatus di transform) := by
  intro x
  cases x with
  | error err => exact fun di' h => by cases h
  | ok obj =>
      intro now x
      cases x with
      | error err => exact fun di' h => by cases h
      | ok _ =>
          intro di' h
          cases h
          exact .inr ⟨di.ns, di.name, List.mem_cons_self⟩

theorem returnsRead_makePatch (di : DruidIngestion) (taskId msg reason : String)
    (status : ConditionStatus) (type : String) :
    ReturnsRead id di (makePatchDruidIngestionStatus di taskId msg reason status type) :=
  ReturnsRead.bind fun _ => returnsRead_patchStatus di _

theorem returnsRead_updateSpec (di : DruidIngestion) (svcName specJson : String) :
    ReturnsRead id di (updateSpec di svcName specJson) := by
  refine ReturnsRead.bind fun _ => ReturnsRead.bind fun ok => ?_
  split_ifs
  · exact returnsRead_ret rfl
  · refine ReturnsRead.bind fun resp => ?_
    split_ifs
    · exact ReturnsRead.bind fun taskId => returnsRead_makePatch ..
    · exact returnsRead_ret rfl

theorem returnsRead_updateCompactionStatus (di : DruidIngestion) (svcName : String) :
    ReturnsRead id di (updateCompactionStatus di svcName) := by
  refine ReturnsRead.bind fun compactionOk => ?_
  split_ifs
  · exact returnsRead_makePatch ..
  · exact returnsRead_ret rfl

theorem returnsRead_updateRulesStatus (di : DruidIngestion) (svcName : String) :
    ReturnsRead id di (updateRulesStatus di svcName) := by
  unfold updateRulesStatus
  split_ifs
  · exact returnsRead_ret rfl
  · refine ReturnsRead.bind fun rulesOk => ?_
    split_ifs
    · exact returnsRead_makePatch ..
    · exact returnsRead_ret rfl

/-- **`createOrUpdate` returns the object it was given, or one it has read.** -/
theorem returnsRead_createOrUpdate (di : DruidIngestion) (svcName : String) :
    ReturnsRead Prod.snd di (createOrUpdate di svcName) := by
  refine ReturnsRead.bind fun specJson => ?_
  split_ifs
  · refine ReturnsRead.bind fun resp => ReturnsRead.bind fun _ => ReturnsRead.bind fun _ => ?_
    refine ReturnsRead.bind fun taskId => ?_
    exact (returnsRead_makePatch ..).seq fun _ => returnsRead_ret rfl
  · refine (returnsRead_updateSpec di svcName specJson).seq fun di => ?_
    refine (returnsRead_updateCompactionStatus di svcName).seq fun di => ?_
    refine (returnsRead_updateRulesStatus di svcName).seq fun di => ?_
    exact returnsRead_ret rfl

/-- Inside `do`, nothing is updated meanwhile. -/
theorem converses_embed_createOrUpdate (di : DruidIngestion) (svcName : String) :
    ((createOrUpdate di svcName).embed ingestEmbedding).Converses fun talk x =>
      Follows UpdatesRead first talk ∧ ∀ a, x = .ok a → a.2 = di ∨ WasReadIn talk a.2 := by
  refine (returnsRead_createOrUpdate di svcName).embed.mono ?_
  rintro talk x ⟨own, hover, hx⟩
  refine ⟨follows_quiet fun a ha sent h => ?_, fun a hxa => (hx a hxa).imp_right ?_⟩
  · obtain ⟨r, y, rfl⟩ := hover.embedded a ha
    cases h
  · rintro ⟨ns, name, hmem⟩
    obtain ⟨y, hy, hmem'⟩ := hover.said _ hmem
    exact ⟨ns, name, (show .ok a.2 = y from hy) ▸ hmem'⟩

/-! ### `Reconcile` -/

theorem converses_quiet_bind {α β : Type} {p : DoM α} {f : α → DoM β} (hp : p.Uses NoUpdate)
    (hf : ∀ talk a, (f a).Converses fun more _ => Follows UpdatesRead (first ++ talk) more) :
    (p >>= f).Converses fun talk _ => Follows UpdatesRead first talk := by
  refine (Converses.ofUses hp).bind (fun talk e hquiet => follows_quiet hquiet)
    fun talk a hquiet => ?_
  exact (hf talk a).mono fun more _ hmore => (follows_quiet hquiet).append hmore

theorem noUpdate_getRouterSvcUrl (ns druidClusterName : String) :
    (getRouterSvcUrl ns druidClusterName).Uses NoUpdate :=
  Uses.bind (Uses.bind ⟨(fun _ h => by cases h), fun _ => trivial⟩ uses_orReturn)
    fun _ => uses_orReturn _

theorem noUpdate_getAuthCreds (auth : Auth) : (getAuthCreds auth).Uses NoUpdate := by
  unfold getAuthCreds DruidApi.getAuthCreds
  split_ifs
  · exact Uses.bind (Uses.bind ⟨(fun _ h => by cases h), fun _ => trivial⟩ uses_orReturn)
      fun _ => uses_orReturn _
  · trivial

theorem converses_updateObject {sent : DruidIngestion} (h : Sendable first sent) :
    (updateObject sent).Converses fun talk _ => Follows UpdatesRead first talk := by
  refine fun _ => .cons (fun sent' heq => ?_) .nil
  cases heq
  exact h

/-- The shutdown is answered before the finalizer is given up. -/
theorem converses_shutDown (hread : WasReadIn first di) (hgoing : di.deletionTimestamp ≠ none) :
    (shutDown di).Converses fun talk _ => Follows UpdatesRead first talk := by
  unfold shutDown
  split_ifs with hheld
  · refine converses_quiet_bind (noUpdate_getRouterSvcUrl _ _) fun talk svcName => ?_
    unfold httpDo DruidApi.httpDo
    split_ifs with hurl
    · exact .nil
    · intro x
      have hquiet : Follows UpdatesRead (first ++ talk) [⟨.ingest (.http .post
          (getPath di.ingestion.type svcName .post di.status.taskId true) ""), x⟩] :=
        .cons (fun sent h => by cases h) .nil
      cases x with
      | error err => exact hquiet
      | ok resp =>
          refine (converses_updateObject (Sendable.released (hread.mono ?_) hgoing hheld ?_)).mono
            fun more _ hmore => hquiet.append hmore
          · exact fun a ha => List.mem_append_left _ (List.mem_append_left _ ha)
          · exact ⟨svcName, resp, List.mem_append_right _ (List.mem_singleton_self _)⟩
  · exact .nil

theorem converses_finishDo (hread : WasReadIn first di) :
    (finishDo di).Converses fun talk _ => Follows UpdatesRead first talk := by
  unfold finishDo
  split_ifs with hlive
  · unfold registerFinalizer
    split_ifs with hheld
    · exact .nil
    · exact converses_updateObject (.registered hread hlive hheld)
  · exact converses_shutDown hread hlive

theorem converses_doIngestion (hread : WasReadIn first di) :
    (doIngestion di).Converses fun talk _ => Follows UpdatesRead first talk := by
  refine converses_quiet_bind (noUpdate_getAuthCreds _) fun credentials _ => ?_
  refine converses_quiet_bind (noUpdate_getRouterSvcUrl _ _) fun router svcName => ?_
  refine (converses_embed_createOrUpdate di svcName).bind (fun talk e h => h.1) ?_
  rintro talk ⟨result, di'⟩ ⟨hupdates, hdi'⟩
  have hread' : WasReadIn (first ++ credentials ++ router ++ talk) di' := by
    rcases hdi' _ rfl with rfl | hread'
    · refine hread.mono fun a ha => ?_
      exact List.mem_append_left _ (List.mem_append_left _ (List.mem_append_left _ ha))
    · exact hread'.mono (List.subset_append_right _ _)
  exact (converses_finishDo hread').mono fun more _ hmore => hupdates.append hmore

/-- **Every `Update` of a reconcile** sends an object that was read, but for the finalizer. -/
theorem converses_reconcileRequest (ns name : String) :
    (reconcileRequest ns name).Converses fun talk _ => Follows UpdatesRead [] talk := by
  intro x
  have hquiet : Follows UpdatesRead [] [⟨.ingest (.get ns name), x⟩] :=
    .cons (fun sent h => by cases h) .nil
  cases x with
  | error err =>
      show (if err.notFound then _ else _ : DoM Result).Converses _
      split_ifs
      · exact hquiet
      · exact hquiet
  | ok di =>
      have hread : WasReadIn [⟨.ingest (.get ns name), .ok di⟩] di :=
        ⟨ns, name, List.mem_singleton_self _⟩
      refine ((converses_doIngestion hread).bind (fun _ _ h => h) fun talk _ h => ?_).mono
        fun more _ hmore => hquiet.append hmore
      exact h.append .nil

end Talk

/-! ## What the servers keep -/

/-- What is numbered stays so, and what is known stays known. -/
structure KeepsKnown (s t : Register DruidIngestion) : Prop where
  numbered : s.Numbered DruidIngestion.resourceVersion → t.Numbered DruidIngestion.resourceVersion
  known : ∀ di, s.Known DruidIngestion.resourceVersion di →
    t.Known DruidIngestion.resourceVersion di

theorem KeepsKnown.refl (s : Register DruidIngestion) : KeepsKnown s s := ⟨id, fun _ => id⟩

theorem KeepsKnown.trans {t u : Register DruidIngestion} (h : KeepsKnown s t)
    (h' : KeepsKnown t u) :
    KeepsKnown s u :=
  ⟨fun hs => h'.numbered (h.numbered hs), fun di hdi => h'.known di (h.known di hdi)⟩

section Servers

variable {o : Around}

theorem keepsKnown_put {v : Option DruidIngestion} (hv : s.Fresh DruidIngestion.resourceVersion v) :
    KeepsKnown s (s.put v) :=
  ⟨fun hs => hs.put hv, fun _ hdi => hdi.put hv⟩

theorem fresh_numbered (s : Register DruidIngestion) (v : Option DruidIngestion) :
    s.Fresh DruidIngestion.resourceVersion (v.map (numbered s)) := by
  intro di hdi
  obtain ⟨di', -, rfl⟩ := Option.map_eq_some_iff.1 hdi
  rfl

theorem keepsKnown_next (o : Around) (s : Bench) : KeepsKnown s.register (s.next o).register := by
  have hsync : ∀ t : Register DruidIngestion, ∀ n, KeepsKnown t (t.sync n) :=
    fun t n => ⟨fun ht => ht.sync n, fun _ hdi => hdi.sync n⟩
  unfold Bench.next
  cases o.write s.requests with
  | none => exact hsync _ _
  | some v => exact (keepsKnown_put (fresh_numbered s.register v)).trans (hsync _ _)

theorem keepsKnown_performPatch (base modified : DruidIngestion) (s : Register DruidIngestion) :
    KeepsKnown s (performPatch base modified s).2 := by
  unfold performPatch
  cases s.stored with
  | none => exact .refl s
  | some stored => exact keepsKnown_put (fresh_numbered s (some _))

theorem kept_eq_some {di' : DruidIngestion} (h : kept di = some di') : di' = di := by
  unfold kept at h
  split_ifs at h
  exact (Option.some.inj h).symm

theorem keepsKnown_performUpdate (di : DruidIngestion) (s : Register DruidIngestion) :
    KeepsKnown s (performUpdate di s).2 := by
  unfold performUpdate
  cases s.stored with
  | none => exact .refl s
  | some stored =>
      dsimp only
      split_ifs
      · exact .refl s
      · refine keepsKnown_put fun di' hdi' => ?_
        rw [kept_eq_some hdi']
        rfl

theorem attempt_cases (o : Around) (s : Bench)
    (perform : Register DruidIngestion → Except Error Unit × Register DruidIngestion) :
    (s.attempt o perform).2.register = (s.next o).register ∨
      (s.attempt o perform).2.register = (perform (s.next o).register).2 := by
  unfold Bench.attempt
  split
  · exact .inr rfl
  · dsimp only
    split_ifs
    · exact .inr rfl
    · exact .inl rfl

theorem keepsKnown_attempt
    {perform : Register DruidIngestion → Except Error Unit × Register DruidIngestion}
    (h : ∀ s, KeepsKnown s (perform s).2) (s : Bench) :
    KeepsKnown s.register (s.attempt o perform).2.register := by
  have hnext := keepsKnown_next o s
  rcases attempt_cases o s perform with hshelf | hshelf
  · rwa [hshelf]
  · rw [hshelf]
    exact hnext.trans (h _)

theorem keepsKnown_serveBench (o : Around) (r : DoReq) (s : Bench) :
    KeepsKnown s.register (serveBench o r s).2.register := by
  cases r with
  | getSecret ns name => exact keepsKnown_next o s
  | listServices ns druidCr component => exact keepsKnown_next o s
  | update di => exact keepsKnown_attempt (keepsKnown_performUpdate di) s
  | ingest r =>
      cases r with
      | http method url body => exact keepsKnown_next o s
      | get ns name => exact keepsKnown_next o s
      | now => exact keepsKnown_next o s
      | patchStatus base modified =>
          exact keepsKnown_attempt (keepsKnown_performPatch base modified) s

theorem known_of_get {s : Bench} {ns name : String}
    (hs : s.register.Numbered DruidIngestion.resourceVersion)
    (h : (serveBench o (.ingest (.get ns name)) s).1 = .ok di) :
    (s.next o).register.Known DruidIngestion.resourceVersion di := by
  simp only [serveBench] at h
  split at h
  · cases h
  · refine ((keepsKnown_next o s).numbered hs).seen ?_
    cases hseen : (s.next o).register.object.seen with
    | none =>
        rw [hseen] at h
        cases h
    | some di' =>
        rw [hseen] at h
        cases h
        rfl

end Servers

/-! ## What the operator does to the object -/

/-- Under another number. -/
def withNumber (n : ℕ) (di : DruidIngestion) : DruidIngestion := { di with resourceVersion := n }

/-- What the operator may do to the stored object after the conversation. Where it sends the object
again, empty rules are left out. -/
inductive Tends (talk : DoTalk) : Option DruidIngestion → Option DruidIngestion → Prop where
  | leaves (v : Option DruidIngestion) : Tends talk v v
  /-- A new status. -/
  | notes (di : DruidIngestion) (status : DruidIngestionStatus) (n : ℕ) :
      Tends talk (some di) (some (withNumber n { di with status := status }))
  /-- The finalizer is added to an object that stays. -/
  | registers {di : DruidIngestion} (hlive : di.deletionTimestamp = none)
      (hnew : druidIngestionControllerFinalizer ∉ di.finalizers) (n : ℕ) :
      Tends talk (some di) (some (withNumber n (registered (sent di))))
  /-- It is taken from one that goes, whose task was shut down. -/
  | releases {di : DruidIngestion} (hgoing : di.deletionTimestamp ≠ none)
      (hheld : druidIngestionControllerFinalizer ∈ di.finalizers)
        (hdown : ShutDownIn talk di) (n : ℕ) :
      Tends talk (some di) (kept (withNumber n (released (sent di))))

section Tends

variable {o : Around} {talk : DoTalk}

theorem tends_attempt
    {perform : Register DruidIngestion → Except Error Unit × Register DruidIngestion}
    {s : Bench} (h : Tends talk (s.next o).register.stored (perform (s.next o).register).2.stored) :
    Tends talk (s.next o).register.stored (s.attempt o perform).2.register.stored := by
  rcases attempt_cases o s perform with hshelf | hshelf
  · rw [hshelf]
    exact .leaves _
  · rwa [hshelf]

theorem tends_performPatch (base modified : DruidIngestion) (s : Register DruidIngestion) :
    Tends talk s.stored (performPatch base modified s).2.stored := by
  unfold performPatch
  cases hstored : s.stored with
  | none =>
      show Tends talk none s.stored
      rw [hstored]
      exact .leaves none
  | some stored =>
      dsimp only
      rw [Register.stored_put]
      exact .notes stored _ (s.version + 1)

/-- An `Update` that is not refused replaces the object it was made from. -/
theorem performUpdate_stored (new : DruidIngestion)
    (hknown : s.Known DruidIngestion.resourceVersion di)
    (hnew : new.resourceVersion = di.resourceVersion) :
    (performUpdate new s).2 = s ∨ s.stored = some di ∧
      (performUpdate new s).2.stored = kept (numbered s (updated di new)) := by
  unfold performUpdate
  cases hstored : s.stored with
  | none => exact .inl rfl
  | some stored =>
      dsimp only
      split_ifs with hconflict
      · exact .inl rfl
      · have hnum : di.resourceVersion = stored.resourceVersion := hnew ▸ not_not.1 hconflict
        have hsame := hknown.eq_of_stored hstored hnum
        rw [hstored] at hsame
        cases hsame
        exact .inr ⟨rfl, Register.stored_put _ _⟩

theorem tends_registered (hknown : s.Known DruidIngestion.resourceVersion di)
    (hlive : di.deletionTimestamp = none)
    (hnew : druidIngestionControllerFinalizer ∉ di.finalizers) :
    Tends talk s.stored (performUpdate (registered di) s).2.stored := by
  rcases performUpdate_stored (registered di) hknown rfl with hsame | ⟨hstored, hupdated⟩
  · rw [hsame]
    exact .leaves _
  · have hkept : kept (numbered s (updated di (registered di))) =
        some (withNumber (s.version + 1) (registered (sent di))) := by
      unfold kept
      rw [if_neg]
      · rfl
      · simp [numbered, updated, hlive]
    rw [hupdated, hstored, hkept]
    exact .registers hlive hnew _

theorem tends_released (hknown : s.Known DruidIngestion.resourceVersion di)
    (hgoing : di.deletionTimestamp ≠ none)
    (hheld : druidIngestionControllerFinalizer ∈ di.finalizers) (hdown : ShutDownIn talk di) :
    Tends talk s.stored (performUpdate (released di) s).2.stored := by
  rcases performUpdate_stored (released di) hknown rfl with hsame | ⟨hstored, hupdated⟩
  · rw [hsame]
    exact .leaves _
  · rw [hupdated, hstored]
    exact .releases hgoing hheld hdown (s.version + 1)

end Tends

/-! ## Runs -/

section Runs

/-- One reconcile of the object. -/
def benchOutcome (key : String × String) (s : Bench) (o : Around) :
    Outcome doSig Bench Exit Result :=
  exec (serveBench o) (reconcileRequest key.1 key.2) s

def benchStep (key : String × String) (s : Bench) (o : Around) : Bench :=
  (benchOutcome key s o).state

variable {key : String × String} {s : Bench} {o : Around}

theorem known_of_read (hs : s.register.Numbered DruidIngestion.resourceVersion)
    {before after : List (Step doSig Bench)} {e : Step doSig Bench}
    (hsteps : (benchOutcome key s o).steps = before ++ e :: after)
    (hread : WasReadIn (before.map Step.answered) di) :
    (e.pre.next o).register.Known DruidIngestion.resourceVersion di := by
  obtain ⟨ns, name, hmem⟩ := hread
  obtain ⟨g, hg, hanswered⟩ := List.mem_map.1 hmem
  obtain ⟨first, rest, rfl⟩ := List.append_of_mem hg
  have hsteps' : (benchOutcome key s o).steps = first ++ g :: (rest ++ e :: after) := by
    rw [hsteps, List.append_assoc, List.cons_append]
  have hnumbered : g.pre.register.Numbered DruidIngestion.resourceVersion :=
    exec_steps_invariant (I := fun t : Bench => t.register.Numbered DruidIngestion.resourceVersion)
      hsteps' (fun b _ hb => (keepsKnown_serveBench o b.req b.pre).numbered hb) hs
  have hresp := exec_steps_resp (show g ∈ (benchOutcome key s o).steps by rw [hsteps]; simp)
  have hlater : KeepsKnown (serveBench o g.req g.pre).2.register e.pre.register :=
    exec_steps_later (R := fun s t : Bench => KeepsKnown s.register t.register) (fun _ => .refl _)
      (fun _ _ _ => KeepsKnown.trans) (fun r t => keepsKnown_serveBench o r t) hsteps hg
  obtain ⟨pre, req, resp⟩ := g
  cases hanswered
  exact (keepsKnown_next o e.pre).known di (hlater.known di (known_of_get hnumbered hresp.symm))

/-- What a step sends was read in the run, and is still known. -/
theorem sendable_of_step {before after : List (Step doSig Bench)} {e : Step doSig Bench}
    {sent : DruidIngestion} (hsteps : (benchOutcome key s o).steps = before ++ e :: after)
    (hreq : e.req = .update sent) : Sendable (before.map Step.answered) sent := by
  have htalk : Follows UpdatesRead [] (benchOutcome key s o).conversation :=
    (converses_reconcileRequest key.1 key.2).exec (serveBench o) s
  refine htalk _ e.answered (after.map Step.answered) ?_ sent hreq
  rw [Outcome.conversation, hsteps, List.map_append, List.map_cons]

/-- The stored object before and after a step, with what others did before it taken out. -/
def StepTends (o : Around) (before : List (Step doSig Bench)) (e : Step doSig Bench) : Prop :=
  Tends (before.map Step.answered) (e.pre.next o).register.stored
    (serveBench o e.req e.pre).2.register.stored

theorem stepTends_of_numbered (hs : s.register.Numbered DruidIngestion.resourceVersion)
    {before after : List (Step doSig Bench)} {e : Step doSig Bench}
    (hsteps : (benchOutcome key s o).steps = before ++ e :: after) : StepTends o before e := by
  unfold StepTends
  cases hreq : e.req with
  | getSecret ns name => exact .leaves _
  | listServices ns druidCr component => exact .leaves _
  | ingest r =>
      cases r with
      | http method url body => exact .leaves _
      | get ns name => exact .leaves _
      | now => exact .leaves _
      | patchStatus base modified => exact tends_attempt (tends_performPatch base modified _)
  | update sent =>
      refine tends_attempt ?_
      cases sendable_of_step hsteps hreq with
      | registered hread hlive hnew =>
          exact tends_registered (known_of_read hs hsteps hread) hlive hnew
      | released hread hgoing hheld hdown =>
          exact tends_released (known_of_read hs hsteps hread) hgoing hheld hdown

theorem numbered_benchStep (hs : s.register.Numbered DruidIngestion.resourceVersion) :
    (benchStep key s o).register.Numbered DruidIngestion.resourceVersion :=
  exec_state_invariant (I := fun t : Bench => t.register.Numbered DruidIngestion.resourceVersion)
    (fun e _ he => (keepsKnown_serveBench o e.req e.pre).numbered he) hs

/-- **The operator keeps to its own.** In every run of reconciles, with any writes of others between
any two requests, a cache that lags behind, requests that fail with or without having taken effect,
and whatever Druid answers: a step of the operator leaves the stored object as it is, or gives it a
new status, or adds the operator's finalizer while the object stays, or takes it away while the
object is being deleted and after Druid has answered, in the same reconcile, the shutdown of the
very task that the stored status names. Nothing that anybody else has written is lost, except that
an update leaves out rules that are empty. -/
theorem object_tended (hs : s.register.Numbered DruidIngestion.resourceVersion)
    (rounds : List Around) :
    Meets (benchStep key) (fun s o => ∀ before e after,
      (benchOutcome key s o).steps = before ++ e :: after → StepTends o before e) s rounds := by
  refine Meets.ofInvariant (I := fun t : Bench =>
    t.register.Numbered DruidIngestion.resourceVersion)
    (C := fun _ _ => True) ?_ hs (meets_iff.2 fun _ _ _ _ => trivial)
  intro t o _ ht _
  exact ⟨numbered_benchStep ht, fun before e after hsteps => stepTends_of_numbered ht hsteps⟩

/-- The wiki was ingested, and is being deleted. -/
def leavingWiki : DruidIngestion :=
  { wiki with
    ingestion := { wiki.ingestion with compaction := {} }
    status := { taskId := "index_1", currentIngestionSpec := wiki.ingestion.nativeSpec.raw }
    finalizers := [druidIngestionControllerFinalizer]
    deletionTimestamp := some 1 }

def leavingBench : Bench := ⟨⟨⟨some leavingWiki, []⟩, 0⟩, 0⟩

theorem numbered_leavingBench : leavingBench.register.Numbered DruidIngestion.resourceVersion := by
  intro di hdi
  have hdi : some di = some leavingWiki := List.mem_singleton.1 hdi
  cases hdi
  exact ⟨Nat.le_refl 0, fun b hb _ => (Option.some.inj hb).symm⟩

/-- There is a router, and Druid answers. -/
def answeringDruid : Around where
  druid := fun _ _ _ _ => .ok ⟨"\x7b\x7d", 200⟩
  services := fun _ => .ok ["r"]

/-- Another controller has added its finalizer. -/
def joinedWiki : DruidIngestion :=
  { leavingWiki with finalizers := [druidIngestionControllerFinalizer, "backup/protect"] }

/-- It does so just before the operator's `Update`, the fifth request. -/
def joinedDruid : Around :=
  { answeringDruid with write := fun n => if n = 4 then some (some joinedWiki) else none }

/-- The `Update` is refused, and the other finalizer stays. Left alone, the operator releases its
own, and the object goes. -/
theorem object_tended_joined :
    ((run (benchStep ("druid", "wiki")) leavingBench [joinedDruid]).register.stored.map
      DruidIngestion.finalizers) = some [druidIngestionControllerFinalizer, "backup/protect"] ∧
    (run (benchStep ("druid", "wiki")) leavingBench [answeringDruid]).register.stored = none ∧
    Meets (benchStep ("druid", "wiki")) (fun s o => ∀ before e after,
      (benchOutcome ("druid", "wiki") s o).steps = before ++ e :: after → StepTends o before e)
      leavingBench [joinedDruid, answeringDruid] :=
  ⟨by decide +kernel, by decide +kernel,
    object_tended numbered_leavingBench [joinedDruid, answeringDruid]⟩

end Runs

end DruidOperator.Ingestion
