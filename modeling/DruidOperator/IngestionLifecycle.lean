import DruidOperator.IngestionQuiet
import DruidOperator.Lib.Embedding

/-!
# The life of a `DruidIngestion` (`do`)

`do` finds the credentials and the router of the Druid cluster, calls `createOrUpdate`, and only
then looks at the deletion timestamp: an object that stays gets the operator's finalizer, one that
is being deleted has its task shut down and the finalizer taken away.

`createOrUpdate` is embedded as it is. The requests around it are those for the secret, for the
router service, and the `Update` of the object, which the API server refuses for an outdated
`resourceVersion`. The credentials go into a header and nowhere else, so they are read and not used.
-/

namespace DruidOperator.Ingestion

open Interaction Prog DruidApi

/-! ## Requests -/

inductive DoReq where
  /-- A request of `createOrUpdate`, or of the shutdown. -/
  | ingest (r : Req)
  | getSecret (ns name : String)
  /-- The names of the services of the namespace with these labels `druid_cr` and `component`. -/
  | listServices (ns druidCr component : String)
  | update (di : DruidIngestion)

abbrev DoResp : DoReq → Type
  | .ingest r => Resp r
  | .getSecret .. => Except Error StrMap
  | .listServices .. => Except Error (List String)
  | .update _ => Except Error Unit

abbrev doSig : Signature := ⟨DoReq, DoResp⟩

abbrev DoM := Prog doSig Exit

def ingestEmbedding : Embedding sig doSig where
  req := .ingest
  resp _ x := x

/-- `GetAuthCreds`. -/
def getAuthCreds : Auth → DoM BasicAuth :=
  DruidApi.getAuthCreds fun ns name => request (S := doSig) (.getSecret ns name)

/-- `GetRouterSvcUrl`. -/
def getRouterSvcUrl (ns druidClusterName : String) : DoM String :=
  DruidApi.getRouterSvcUrl (request (S := doSig) (.listServices ns druidClusterName "router")) ns

/-! ## `do` -/

def druidIngestionControllerFinalizer : String := "druidingestion.datainfra.io/finalizer"

/-- `r.Update`, whose error ends `do` without one. -/
def updateObject (di : DruidIngestion) : DoM Unit := do
  let _ ← request (S := doSig) (.update di)
  return ()

/-- The object stays: register the finalizer. -/
def registerFinalizer (di : DruidIngestion) : DoM Unit :=
  if druidIngestionControllerFinalizer ∈ di.finalizers then return ()
  else updateObject { di with finalizers := di.finalizers ++ [druidIngestionControllerFinalizer] }

/-- The object goes: shut its task down, whatever Druid answers, and give the finalizer up. -/
def shutDown (di : DruidIngestion) : DoM Unit :=
  if druidIngestionControllerFinalizer ∈ di.finalizers then do
    let svcName ← getRouterSvcUrl di.ns di.druidClusterName
    let _respShutDownTask ← (httpDo .post
      (getPath di.ingestion.type svcName .post di.status.taskId true) "").embed ingestEmbedding
    updateObject { di with
      finalizers := di.finalizers.filter (· ≠ druidIngestionControllerFinalizer) }
  else return ()

/-- What follows `createOrUpdate`. -/
def finishDo (di : DruidIngestion) : DoM Unit :=
  if di.deletionTimestamp = none then registerFinalizer di else shutDown di

/-- `do`. -/
def doIngestion (di : DruidIngestion) : DoM Unit := do
  let _basicAuth ← getAuthCreds di.auth
  let svcName ← getRouterSvcUrl di.ns di.druidClusterName
  let (_, di) ← (createOrUpdate di svcName).embed ingestEmbedding
  finishDo di

/-! ## The servers -/

structure Server where
  world : World
  /-- The object was deleted for good. -/
  gone : Bool := false

/-- The outside during one `do`. -/
structure DoEnv extends Env where
  secrets : String → String → Except Error StrMap
  /-- The services the `n`-th Kubernetes request finds. -/
  services : ℕ → List String

def notFound : Error := ⟨"druidingestions.druid.apache.org not found", true⟩
def conflict : Error := ⟨"the object has been modified", false⟩

/-- `n` more Kubernetes requests. -/
def Server.called (s : Server) (n : ℕ) : Server :=
  { s with world := { s.world with calls := s.world.calls + n } }

/-- The object as it is read after it was sent: rules that are empty are left out. -/
def sent (di : DruidIngestion) : DruidIngestion :=
  { di with ingestion := { di.ingestion with rules := omitEmptyList di.ingestion.rules } }

/-- The object after an `Update`: the status and the deletion timestamp are not the client's to
change. -/
def updated (stored di : DruidIngestion) : DruidIngestion :=
  { sent di with
    status := stored.status
    deletionTimestamp := stored.deletionTimestamp
    resourceVersion := stored.resourceVersion + 1 }

def serveIngest (env : Env) : (r : Req) → Server → Resp r × Server
  | .get ns name, s =>
      if s.gone then (.error notFound, s.called 1)
      else ((serve env (.get ns name) s.world).1,
        { s with world := (serve env (.get ns name) s.world).2 })
  | .patchStatus base modified, s =>
      if s.gone then (.error notFound, s.called 1)
      else ((serve env (.patchStatus base modified) s.world).1,
        { s with world := (serve env (.patchStatus base modified) s.world).2 })
  | .http method url body, s =>
      ((serve env (.http method url body) s.world).1,
        { s with world := (serve env (.http method url body) s.world).2 })
  | .now, s => (env.clock, s)

def serveDo (env : DoEnv) : Handler doSig Server
  | .ingest r, s => serveIngest env.toEnv r s
  | .getSecret ns name, s =>
      match env.kube s.world.calls with
      | some e => (.error e, s.called 1)
      | none => (env.secrets ns name, s.called 1)
  | .listServices _ _ _, s =>
      match env.kube s.world.calls with
      | some e => (.error e, s.called 1)
      | none => (.ok (env.services s.world.calls), s.called 1)
  | .update di, s =>
      match env.kube s.world.calls with
      | some e => (.error e, s.called 1)
      | none =>
          if s.gone then (.error notFound, s.called 1)
          else if di.resourceVersion ≠ s.world.stored.resourceVersion then
            (.error conflict, s.called 1)
          else
            let stored := updated s.world.stored di
            (.ok (), ⟨{ s.world with calls := s.world.calls + 1, stored := stored },
              stored.deletionTimestamp.isSome && stored.finalizers.isEmpty⟩)

/-! ## Runs -/

inductive LifeAction where
  | edit (ingestion : IngestionSpec)
  /-- The other controllers' finalizers become these. -/
  | others (finalizers : List String)
  /-- A user deletes the object. -/
  | delete (now : Int)
  /-- A reconcile, which reads the object as stored. -/
  | reconcile (env : DoEnv)

/-- A write of a user or another controller. -/
def Server.store (s : Server) (f : DruidIngestion → DruidIngestion) : Server :=
  { s with world := { s.world with stored :=
    { f s.world.stored with resourceVersion := s.world.stored.resourceVersion + 1 } } }

/-- The operator's finalizer as it is, and the others' as given. -/
def withOthers (finalizers others : List String) : List String :=
  finalizers.filter (· = druidIngestionControllerFinalizer) ++
    others.filter (· ≠ druidIngestionControllerFinalizer)

def lifeStep (s : Server) : LifeAction → Server
  | .edit ingestion => s.store fun di => { di with ingestion := ingestion }
  | .others finalizers =>
      s.store fun di => { di with finalizers := withOthers di.finalizers finalizers }
  | .delete now =>
      if s.world.stored.finalizers = [] then { s with gone := true }
      else s.store fun di => { di with deletionTimestamp := di.deletionTimestamp <|> some now }
  | .reconcile env =>
      if s.gone then s else (exec (serveDo env) (doIngestion s.world.stored) s).state

theorem simulates_serve (env : DoEnv) :
    Simulates ingestEmbedding (serveDo env) (serve env.toEnv) fun s w => s = ⟨w, false⟩ where
  resp {s w} hs r := by
    subst hs
    cases r <;> rfl
  state {s w} hs r := by
    subst hs
    cases r <;> rfl

/-! ## Reaching Druid -/

/-- The Kubernetes requests for the credentials. -/
def credentialCalls (auth : Auth) : ℕ := if auth = {} then 0 else 1

/-- No credentials are asked for, or the `n`-th Kubernetes request finds them. -/
def credentialsFound (env : DoEnv) (auth : Auth) (n : ℕ) : Bool :=
  decide (auth = {}) || (decide (env.kube n = none) &&
    match env.secrets auth.secretNamespace auth.secretName with
    | .ok data => (credentials auth data).isOk
    | .error _ => false)

/-- What the `n`-th Kubernetes request says about the router. -/
def routerAt (env : DoEnv) (ns : String) (n : ℕ) : Except Error String :=
  match env.kube n with
  | some e => .error e
  | none => routerUrlOf ns (env.services n)

/-- The router that `do` talks to, when its first Kubernetes request is the `n`-th. -/
def reaches (env : DoEnv) (di : DruidIngestion) (n : ℕ) : Option String :=
  if credentialsFound env di.auth n then (routerAt env di.ns (n + credentialCalls di.auth)).toOption
  else none

/-- The Kubernetes requests before `createOrUpdate`. -/
def lookups (di : DruidIngestion) : ℕ := credentialCalls di.auth + 1

theorem Server.called_called (s : Server) (m n : ℕ) : (s.called m).called n = s.called (m + n) := by
  simp [Server.called, Nat.add_assoc]

theorem exec_getAuthCreds (env : DoEnv) (auth : Auth) (s : Server) :
    let o := exec (serveDo env) (getAuthCreds auth) s
    o.res.isOk = credentialsFound env auth s.world.calls ∧
      o.state = s.called (credentialCalls auth) := by
  unfold getAuthCreds DruidApi.getAuthCreds credentialsFound credentialCalls
  by_cases hauth : auth = {}
  · simp [hauth, Except.isOk, Except.toBool, Server.called]
  · simp only [ne_eq, hauth, not_false_eq_true, if_true, if_false, request, call_bind, ret_bind,
      exec_call, decide_false, Bool.false_or]
    cases hkube : env.kube s.world.calls with
    | some e => simp [serveDo, hkube, Except.isOk, Except.toBool]
    | none =>
        simp only [serveDo, hkube]
        cases env.secrets auth.secretNamespace auth.secretName with
        | error e => simp [Except.isOk, Except.toBool]
        | ok data =>
            cases hcred : credentials auth data <;> simp [hcred, Except.isOk, Except.toBool]

theorem exec_getRouterSvcUrl (env : DoEnv) (ns druidClusterName : String) (s : Server) :
    let o := exec (serveDo env) (getRouterSvcUrl ns druidClusterName) s
    o.res = (routerAt env ns s.world.calls).mapError .error ∧ o.state = s.called 1 := by
  unfold getRouterSvcUrl DruidApi.getRouterSvcUrl routerAt
  simp only [request, call_bind, ret_bind, exec_call]
  cases hkube : env.kube s.world.calls with
  | some e => simp [serveDo, hkube, Except.mapError]
  | none =>
      simp only [serveDo, hkube, orReturn_ok, ret_bind]
      cases routerUrlOf ns (env.services s.world.calls) <;> simp [Except.mapError]

/-- Without credentials or router nothing happens, and `do` returns an error. -/
theorem exec_do_unreached {env : DoEnv} {di : DruidIngestion} {s : Server}
    (h : reaches env di s.world.calls = none) :
    let o := exec (serveDo env) (doIngestion di) s
    (∃ e, o.res = .error e) ∧ ∃ n, o.state = s.called n := by
  obtain ⟨hcred, hstate⟩ := exec_getAuthCreds env di.auth s
  unfold doIngestion
  cases hres : (exec (serveDo env) (getAuthCreds di.auth) s).res with
  | error e =>
      rw [exec_bind_error hres]
      exact ⟨⟨e, rfl⟩, _, hstate⟩
  | ok basicAuth =>
      have hfound : credentialsFound env di.auth s.world.calls = true := by
        rw [← hcred, hres]
        rfl
      rw [exec_bind_ok hres, hstate]
      obtain ⟨hrouter, hstate'⟩ := exec_getRouterSvcUrl env di.ns di.druidClusterName
        (s.called (credentialCalls di.auth))
      rw [reaches, if_pos hfound] at h
      cases hurl : routerAt env di.ns (s.world.calls + credentialCalls di.auth) with
      | ok svcName => simp [hurl, Except.toOption] at h
      | error e =>
          have herr : (exec (serveDo env) (getRouterSvcUrl di.ns di.druidClusterName)
              (s.called (credentialCalls di.auth))).res = .error (.error e) := by
            rw [hrouter]
            simp [Server.called, hurl, Except.mapError]
          dsimp only
          rw [exec_bind_error herr]
          exact ⟨⟨_, rfl⟩, _, hstate'.trans (Server.called_called ..)⟩

theorem exec_do_reached {env : DoEnv} {di : DruidIngestion} {s : Server} {svcName : String}
    (h : reaches env di s.world.calls = some svcName) :
    let o := exec (serveDo env) (doIngestion di) s
    let o' := exec (serveDo env) ((createOrUpdate di svcName).embed ingestEmbedding >>=
      fun y => finishDo y.2) (s.called (lookups di))
    o.res = o'.res ∧ o.state = o'.state := by
  obtain ⟨hcred, hstate⟩ := exec_getAuthCreds env di.auth s
  unfold reaches at h
  split_ifs at h with hfound
  have hfound' := hcred.trans hfound
  unfold doIngestion
  cases hres : (exec (serveDo env) (getAuthCreds di.auth) s).res with
  | error e => simp [hres, Except.isOk, Except.toBool] at hfound'
  | ok basicAuth =>
      rw [exec_bind_ok hres, hstate]
      obtain ⟨hrouter, hstate'⟩ := exec_getRouterSvcUrl env di.ns di.druidClusterName
        (s.called (credentialCalls di.auth))
      cases hurl : routerAt env di.ns (s.world.calls + credentialCalls di.auth) with
      | error e => simp [hurl, Except.toOption] at h
      | ok url =>
          have hok : (exec (serveDo env) (getRouterSvcUrl di.ns di.druidClusterName)
              (s.called (credentialCalls di.auth))).res = .ok svcName := by
            rw [hrouter]
            simp_all [Server.called, Except.mapError, Except.toOption]
          dsimp only
          rw [exec_bind_ok hok, hstate', Server.called_called]
          exact ⟨rfl, rfl⟩

end DruidOperator.Ingestion
