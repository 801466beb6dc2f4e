import DruidOperator.JsonInclusion
import DruidOperator.IngestionLifecycle
import DruidOperator.Reconciler
import DruidOperator.RouterUrl
import DruidOperator.Lib.Traces

/-!
# Dynamic configurations (`updateDruidDynamicConfigs`)

After a cluster is deployed, the reconciler sets the dynamic configurations of its middle managers
and coordinators through the API of Druid. For each of the two it finds the router and the
credentials, reads what Druid has, and posts the declared settings if they are not included.

This is the whole of `Reconcile`: `deployDruidCluster` is embedded as it is, and the requests to
Druid, the secret and the events stand beside those to Kubernetes.

* `Dialogue`, `Conversation` — all that is said about one type of nodes, however the servers answer.
* `posts_warranted` — nothing is posted that was not found missing just before, and a run without
  an error has seen every declared setting in Druid, or had it accepted.
* `failures_reported` — a failure leaves a warning, unless Druid refused the settings.
-/

namespace DruidOperator.Controller

open Interaction Prog Kube DruidApi
open Ingestion (Method includesJson)

/-! ## Requests -/

inductive EventType where
  | normal
  | warning
deriving DecidableEq

/-- An event of the resource. -/
structure Event where
  type : EventType
  reason : String
  message : String
deriving DecidableEq

inductive SiteReq where
  | kube (r : Request)
  | getSecret (ns name : String)
  /-- A request to Druid, with the credentials of its header if there are any. -/
  | http (method : Method) (url body : String) (auth : Option BasicAuth)
  | event (e : Event)

abbrev SiteResp : SiteReq → Type
  | .kube r => Kube.Response r
  | .getSecret .. => Except Error StrMap
  | .http .. => Except Error Ingestion.Response
  | .event _ => Unit

abbrev siteSig : Signature := ⟨SiteReq, SiteResp⟩

abbrev SiteM := Prog siteSig Exit

def kubeEmbedding : Embedding Kube.sig siteSig where
  req := .kube
  resp _ x := x

/-- `EmitEventGeneric`. -/
def emitEventGeneric (reason msg : String) (err : Option Error) : SiteM Unit :=
  match err with
  | some err => request (S := siteSig) (.event ⟨.warning, reason, err.msg⟩)
  | none => if msg ≠ "" then request (S := siteSig) (.event ⟨.normal, reason, msg⟩) else return ()

/-- `if err != nil { emitEvent.EmitEventGeneric(...); return err }`. -/
def reporting {α : Type} (reason msg : String) (p : SiteM α) : SiteM α :=
  p.handle fun
    | .error err => emitEventGeneric reason msg (some err) >>= fun _ => .exit (.error err)
    | .panic text => .exit (.panic text)

def druidGetRouterSvcUrlFailed : String := "DruidAPIGetRouterSvcUrlFailed"
def druidGetAuthCredsFailed : String := "DruidAPIGetAuthCredsFailed"
def druidFetchCurrentConfigsFailed : String := "DruidAPIFetchCurrentConfigsFailed"
def druidConfigComparisonFailed : String := "DruidAPIConfigComparisonFailed"
def druidUpdateConfigsFailed : String := "DruidAPIUpdateConfigsFailed"
def druidUpdateConfigsSuccess : String := "DruidAPIUpdateConfigsSuccess"

/-! ## The Druid API -/

/-- `GetAuthCreds`. -/
def getAuthCreds : Auth → SiteM BasicAuth :=
  DruidApi.getAuthCreds fun ns name => request (S := siteSig) (.getSecret ns name)

/-- Empty credentials leave the header out. -/
def authHeader (basicAuth : BasicAuth) : Option BasicAuth :=
  if basicAuth ≠ {} then some basicAuth else none

/-- `DruidClient.Do`. -/
def httpDo (method : Method) (url body : String) (basicAuth : BasicAuth) :
    SiteM Ingestion.Response :=
  DruidApi.httpDo url (request (S := siteSig) (.http method url body (authHeader basicAuth)))

/-- Where the dynamic configurations of a type of nodes are. -/
def dynamicConfigPath (svcName nodeType : String) : Except Error String :=
  if nodeType = "middlemanagers" then .ok (makePath svcName "indexer" "worker" [])
  else if nodeType = "coordinators" then .ok (makePath svcName "coordinator" "config" [])
  else .error ⟨"unsupported node type: " ++ nodeType, false⟩

/-! ## `updateDruidDynamicConfigs` -/

/-- What `updateDruidDynamicConfigs` reads of a resource. -/
structure DynamicSpec where
  ns : String
  name : String
  auth : Auth := {}
  /-- The raw text of the `DynamicConfig` of each group in `Spec.Nodes`; none if it is not set. -/
  nodes : String → Option (Option String)

def dynamicSpecOf (m : Druid) : DynamicSpec where
  ns := m.ns
  name := m.name
  auth := m.spec.auth
  nodes key := (m.spec.nodes.find? key).map fun g => g.spec.dynamicConfig

/-- The dynamic configuration of a type of nodes, which is looked up as the key of a group. -/
def DynamicSpec.declared (d : DynamicSpec) (nodeType : String) : Option String :=
  (d.nodes nodeType).join

def nodeTypes : List String := ["middlemanagers", "coordinators"]

/-- The current configurations of a response; an empty body stands for an empty object. -/
def currentConfigsJson (body : String) : String := if body = "" then "\x7b\x7d" else body

/-- The router and the credentials. -/
def connect (d : DynamicSpec) (nodeType : String) : SiteM (String × BasicAuth) := do
  let svcName ← reporting druidGetRouterSvcUrlFailed
    ("Failed to get router service URL for " ++ nodeType)
    ((getRouterSvcUrl d.ns d.name).embed kubeEmbedding)
  let basicAuth ← reporting druidGetAuthCredsFailed
    ("Failed to get authentication credentials for " ++ nodeType) (getAuthCreds d.auth)
  return (svcName, basicAuth)

/-- The error for an answer other than 200 to the request for the current configurations. -/
def fetchError (nodeType : String) (resp : Ingestion.Response) : String :=
  "failed to retrieve current Druid " ++ nodeType ++ " dynamic configurations. Status code: " ++
    toString resp.statusCode ++ ", Response body: " ++ resp.responseBody

def fetchCurrent (nodeType path : String) (basicAuth : BasicAuth) : SiteM String :=
  reporting druidFetchCurrentConfigsFailed
    ("Failed to fetch current " ++ nodeType ++ " dynamic configurations") do
      let currentResp ← httpDo .get path "" basicAuth
      if currentResp.statusCode ≠ 200 then fail (fetchError nodeType currentResp)
      else return currentConfigsJson currentResp.responseBody

def refusedError (nodeType : String) : String :=
  "failed to update Druid " ++ nodeType ++ " dynamic configurations"

def postConfig (nodeType path dynamicConfig : String) (basicAuth : BasicAuth) : SiteM Unit := do
  let respDynamicConfigs ← reporting druidUpdateConfigsFailed
    ("Failed to update " ++ nodeType ++ " dynamic configurations")
    (httpDo .post path dynamicConfig basicAuth)
  if respDynamicConfigs.statusCode ≠ 200 then fail (refusedError nodeType)
  else
    emitEventGeneric druidUpdateConfigsSuccess
      ("Successfully updated " ++ nodeType ++ " dynamic configurations") none

/-- The settings of one type of nodes, which are declared. -/
def updateDeclared (d : DynamicSpec) (nodeType dynamicConfig : String) : SiteM Unit := do
  let (svcName, basicAuth) ← connect d nodeType
  let path ← orReturn (dynamicConfigPath svcName nodeType)
  let current ← fetchCurrent nodeType path basicAuth
  let equal ← reporting druidConfigComparisonFailed
    ("Failed to compare " ++ nodeType ++ " configurations")
    (orReturn (includesJson current dynamicConfig))
  if equal then return () else postConfig nodeType path dynamicConfig basicAuth

/-- The body of the loop. -/
def updateNodeType (d : DynamicSpec) (nodeType : String) : SiteM Unit :=
  match d.declared nodeType with
  | none => return ()
  | some dynamicConfig => updateDeclared d nodeType dynamicConfig

def updateDruidDynamicConfigs (d : DynamicSpec) : SiteM Unit :=
  forEach (updateNodeType d) nodeTypes

/-- `Reconcile` with all its requests. The writes of the resource are decoded into it, so that it is
not in hand as it was read: `inHand` is what it has become when it is deployed. -/
def reconcileSite (hash : Hash) (o : MapOrders) (decoding : Decoding) (inHand : Druid → Druid)
    (request : String × String) : SiteM Result := do
  match ← (getObj .druid request.1 request.2).embed kubeEmbedding with
  | .error err => if err.notFound then return .done else .exit (.error err)
  | .ok m => do
      (deployDruidCluster hash o m decoding).embed kubeEmbedding
      updateDruidDynamicConfigs (dynamicSpecOf (inHand m))
      return .requeueAfter

/-! ## What is said -/

abbrev Talk := List (Answered siteSig)

def warned (reason : String) (err : Error) : Answered siteSig :=
  ⟨.event ⟨.warning, reason, err.msg⟩, ()⟩

def fetched (url : String) (auth : Option BasicAuth) (x : Except Error Ingestion.Response) :
    Answered siteSig := ⟨.http .get url "" auth, x⟩

def posted (url body : String) (auth : Option BasicAuth) (x : Except Error Ingestion.Response) :
    Answered siteSig := ⟨.http .post url body auth, x⟩

/-- The request goes to another server than Druid. -/
def Elsewhere (r : SiteReq) : Prop := ∀ method url body auth, r ≠ .http method url body auth

/-- The services of the router are listed. -/
def listed (d : DynamicSpec) (x : Except Error (List (Obj .service))) : Answered siteSig :=
  ⟨.kube (.list .service d.ns (routerLabels d.name)), x⟩

/-- It does not go to Druid, and of Kubernetes it lists the services of the router. -/
structure Looks (d : DynamicSpec) (r : SiteReq) : Prop where
  elsewhere : Elsewhere r
  lists : ∀ k, r = .kube k → k = .list .service d.ns (routerLabels d.name)

theorem elsewhere_kube (r : Request) : Elsewhere (.kube r) := fun _ _ _ _ h => by cases h

theorem elsewhere_event (e : Event) : Elsewhere (.event e) := fun _ _ _ _ h => by cases h

theorem looks_event (d : DynamicSpec) (e : Event) : Looks d (.event e) where
  elsewhere := elsewhere_event e
  lists _ h := by cases h

/-- The URL for the settings of a type of nodes, at the router that was found in the namespace of
the resource. -/
def Endpoint (d : DynamicSpec) (before : Talk) (nodeType url : String) : Prop :=
  ∃ svcList svcName, listed d (.ok svcList) ∈ before ∧
    routerUrlOf d.ns (svcList.map Object.name) = .ok svcName ∧
    dynamicConfigPath svcName nodeType = .ok url

theorem Endpoint.mono {d : DynamicSpec} {before before' : Talk} {nodeType url : String}
    (h : Endpoint d before nodeType url) (hsub : before ⊆ before') :
    Endpoint d before' nodeType url := by
  obtain ⟨svcList, svcName, hlisted, hrest⟩ := h
  exact ⟨svcList, svcName, hsub hlisted, hrest⟩

/-- **What is said to Druid** about one type of nodes whose settings are declared. -/
inductive Dialogue (nodeType dynamicConfig url : String) (auth : Option BasicAuth) :
    Talk → Except Exit Unit → Prop where
  /-- The current settings could not be read. -/
  | unread {x : Except Error Ingestion.Response} {err : Error}
      (hx : ∀ resp, x = .ok resp → resp.statusCode ≠ 200) :
      Dialogue nodeType dynamicConfig url auth
        [fetched url auth x, warned druidFetchCurrentConfigsFailed err] (.error (.error err))
  /-- They could not be compared. -/
  | incomparable {current : String} {err : Error}
      (hx : includesJson (currentConfigsJson current) dynamicConfig = .error err) :
      Dialogue nodeType dynamicConfig url auth [fetched url auth (.ok ⟨current, 200⟩),
        warned druidConfigComparisonFailed err] (.error (.error err))
  /-- They include the declared ones. -/
  | included {current : String}
      (hx : includesJson (currentConfigsJson current) dynamicConfig = .ok true) :
      Dialogue nodeType dynamicConfig url auth [fetched url auth (.ok ⟨current, 200⟩)] (.ok ())
  /-- The declared ones could not be sent. -/
  | unsent {current : String} {err : Error}
      (hx : includesJson (currentConfigsJson current) dynamicConfig = .ok false) :
      Dialogue nodeType dynamicConfig url auth [fetched url auth (.ok ⟨current, 200⟩),
        posted url dynamicConfig auth (.error err), warned druidUpdateConfigsFailed err]
        (.error (.error err))
  /-- Druid refused them. -/
  | refused {current : String} {resp : Ingestion.Response}
      (hx : includesJson (currentConfigsJson current) dynamicConfig = .ok false)
      (hresp : resp.statusCode ≠ 200) :
      Dialogue nodeType dynamicConfig url auth [fetched url auth (.ok ⟨current, 200⟩),
        posted url dynamicConfig auth (.ok resp)] (.error (.error ⟨refusedError nodeType, false⟩))
  /-- Druid accepted them. -/
  | updated {current : String} {resp : Ingestion.Response} {e : Event}
      (hx : includesJson (currentConfigsJson current) dynamicConfig = .ok false)
      (hresp : resp.statusCode = 200) :
      Dialogue nodeType dynamicConfig url auth [fetched url auth (.ok ⟨current, 200⟩),
        posted url dynamicConfig auth (.ok resp), ⟨.event e, ()⟩] (.ok ())

/-- **What is said about one type of nodes**: where the router and the credentials are, and if both
are found, to Druid. -/
inductive Conversation (d : DynamicSpec) (nodeType dynamicConfig : String) :
    Talk → Except Exit Unit → Prop where
  | unconnected {talk : Talk} {reason : String} {err : Error} (hlooks : ∀ a ∈ talk, Looks d a.req) :
      Conversation d nodeType dynamicConfig (talk ++ [warned reason err]) (.error (.error err))
  | connected {talk more : Talk} {url : String} {auth : Option BasicAuth} {x : Except Exit Unit}
      (hlooks : ∀ a ∈ talk, Looks d a.req) (hurl : Endpoint d talk nodeType url)
      (hmore : Dialogue nodeType dynamicConfig url auth more x) :
      Conversation d nodeType dynamicConfig (talk ++ more) x

/-! ### All that is said -/

section Converses

variable {α : Type}

theorem converses_reporting {T T' : Talk → Except Exit α → Prop} {reason msg : String} {p : SiteM α}
    (hp : p.Converses T) (hok : ∀ talk a, T talk (.ok a) → T' talk (.ok a))
    (herror : ∀ talk err, T talk (.error (.error err)) →
      T' (talk ++ [warned reason err]) (.error (.error err)))
    (hpanic : ∀ talk text, ¬ T talk (.error (.panic text))) :
    (reporting reason msg p).Converses T' := by
  refine hp.handle hok fun talk e he => ?_
  cases e with
  | error err => exact fun _ => herror talk err he
  | panic text => exact absurd he (hpanic talk text)

/-- Some looks, which lead to a value that meets `R` with them, or to an error. -/
def Enquiry (d : DynamicSpec) (R : Talk → α → Prop) (talk : Talk) : Except Exit α → Prop
  | .ok a => (∀ a ∈ talk, Looks d a.req) ∧ R talk a
  | .error (.error _) => ∀ a ∈ talk, Looks d a.req
  | .error (.panic _) => False

theorem converses_enquiry {β : Type} {d : DynamicSpec} {R : Talk → α → Prop}
    {T : Talk → Except Exit β → Prop} {reason msg : String} {p : SiteM α} {f : α → SiteM β}
    (hp : p.Converses (Enquiry d R))
    (herror : ∀ talk err, (∀ a ∈ talk, Looks d a.req) →
      T (talk ++ [warned reason err]) (.error (.error err)))
    (hf : ∀ talk a, (∀ a ∈ talk, Looks d a.req) → R talk a →
      (f a).Converses fun more => T (talk ++ more)) :
    (reporting reason msg p >>= f).Converses T := by
  refine Converses.bind (T := fun talk x => match x with
    | .ok a => (∀ a ∈ talk, Looks d a.req) ∧ R talk a
    | .error e => T talk (.error e)) ?_ (fun _ _ he => he) fun talk a ha => hf talk a ha.1 ha.2
  exact converses_reporting hp (fun _ _ ha => ha) herror fun _ _ h => h

theorem enquiry_getRouterSvcUrl (d : DynamicSpec) :
    ((getRouterSvcUrl d.ns d.name).embed kubeEmbedding).Converses
      (Enquiry d fun talk svcName => ∃ svcList, listed d (.ok svcList) ∈ talk ∧
        routerUrlOf d.ns (svcList.map Object.name) = .ok svcName) := by
  intro x
  have hlooks : ∀ a ∈ [listed d x], Looks d a.req := by
    refine List.forall_mem_singleton.2 ⟨(fun _ _ _ _ h => by cases h), ?_⟩
    rintro k ⟨⟩
    rfl
  cases x with
  | error err => exact hlooks
  | ok svcList =>
      show (((orReturn (routerUrlOf d.ns (svcList.map Object.name)) : Code String)).embed
        kubeEmbedding).Converses _
      cases hurl : routerUrlOf d.ns (svcList.map Object.name) with
      | error err => exact hlooks
      | ok url => exact ⟨hlooks, svcList, List.mem_singleton.2 rfl, hurl⟩

theorem enquiry_getAuthCreds (d : DynamicSpec) :
    (getAuthCreds d.auth).Converses (Enquiry d fun _ _ => True) := by
  unfold getAuthCreds DruidApi.getAuthCreds
  split_ifs with hauth
  · intro x
    have hlooks : ∀ a ∈ [(⟨.getSecret d.auth.secretNamespace d.auth.secretName, x⟩ :
        Answered siteSig)], Looks d a.req :=
      List.forall_mem_singleton.2 ⟨(fun _ _ _ _ h => by cases h), fun _ h => by cases h⟩
    cases x with
    | error err => exact hlooks
    | ok data =>
        show (orReturn (credentials d.auth data) : SiteM BasicAuth).Converses _
        cases credentials d.auth data with
        | error err => exact hlooks
        | ok creds => exact ⟨hlooks, trivial⟩
  · exact ⟨fun a ha => absurd ha List.not_mem_nil, trivial⟩

end Converses

theorem dynamicConfigPath_ne_empty {svcName nodeType url : String}
    (h : dynamicConfigPath svcName nodeType = .ok url) : url ≠ "" := by
  unfold dynamicConfigPath at h
  split_ifs at h <;> cases h <;> exact makePath_ne_empty _ _ _ _

theorem dynamicConfigPath_exists {nodeType : String} (h : nodeType ∈ nodeTypes) (svcName : String) :
    ∃ url, dynamicConfigPath svcName nodeType = .ok url := by
  simp only [nodeTypes, List.mem_cons, List.not_mem_nil, or_false] at h
  rcases h with rfl | rfl
  · exact ⟨_, rfl⟩
  · exact ⟨_, rfl⟩

section Druid

variable {nodeType dynamicConfig url : String} {basicAuth : BasicAuth}

/-- Reading the current settings: they are read, or that is all. -/
theorem converses_fetchCurrent (hurl : url ≠ "") :
    (fetchCurrent nodeType url basicAuth).Converses fun talk x => match x with
      | .ok current => ∃ body, talk = [fetched url (authHeader basicAuth) (.ok ⟨body, 200⟩)] ∧
          current = currentConfigsJson body
      | .error e => Dialogue nodeType dynamicConfig url (authHeader basicAuth) talk (.error e) := by
  unfold fetchCurrent httpDo DruidApi.httpDo
  rw [if_neg hurl]
  intro x
  cases x with
  | error err => exact fun _ => .unread nofun
  | ok resp =>
      show (reporting _ _ (if resp.statusCode ≠ 200 then _ else _)).Converses _
      by_cases hstatus : resp.statusCode = 200
      · rw [if_neg (not_not_intro hstatus)]
        obtain ⟨body, _⟩ := resp
        cases hstatus
        exact ⟨body, rfl, rfl⟩
      · rw [if_pos hstatus]
        refine fun _ => .unread fun resp' hresp' => ?_
        cases hresp'
        exact hstatus

theorem converses_postConfig (hurl : url ≠ "") {current : String}
    (hx : includesJson (currentConfigsJson current) dynamicConfig = .ok false) :
    (postConfig nodeType url dynamicConfig basicAuth).Converses fun more =>
      Dialogue nodeType dynamicConfig url (authHeader basicAuth)
        (fetched url (authHeader basicAuth) (.ok ⟨current, 200⟩) :: more) := by
  unfold postConfig httpDo DruidApi.httpDo
  rw [if_neg hurl]
  intro x
  cases x with
  | error err => exact fun _ => .unsent hx
  | ok resp =>
      show (if resp.statusCode ≠ 200 then _ else _ : SiteM Unit).Converses _
      by_cases hstatus : resp.statusCode = 200
      · rw [if_neg (not_not_intro hstatus)]
        have hmsg : "Successfully updated " ++ nodeType ++ " dynamic configurations" ≠ "" := by
          intro h
          have := congrArg String.toList h
          simp at this
        unfold emitEventGeneric
        rw [if_pos hmsg]
        exact fun _ => .updated hx hstatus
      · rw [if_pos hstatus]
        exact .refused hx hstatus

end Druid

/-- **All that can be said about one type of nodes.** -/
theorem converses_updateDeclared (d : DynamicSpec) {nodeType : String}
    (hnode : nodeType ∈ nodeTypes) (dynamicConfig : String) :
    (updateDeclared d nodeType dynamicConfig).Converses
      (Conversation d nodeType dynamicConfig) := by
  unfold updateDeclared connect
  simp only [bind_assoc]
  refine converses_enquiry (enquiry_getRouterSvcUrl _) (fun _ _ hlooks => .unconnected hlooks) ?_
  rintro talk svcName hlooks ⟨svcList, hlisted, hservices⟩
  refine converses_enquiry (enquiry_getAuthCreds _) (fun more err hmore => ?_) ?_
  · rw [← List.append_assoc]
    exact .unconnected (List.forall_mem_append.2 ⟨hlooks, hmore⟩)
  intro more basicAuth hmore _
  obtain ⟨url, hpath⟩ := dynamicConfigPath_exists hnode svcName
  have hurl : Endpoint d (talk ++ more) nodeType url :=
    ⟨svcList, svcName, List.mem_append_left _ hlisted, hservices, hpath⟩
  have hne := dynamicConfigPath_ne_empty hpath
  simp only [pure_eq, ret_bind, hpath, orReturn_ok, ← List.append_assoc]
  refine Converses.mono (T := Dialogue nodeType dynamicConfig url (authHeader basicAuth)) ?_
    fun rest x hrest => .connected (List.forall_mem_append.2 ⟨hlooks, hmore⟩) hurl hrest
  refine (converses_fetchCurrent hne).bind (fun _ _ he => he) ?_
  rintro _ _ ⟨current, rfl, rfl⟩
  cases hequal : includesJson (currentConfigsJson current) dynamicConfig with
  | error err => exact fun _ => .incomparable hequal
  | ok equal =>
      cases equal with
      | true => exact .included hequal
      | false => exact converses_postConfig hne hequal

/-- **What is said in the loop**: one conversation after the other, up to the first that fails. -/
inductive Conversations (d : DynamicSpec) : List String → Talk → Except Exit Unit → Prop where
  | done : Conversations d [] [] (.ok ())
  | skip {nodeType : String} {rest : List String} {talk : Talk} {x : Except Exit Unit}
      (hnone : d.declared nodeType = none) (hrest : Conversations d rest talk x) :
      Conversations d (nodeType :: rest) talk x
  | next {nodeType dynamicConfig : String} {rest : List String} {talk more : Talk}
      {x : Except Exit Unit} (hdeclared : d.declared nodeType = some dynamicConfig)
      (htalk : Conversation d nodeType dynamicConfig talk (.ok ()))
      (hrest : Conversations d rest more x) : Conversations d (nodeType :: rest) (talk ++ more) x
  | stop {nodeType dynamicConfig : String} {rest : List String} {talk : Talk} {e : Exit}
      (hdeclared : d.declared nodeType = some dynamicConfig)
      (htalk : Conversation d nodeType dynamicConfig talk (.error e)) :
      Conversations d (nodeType :: rest) talk (.error e)

theorem converses_forEach (d : DynamicSpec) {types : List String} (htypes : types ⊆ nodeTypes) :
    (forEach (updateNodeType d) types).Converses (Conversations d types) := by
  induction types with
  | nil => exact .done
  | cons nodeType rest ih =>
      obtain ⟨hnode, hrest⟩ := List.cons_subset.1 htypes
      rw [forEach_cons]
      unfold updateNodeType
      cases hdeclared : d.declared nodeType with
      | none => exact (ih hrest).mono fun talk x hx => .skip hdeclared hx
      | some dynamicConfig =>
          refine (converses_updateDeclared d hnode dynamicConfig).bind ?_ ?_
          · exact fun talk e he => .stop hdeclared he
          · exact fun talk _ htalk => (ih hrest).mono fun more x hx => .next hdeclared htalk hx

/-! ## Posts -/

/-- What goes to Druid, and with it the credentials, goes to an endpoint for one of the types. What
is posted are its declared settings, right after Druid answered with settings that lack them. -/
def Warranted (d : DynamicSpec) (before : Talk) (a : Answered siteSig) : Prop :=
  ∀ method url body auth, a.req = .http method url body auth →
    ∃ nodeType ∈ nodeTypes, Endpoint d before nodeType url ∧ (method = .post →
      d.declared nodeType = some body ∧ ∃ first current,
        before = first ++ [fetched url auth (.ok ⟨current, 200⟩)] ∧
          includesJson (currentConfigsJson current) body = .ok false)

/-- Druid had the settings of the type, or accepted them. -/
def Confirmed (d : DynamicSpec) (nodeType dynamicConfig : String) (talk : Talk) : Prop :=
  ∃ url auth current, Endpoint d talk nodeType url ∧ fetched url auth (.ok ⟨current, 200⟩) ∈ talk ∧
    (includesJson (currentConfigsJson current) dynamicConfig = .ok true ∨
      ∃ resp, posted url dynamicConfig auth (.ok resp) ∈ talk ∧ resp.statusCode = 200)

variable {d : DynamicSpec} {nodeType dynamicConfig url : String} {auth : Option BasicAuth}
  {talk more : Talk} {x : Except Exit Unit}

theorem warranted_elsewhere {first : Talk} (h : ∀ a ∈ talk, Elsewhere a.req) :
    Follows (Warranted d) first talk :=
  .of_forall fun a ha _ _ _ _ _ heq => absurd heq (h a ha _ _ _ _)

theorem Dialogue.warranted (hnode : nodeType ∈ nodeTypes)
    (hdeclared : d.declared nodeType = some dynamicConfig) {first : Talk}
    (hurl : Endpoint d first nodeType url) (h : Dialogue nodeType dynamicConfig url auth talk x) :
    Follows (Warranted d) first talk := by
  have hevent : ∀ e first, Follows (Warranted d) first [⟨.event e, ()⟩] := fun e first =>
    warranted_elsewhere (List.forall_mem_singleton.2 (elsewhere_event e))
  have hfetched : ∀ x, Warranted d first (fetched url auth x) := by
    rintro x _ _ _ _ ⟨⟩
    exact ⟨nodeType, hnode, hurl, fun h => by cases h⟩
  have hposted : ∀ {current : String} (x : Except Error Ingestion.Response),
      includesJson (currentConfigsJson current) dynamicConfig = .ok false →
      Warranted d (first ++ [fetched url auth (.ok ⟨current, 200⟩)])
        (posted url dynamicConfig auth x) := by
    rintro current x hx _ _ _ _ ⟨⟩
    exact ⟨nodeType, hnode, hurl.mono (List.subset_append_left _ _),
      fun _ => ⟨hdeclared, first, current, rfl, hx⟩⟩
  cases h with
  | unread hx => exact .cons (hfetched _) (hevent _ _)
  | incomparable hx => exact .cons (hfetched _) (hevent _ _)
  | included hx => exact .cons (hfetched _) .nil
  | unsent hx => exact .cons (hfetched _) (.cons (hposted _ hx) (hevent _ _))
  | refused hx hresp => exact .cons (hfetched _) (.cons (hposted _ hx) .nil)
  | updated hx hresp => exact .cons (hfetched _) (.cons (hposted _ hx) (hevent _ _))

theorem Conversation.warranted (hnode : nodeType ∈ nodeTypes)
    (hdeclared : d.declared nodeType = some dynamicConfig)
    (h : Conversation d nodeType dynamicConfig talk x) (first : Talk) :
    Follows (Warranted d) first talk := by
  cases h with
  | unconnected hlooks =>
      refine warranted_elsewhere
        (List.forall_mem_append.2 ⟨fun a ha => (hlooks a ha).elsewhere, ?_⟩)
      exact List.forall_mem_singleton.2 (elsewhere_event _)
  | connected hlooks hurl hmore =>
      exact (warranted_elsewhere fun a ha => (hlooks a ha).elsewhere).append
        (hmore.warranted hnode hdeclared (hurl.mono (List.subset_append_right _ _)))

/-- Everything is said to Druid at the URL, or to others, who are not written to. -/
theorem Dialogue.requests (h : Dialogue nodeType dynamicConfig url auth talk x) :
    ∀ a ∈ talk, Looks d a.req ∨ ∃ method body, a.req = .http method url body auth := by
  cases h <;> simp [fetched, posted, warned, looks_event]

theorem Conversation.confirmed (h : Conversation d nodeType dynamicConfig talk (.ok ())) :
    Confirmed d nodeType dynamicConfig talk := by
  cases h with
  | @connected _ _ url auth _ hlooks hurl hmore =>
      cases hmore with
      | @included current hx =>
          exact ⟨url, auth, current, hurl.mono (List.subset_append_left _ _), by simp, .inl hx⟩
      | @updated current resp _ hx hresp =>
          exact ⟨url, auth, current, hurl.mono (List.subset_append_left _ _), by simp,
            .inr ⟨resp, by simp, hresp⟩⟩

theorem Confirmed.mono {talk' : Talk} (h : Confirmed d nodeType dynamicConfig talk)
    (hsub : talk ⊆ talk') : Confirmed d nodeType dynamicConfig talk' := by
  obtain ⟨url, auth, current, hurl, hfetched, hcase⟩ := h
  refine ⟨url, auth, current, hurl.mono hsub, hsub hfetched, hcase.imp_right ?_⟩
  rintro ⟨resp, hposted, hresp⟩
  exact ⟨resp, hsub hposted, hresp⟩

variable {types : List String}

theorem Conversations.warranted (h : Conversations d types talk x) (htypes : types ⊆ nodeTypes)
    (first : Talk) : Follows (Warranted d) first talk := by
  induction h generalizing first with
  | done => exact .nil
  | skip hnone hrest ih => exact ih (List.cons_subset.1 htypes).2 first
  | next hdeclared htalk hrest ih =>
      obtain ⟨hnode, hrest⟩ := List.cons_subset.1 htypes
      exact (htalk.warranted hnode hdeclared first).append (ih hrest _)
  | stop hdeclared htalk => exact htalk.warranted (List.cons_subset.1 htypes).1 hdeclared first

theorem Conversations.confirmed (h : Conversations d types talk x) (hx : x = .ok ())
    (hnode : nodeType ∈ types) (hdeclared : d.declared nodeType = some dynamicConfig) :
    Confirmed d nodeType dynamicConfig talk := by
  induction h with
  | done => cases hnode
  | skip hnone hrest ih =>
      rcases List.mem_cons.1 hnode with rfl | hnode
      · rw [hnone] at hdeclared
        cases hdeclared
      · exact ih hx hnode
  | next hdeclared' htalk hrest ih =>
      rcases List.mem_cons.1 hnode with rfl | hnode
      · rw [hdeclared'] at hdeclared
        cases hdeclared
        exact htalk.confirmed.mono (List.subset_append_left _ _)
      · exact (ih hx hnode).mono (List.subset_append_right _ _)
  | stop hdeclared htalk => cases hx

/-! ### The whole reconcile -/

/-- What a reconcile says: to Kubernetes first, and then, if it gets that far, about the settings of
the resource that it read and has in hand. -/
inductive ReconcileTalk (inHand : Druid → Druid) (request : String × String) :
    Talk → Except Exit Result → Prop where
  | undeployed {talk : Talk} {x : Except Exit Result} (haway : ∀ a ∈ talk, Elsewhere a.req)
      (hx : x ≠ .ok .requeueAfter) : ReconcileTalk inHand request talk x
  | deployed {m : Druid} {talk more : Talk} {x : Except Exit Unit}
      (haway : ∀ a ∈ talk, Elsewhere a.req)
      (hmore : Conversations (dynamicSpecOf (inHand m)) nodeTypes more x) :
      ReconcileTalk inHand request
        (⟨.kube (.get .druid request.1 request.2), .ok m⟩ :: talk ++ more)
        (x.map fun _ => .requeueAfter)

theorem uses_embed {α : Type} (p : Code α) : (p.embed kubeEmbedding).Uses Elsewhere :=
  (uses_of_forall p fun _ => trivial).embed fun r _ => elsewhere_kube r

theorem converses_reconcileSite (hash : Hash) (o : MapOrders) (decoding : Decoding)
    (inHand : Druid → Druid) (request : String × String) :
    (reconcileSite hash o decoding inHand request).Converses (ReconcileTalk inHand request) := by
  intro found
  have hget : ∀ a ∈ [(⟨.kube (.get .druid request.1 request.2), found⟩ : Answered siteSig)],
      Elsewhere a.req := List.forall_mem_singleton.2 (elsewhere_kube _)
  cases found with
  | error err =>
      show (if err.notFound = true then _ else _ : SiteM Result).Converses _
      split_ifs with hfound
      · exact .undeployed hget (by simp)
      · exact .undeployed hget (by simp)
  | ok m =>
      refine (Converses.ofUses (uses_embed (deployDruidCluster hash o m decoding))).bind
        (fun talk e haway => ?_) fun talk _ haway => ?_
      · exact .undeployed (List.forall_mem_append.2 ⟨hget, haway⟩) (by simp)
      refine (converses_forEach (dynamicSpecOf (inHand m)) (List.Subset.refl nodeTypes)).bind
        (fun more e hmore => .deployed haway hmore) fun more _ hmore => ?_
      show ReconcileTalk inHand request _ _
      rw [List.append_nil]
      exact .deployed haway hmore

/-- **Posts are warranted, and success is confirmed.** Whatever Kubernetes and Druid answer in a
reconcile: one that does not get to Druid does not end well. Otherwise it has read a resource first,
and goes by what this declares once it is deployed: what is sent to Druid goes to the router that
was found in its namespace; nothing is posted but declared settings, right after Druid answered with
settings that lack them; and if the reconcile ends well it has found every declared setting in
Druid, or Druid has accepted it. -/
theorem posts_warranted {σ : Type} (h : Handler siteSig σ) (hash : Hash) (o : MapOrders)
    (decoding : Decoding) (inHand : Druid → Druid) (request : String × String) (s : σ) :
    let out := exec h (reconcileSite hash o decoding inHand request) s
    (∀ a ∈ out.conversation, Elsewhere a.req) ∧ out.res ≠ .ok .requeueAfter ∨
      ∃ m, out.conversation.head? = some ⟨.kube (.get .druid request.1 request.2), .ok m⟩ ∧
        Follows (Warranted (dynamicSpecOf (inHand m))) [] out.conversation ∧
        (out.res = .ok .requeueAfter → ∀ nodeType ∈ nodeTypes, ∀ dynamicConfig,
          (dynamicSpecOf (inHand m)).declared nodeType = some dynamicConfig →
            Confirmed (dynamicSpecOf (inHand m)) nodeType dynamicConfig out.conversation) := by
  have htalk := (converses_reconcileSite hash o decoding inHand request).exec h s
  dsimp only
  generalize (exec h (reconcileSite hash o decoding inHand request) s).conversation =
    talk at htalk ⊢
  generalize (exec h (reconcileSite hash o decoding inHand request) s).res = x at htalk ⊢
  cases htalk with
  | undeployed haway hx => exact .inl ⟨haway, hx⟩
  | @deployed m talk more x haway hmore =>
      refine .inr ⟨m, rfl, ?_, fun hx nodeType hnode dynamicConfig hdeclared => ?_⟩
      · exact (warranted_elsewhere (List.forall_mem_cons.2 ⟨elsewhere_kube _, haway⟩)).append
          (hmore.warranted (.refl _) _)
      · cases x with
        | error e => cases hx
        | ok _ => exact (hmore.confirmed rfl hnode hdeclared).mono (List.subset_append_right _ _)

/-! ## Failures -/

/-- The last word: a warning with the error, or a post that Druid refused. -/
def Announced (err : Error) (talk : Talk) : Prop :=
  (∃ reason, talk.getLast? = some (warned reason err)) ∨
    ∃ nodeType url body auth resp, talk.getLast? = some (posted url body auth (.ok resp)) ∧
      resp.statusCode ≠ 200 ∧ err = ⟨refusedError nodeType, false⟩

theorem Announced.append {err : Error} (h : Announced err more) (talk : Talk) :
    Announced err (talk ++ more) := by
  rcases h with ⟨reason, hlast⟩ | ⟨nodeType, url, body, auth, resp, hlast, hrest⟩
  · exact .inl ⟨reason, by rw [List.getLast?_append, hlast, Option.some_or]⟩
  · exact .inr ⟨nodeType, url, body, auth,
      resp, by rw [List.getLast?_append, hlast, Option.some_or], hrest⟩

theorem Conversation.announced {e : Exit}
    (h : Conversation d nodeType dynamicConfig talk (.error e)) :
    ∃ err, e = .error err ∧ Announced err talk := by
  cases h with
  | @unconnected _ reason err hlooks => exact ⟨err, rfl, .inl ⟨reason, by simp⟩⟩
  | @connected talk more url auth _ hlooks hurl hmore =>
      suffices h : ∃ err, e = .error err ∧ Announced err more by
        obtain ⟨err, he, hlast⟩ := h
        exact ⟨err, he, hlast.append talk⟩
      cases hmore with
      | unread hx => exact ⟨_, rfl, .inl ⟨_, rfl⟩⟩
      | incomparable hx => exact ⟨_, rfl, .inl ⟨_, rfl⟩⟩
      | unsent hx => exact ⟨_, rfl, .inl ⟨_, rfl⟩⟩
      | refused hx hresp =>
          exact ⟨_, rfl, .inr ⟨nodeType, url, dynamicConfig, auth, _, rfl, hresp, rfl⟩⟩

theorem Conversations.announced {e : Exit} (h : Conversations d types talk x) (hx : x = .error e) :
    ∃ err, e = .error err ∧ Announced err talk := by
  induction h with
  | done => cases hx
  | skip hnone hrest ih => exact ih hx
  | @next _ _ _ talk _ _ hdeclared htalk hrest ih =>
      obtain ⟨err, he, hmore⟩ := ih hx
      exact ⟨err, he, hmore.append talk⟩
  | stop hdeclared htalk =>
      cases hx
      exact htalk.announced

/-- **Failures are reported.** Whatever the servers answer, an update of the settings that fails
does so with an error, and the last thing it did was to record a warning with the text of the error;
but for settings that Druid refused, which leave no event. -/
theorem failures_reported {σ : Type} (h : Handler siteSig σ) (d : DynamicSpec) (s : σ) {e : Exit}
    (hres : (exec h (updateDruidDynamicConfigs d) s).res = .error e) :
    ∃ err, e = .error err ∧ Announced err (exec h (updateDruidDynamicConfigs d) s).conversation :=
  ((converses_forEach d (List.Subset.refl nodeTypes)).exec h s).announced hres

/-- The middle managers of `c` are to have one setting. -/
def declaredWorkers : DynamicSpec where
  ns := "d"
  name := "c"
  nodes nodeType := if nodeType = "middlemanagers" then some (some "\x7b\"a\":1\x7d") else none

/-- An empty cluster, and no Druid. -/
def emptySite : Handler siteSig Unit
  | .kube r, _ => ((serve {} r {}).1, ())
  | .getSecret _ _, _ => (.ok ∅, ())
  | .http _ _ _ _, _ => (.error ⟨"connection refused", false⟩, ())
  | .event _, _ => ((), ())

/-- Without a service of the router the update fails, and says so. -/
theorem failures_reported_router :
    (exec emptySite (updateDruidDynamicConfigs declaredWorkers) ()).res =
      .error (.error ⟨"router svc discovery fail", false⟩) ∧
    ∃ err, Exit.error ⟨"router svc discovery fail", false⟩ = .error err ∧
      Announced err (exec emptySite (updateDruidDynamicConfigs declaredWorkers) ()).conversation :=
  ⟨by decide, failures_reported emptySite declaredWorkers () (by decide)⟩

end DruidOperator.Controller
