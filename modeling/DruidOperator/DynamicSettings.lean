import DruidOperator.DynamicConfig
import DruidOperator.Lib.Lists

/-!
# Dynamic settings over many reconciles

Druid keeps what it accepts, and requests to it fail now and then, with or without having taken
effect. This file runs whole reconciles against such a Druid, next to an API server.

* `Merging` — what Druid makes of settings it accepts, of which only this is assumed: it has them.
* `serveSite` — Kubernetes, the secrets and Druid as the reconciler meets them.
* `InEffect` — Druid has the declared settings of a type of nodes.
* `settings_settle` — one reconcile that ends well puts all declared settings in effect, and from
  then on nothing is posted.
* `reconcile_refined` — to Kubernetes, a reconcile is the one of `Reconciler.lean`, which leaves
  Druid out.
-/

namespace DruidOperator.Controller

open Interaction Prog Kube DruidApi Runs
open Ingestion (Method includesJson)

variable {nodeType url : String} {s : Site} {d : DynamicSpec}

/-! ## Druid -/

/-- The two configurations of Druid. -/
inductive ConfigApi where
  | worker
  | coordinator
deriving DecidableEq

def ConfigApi.path : ConfigApi → String
  | .worker => makePath "" "indexer" "worker" []
  | .coordinator => makePath "" "coordinator" "config" []

/-- The configuration a URL leads to, at whatever router. -/
def configApi? (url : String) : Option ConfigApi :=
  if ConfigApi.worker.path.toList <:+ url.toList then some .worker
  else if ConfigApi.coordinator.path.toList <:+ url.toList then some .coordinator
  else none

/-- What Druid has after it accepted a body; it includes the body. -/
structure Merging where
  merge : String → String → String
  has : ∀ current body b, includesJson (currentConfigsJson current) body = .ok b →
    includesJson (currentConfigsJson (merge current body)) body = .ok true

/-- A Druid whose settings become those it is sent. -/
def replacing : Merging where
  merge _ body := body
  has current body b h := by
    obtain ⟨desired, hdesired⟩ : ∃ desired, Json.unmarshalMap body = some desired := by
      simp only [includesJson] at h
      cases hcurrent : Json.unmarshalMap (currentConfigsJson current) with
      | none => simp [hcurrent] at h
      | some x =>
          cases hbody : Json.unmarshalMap body with
          | none => simp [hcurrent, hbody] at h
          | some desired => exact ⟨desired, rfl⟩
    have hne : body ≠ "" := by
      intro hempty
      have hnone : Json.unmarshalMap "" = none := by decide +kernel
      rw [hempty, hnone] at hdesired
      cases hdesired
    rw [currentConfigsJson, if_neg hne]
    rcases Json.unmarshalMap_cases hdesired with rfl | ⟨fs, rfl⟩
    · simp only [includesJson, hdesired]
      rfl
    · exact Ingestion.includesJson_self hdesired
        (Json.canonical_of_unmarshal (Ingestion.unmarshal_of_unmarshalMap hdesired)).sorted

/-- How a request to Druid fails: it may have taken effect, but its answer is not 200. -/
structure Failure where
  applied : Bool := false
  answer : Except Error Ingestion.Response
  failed : ∀ resp, answer = .ok resp → resp.statusCode ≠ 200

abbrev Settings := ConfigApi → String

def druidAnswer (method : Method) (url : String) (settings : Settings) : Ingestion.Response :=
  match configApi? url, method with
  | none, _ => ⟨"", 404⟩
  | some api, .get => ⟨settings api, 200⟩
  | some _, .post => ⟨"", 200⟩

def druidSettings (M : Merging) (method : Method) (url body : String) (settings : Settings) :
    Settings :=
  match configApi? url, method with
  | some api, .post => Function.update settings api (M.merge (settings api) body)
  | _, _ => settings

/-! ## The site -/

structure Site where
  world : World
  settings : Settings
  /-- The number of requests to Druid so far. -/
  requests : ℕ := 0

structure SiteEnv where
  kube : Env := {}
  secrets : String → String → Except Error StrMap := fun _ _ => .ok ∅
  /-- How the `n`-th request to Druid fails, if it does. -/
  druid : ℕ → Option Failure := fun _ => none

def serveSite (M : Merging) (env : SiteEnv) : Handler siteSig Site
  | .kube r, s => ((serve env.kube r s.world).1, { s with world := (serve env.kube r s.world).2 })
  | .getSecret ns name, s => (env.secrets ns name, s)
  | .http method url body _, s =>
      match env.druid s.requests with
      | none => (.ok (druidAnswer method url s.settings),
          { s with
            settings := druidSettings M method url body s.settings
            requests := s.requests + 1 })
      | some f => (f.answer,
          { s with
            settings := if f.applied then druidSettings M method url body s.settings else s.settings
            requests := s.requests + 1 })
  | .event _, s => ((), s)

/-! ### Where requests lead -/

/-- The configuration for a type of nodes. -/
def apiOf (nodeType : String) : ConfigApi :=
  if nodeType = "middlemanagers" then .worker else .coordinator

theorem path_isSuffix (svcName : String) (api : ConfigApi) :
    api.path.toList <:+ (svcName ++ api.path).toList := by
  rw [String.toList_append]
  exact List.suffix_append _ _

theorem configApi?_path (svcName : String) (api : ConfigApi) :
    configApi? (svcName ++ api.path) = some api := by
  unfold configApi?
  cases api with
  | worker => rw [if_pos (path_isSuffix svcName .worker)]
  | coordinator =>
      -- the two paths do not end alike
      have hnot : ¬ ConfigApi.worker.path.toList <:+
          (svcName ++ ConfigApi.coordinator.path).toList := by
        intro hsuffix
        have hlast := Lists.getLast?_of_suffix hsuffix (by decide +kernel)
        rw [String.toList_append, List.getLast?_append_of_ne_nil _ (by decide +kernel)] at hlast
        exact absurd hlast (by decide +kernel)
      rw [if_neg hnot, if_pos (path_isSuffix svcName .coordinator)]

theorem configApi?_dynamicConfigPath {svcName : String}
    (hpath : dynamicConfigPath svcName nodeType = .ok url) :
    configApi? url = some (apiOf nodeType) := by
  unfold dynamicConfigPath at hpath
  unfold apiOf
  split_ifs at hpath with hworker hcoordinator
  · cases hpath
    rw [if_pos hworker, makePath_eq_append]
    exact configApi?_path svcName .worker
  · cases hpath
    rw [if_neg hworker, makePath_eq_append]
    exact configApi?_path svcName .coordinator

theorem apiOf_injOn {nodeType' : String} (h : nodeType ∈ nodeTypes) (h' : nodeType' ∈ nodeTypes)
    (heq : apiOf nodeType = apiOf nodeType') : nodeType = nodeType' := by
  simp only [nodeTypes, List.mem_cons, List.not_mem_nil, or_false] at h h'
  rcases h with rfl | rfl <;> rcases h' with rfl | rfl
  · rfl
  · exact absurd heq (by decide)
  · exact absurd heq (by decide)
  · rfl

/-! ### What requests change -/

section Serve

variable {M : Merging} {env : SiteEnv}

theorem druidSettings_of_ne {api : ConfigApi} (h : configApi? url ≠ some api) (method : Method)
    (body : String) (settings : Settings) :
    druidSettings M method url body settings api = settings api := by
  unfold druidSettings
  cases method with
  | get => cases configApi? url <;> rfl
  | post =>
      cases hapi : configApi? url with
      | none => rfl
      | some api' =>
          have hne : api ≠ api' := fun heq => h (heq ▸ hapi)
          exact Function.update_of_ne hne _ _

@[simp] theorem druidSettings_get (url body : String) (settings : Settings) :
    druidSettings M .get url body settings = settings := by
  unfold druidSettings
  cases configApi? url <;> rfl

/-- Nothing is posted to a configuration. -/
def PostsNot (api : ConfigApi) (r : SiteReq) : Prop :=
  ∀ url body auth, r = .http .post url body auth → configApi? url ≠ some api

/-- **A configuration changes only by posts to it.** -/
theorem serveSite_settings {api : ConfigApi} {r : SiteReq} (h : PostsNot api r) (s : Site) :
    (serveSite M env r s).2.settings api = s.settings api := by
  cases r with
  | kube r => rfl
  | getSecret ns name => rfl
  | event e => rfl
  | http method url body auth =>
      have hkeeps : druidSettings M method url body s.settings api = s.settings api := by
        cases method with
        | get => rw [druidSettings_get]
        | post => exact druidSettings_of_ne (h url body auth rfl) _ _ _
      simp only [serveSite]
      split
      · exact hkeeps
      · dsimp only
        split_ifs
        · exact hkeeps
        · rfl

theorem serveSite_ok {method : Method} {body : String} {auth : Option BasicAuth}
    {resp : Ingestion.Response}
    (hresp : (serveSite M env (.http method url body auth) s).1 = .ok resp)
    (hstatus : resp.statusCode = 200) :
    resp = druidAnswer method url s.settings ∧
      (serveSite M env (.http method url body auth) s).2.settings =
        druidSettings M method url body s.settings := by
  simp only [serveSite] at hresp ⊢
  cases hfault : env.druid s.requests with
  | none =>
      rw [hfault] at hresp
      cases hresp
      exact ⟨rfl, rfl⟩
  | some f =>
      rw [hfault] at hresp
      exact absurd hstatus (f.failed resp hresp)

/-! ### What a conversation does to the settings -/

/-- Druid has the settings that are declared for the type. -/
def InEffect (declared : String → Option String) (settings : Settings) (nodeType : String) : Prop :=
  ∀ dynamicConfig, declared nodeType = some dynamicConfig →
    includesJson (currentConfigsJson (settings (apiOf nodeType))) dynamicConfig = .ok true

theorem Elsewhere.postsNot {r : SiteReq} (h : Elsewhere r) (api : ConfigApi) : PostsNot api r :=
  fun url body auth heq => absurd heq (h .post url body auth)

theorem Endpoint.configApi {before : Talk} (h : Endpoint d before nodeType url) :
    configApi? url = some (apiOf nodeType) := by
  obtain ⟨_, _, _, _, hpath⟩ := h
  exact configApi?_dynamicConfigPath hpath

variable {s t : Site} {talk more : Talk} {api : ConfigApi} {url nodeType dynamicConfig : String}
  {auth : Option BasicAuth} {x : Except Exit Unit} {d : DynamicSpec}

theorem serves_settings (hserves : Serves (serveSite M env) s talk t)
    (h : ∀ a ∈ talk, PostsNot api a.req) : t.settings api = s.settings api :=
  hserves.keeps (f := fun s => s.settings api) fun a ha s => serveSite_settings (h a ha) s

/-- **Reading the settings** gives those Druid has. -/
theorem serves_fetched {current : String} (hurl : configApi? url = some api)
    (h : Serves (serveSite M env) s (fetched url auth (.ok ⟨current, 200⟩) :: more) t) :
    current = s.settings api ∧ ∃ u, u.settings = s.settings ∧
      Serves (serveSite M env) u more t := by
  obtain ⟨hresp, hmore⟩ := h
  obtain ⟨hanswer, hsettings⟩ := serveSite_ok hresp.symm rfl
  rw [druidSettings_get] at hsettings
  simp only [druidAnswer, hurl] at hanswer
  exact ⟨congrArg Ingestion.Response.responseBody hanswer, _, hsettings, hmore⟩

theorem Dialogue.postsNot (hurl : configApi? url = some api)
    (h : Dialogue nodeType dynamicConfig url auth talk x)
    (hserves : Serves (serveSite M env) s talk t)
    (hs : includesJson (currentConfigsJson (s.settings api)) dynamicConfig = .ok true) :
    ∀ a ∈ talk, PostsNot api a.req := by
  have hget : ∀ x, PostsNot api (fetched url auth x).req := fun x _ _ _ h => by cases h
  have hevent : ∀ e, PostsNot api (.event e) := fun e => (elsewhere_event e).postsNot api
  -- what Druid answers does not lack them
  have hlacks : ∀ {current : String} {more : Talk},
      Serves (serveSite M env) s (fetched url auth (.ok ⟨current, 200⟩) :: more) t →
      includesJson (currentConfigsJson current) dynamicConfig ≠ .ok false := by
    intro current more hserves hx
    rw [(serves_fetched hurl hserves).1, hs] at hx
    cases hx
  cases h with
  | unread hx =>
      exact List.forall_mem_cons.2 ⟨hget _, List.forall_mem_singleton.2 (hevent _)⟩
  | incomparable hx =>
      exact List.forall_mem_cons.2 ⟨hget _, List.forall_mem_singleton.2 (hevent _)⟩
  | included hx => exact List.forall_mem_singleton.2 (hget _)
  | unsent hx => exact absurd hx (hlacks hserves)
  | refused hx hresp => exact absurd hx (hlacks hserves)
  | updated hx hresp => exact absurd hx (hlacks hserves)

/-- **A dialogue that ends well** has put the settings in effect. -/
theorem Dialogue.inEffect (hurl : configApi? url = some api)
    (h : Dialogue nodeType dynamicConfig url auth talk (.ok ()))
    (hserves : Serves (serveSite M env) s talk t) :
    includesJson (currentConfigsJson (t.settings api)) dynamicConfig = .ok true := by
  cases h with
  | included hx =>
      obtain ⟨rfl, u, hu, rfl⟩ := serves_fetched hurl hserves
      rw [hu]
      exact hx
  | @updated current resp e hx hresp =>
      obtain ⟨rfl, u, hu, hposted, -, rfl⟩ := serves_fetched hurl hserves
      have hsettings := (serveSite_ok hposted.symm hresp).2
      show includesJson (currentConfigsJson ((serveSite M env (.http .post url dynamicConfig auth)
        u).2.settings api)) dynamicConfig = .ok true
      rw [hsettings]
      simp only [druidSettings, hurl, Function.update_self]
      rw [hu]
      exact M.has _ _ false hx

theorem Conversation.postsNot_other (hne : apiOf nodeType ≠ api)
    (h : Conversation d nodeType dynamicConfig talk x) : ∀ a ∈ talk, PostsNot api a.req := by
  cases h with
  | unconnected hlooks =>
      refine List.forall_mem_append.2 ⟨fun a ha => (hlooks a ha).elsewhere.postsNot api, ?_⟩
      exact List.forall_mem_singleton.2 ((elsewhere_event _).postsNot api)
  | connected hlooks hurl hmore =>
      refine List.forall_mem_append.2 ⟨fun a ha => (hlooks a ha).elsewhere.postsNot api,
        fun a ha => ?_⟩
      rcases hmore.requests (d := d) a ha with hlook | ⟨method, body, hreq⟩
      · exact hlook.elsewhere.postsNot api
      · intro url' body' auth' heq hapi
        rw [hreq] at heq
        cases heq
        rw [hurl.configApi] at hapi
        exact hne (Option.some.inj hapi)

theorem Conversation.postsNot (h : Conversation d nodeType dynamicConfig talk x)
    (hserves : Serves (serveSite M env) s talk t)
    (hs : includesJson (currentConfigsJson (s.settings (apiOf nodeType))) dynamicConfig =
      .ok true) :
    ∀ a ∈ talk, PostsNot (apiOf nodeType) a.req := by
  cases h with
  | unconnected hlooks =>
      refine List.forall_mem_append.2 ⟨fun a ha => (hlooks a ha).elsewhere.postsNot _, ?_⟩
      exact List.forall_mem_singleton.2 ((elsewhere_event _).postsNot _)
  | connected hlooks hurl hmore =>
      have haway := fun a ha => (hlooks a ha).elsewhere.postsNot (apiOf nodeType)
      obtain ⟨u, htalk, hserves⟩ := hserves.split
      refine List.forall_mem_append.2 ⟨haway, hmore.postsNot hurl.configApi hserves ?_⟩
      rw [serves_settings htalk haway]
      exact hs

theorem Conversation.leaves {nodeType' : String} (hnode : nodeType ∈ nodeTypes)
    (hnode' : nodeType' ∈ nodeTypes) (hdeclared : d.declared nodeType' = some dynamicConfig)
    (h : Conversation d nodeType' dynamicConfig talk x)
    (hserves : Serves (serveSite M env) s talk t)
    (hs : InEffect d.declared s.settings nodeType) :
    ∀ a ∈ talk, PostsNot (apiOf nodeType) a.req := by
  by_cases hsame : nodeType' = nodeType
  · subst hsame
    exact h.postsNot hserves (hs dynamicConfig hdeclared)
  · exact h.postsNot_other fun heq => hsame (apiOf_injOn hnode' hnode heq)

variable {types : List String}

/-- **Settings in effect are left alone**, whatever fails. -/
theorem Conversations.postsNot (h : Conversations d types talk x) (htypes : types ⊆ nodeTypes)
    (hnode : nodeType ∈ nodeTypes) (hserves : Serves (serveSite M env) s talk t)
    (hs : InEffect d.declared s.settings nodeType) :
    ∀ a ∈ talk, PostsNot (apiOf nodeType) a.req := by
  induction h generalizing s with
  | done => exact fun a ha => absurd ha List.not_mem_nil
  | skip hnone hrest ih => exact ih (List.cons_subset.1 htypes).2 hserves hs
  | next hdeclared htalk hrest ih =>
      obtain ⟨hfirst, hrest⟩ := List.cons_subset.1 htypes
      obtain ⟨u, hturn, hmore⟩ := hserves.split
      have hleaves := htalk.leaves hnode hfirst hdeclared hturn hs
      refine List.forall_mem_append.2 ⟨hleaves, ih hrest hmore ?_⟩
      rw [InEffect, serves_settings hturn hleaves]
      exact hs
  | stop hdeclared htalk =>
      exact htalk.leaves hnode (List.cons_subset.1 htypes).1 hdeclared hserves hs

/-- **An update that ends well** has put all declared settings in effect. -/
theorem Conversations.inEffect (h : Conversations d types talk x) (hx : x = .ok ())
    (htypes : types ⊆ nodeTypes) (hnode : nodeType ∈ types)
    (hserves : Serves (serveSite M env) s talk t) : InEffect d.declared t.settings nodeType := by
  induction h generalizing s with
  | done => cases hnode
  | skip hnone hrest ih =>
      rcases List.mem_cons.1 hnode with rfl | hnode
      · intro dynamicConfig h
        rw [hnone] at h
        cases h
      · exact ih hx (List.cons_subset.1 htypes).2 hnode hserves
  | next hdeclared htalk hrest ih =>
      obtain ⟨hfirst, hothers⟩ := List.cons_subset.1 htypes
      obtain ⟨u, hturn, hmore⟩ := hserves.split
      rcases List.mem_cons.1 hnode with rfl | hnode
      · -- the later turns leave it alone
        have hu : InEffect d.declared u.settings nodeType := by
          intro dynamicConfig' h
          rw [hdeclared] at h
          cases h
          cases htalk with
          | connected hlooks hurl hmore =>
              obtain ⟨v, -, hdialogue⟩ := hturn.split
              exact hmore.inEffect hurl.configApi hdialogue
        rw [InEffect, serves_settings hmore (hrest.postsNot hothers hfirst hmore hu)]
        exact hu
      · exact ih hx hothers hnode hmore
  | stop hdeclared htalk => cases hx

/-! ## Reconciles -/

variable {result : Except Exit Result} {inHand : Druid → Druid} {request : String × String}
  {declared : String → Option String}

/-- The resource that the reconcile finds declares the same settings, once it is deployed. -/
def StillDeclares (declared : String → Option String) (env : SiteEnv) (inHand : Druid → Druid)
    (request : String × String) (s : Site) : Prop :=
  ∀ m, (serve env.kube (.get .druid request.1 request.2) s.world).1 = .ok m →
    ∀ nodeType ∈ nodeTypes, (dynamicSpecOf (inHand m)).declared nodeType = declared nodeType

/-- The part of a reconcile that is about the settings, in a state with the settings it began
with. -/
theorem ReconcileTalk.deployed_split {m : Druid}
    (haway : ∀ a ∈ talk, Elsewhere a.req) (hdeclares : StillDeclares declared env inHand request s)
    (hserves : Serves (serveSite M env) s
      (⟨.kube (.get .druid request.1 request.2), .ok m⟩ :: talk ++ more) t) :
    (∀ nodeType ∈ nodeTypes, (dynamicSpecOf (inHand m)).declared nodeType = declared nodeType) ∧
      ∃ u, u.settings = s.settings ∧ Serves (serveSite M env) u more t := by
  have hget : (serveSite M env (.kube (.get .druid request.1 request.2)) s).1 = .ok m :=
    hserves.1.symm
  obtain ⟨u, htalk, hmore⟩ := hserves.split
  refine ⟨hdeclares m hget, u, funext fun api => ?_, hmore⟩
  refine serves_settings htalk (List.forall_mem_cons.2 ⟨?_, fun a ha => (haway a ha).postsNot api⟩)
  exact (elsewhere_kube _).postsNot api

/-- **A reconcile leaves settings in effect alone**, whatever fails in it. -/
theorem ReconcileTalk.postsNot (h : ReconcileTalk inHand request talk result)
    (hdeclares : StillDeclares declared env inHand request s) (hnode : nodeType ∈ nodeTypes)
    (hserves : Serves (serveSite M env) s talk t) (hs : InEffect declared s.settings nodeType) :
    ∀ a ∈ talk, PostsNot (apiOf nodeType) a.req := by
  cases h with
  | undeployed haway hx => exact fun a ha => (haway a ha).postsNot _
  | deployed haway hmore =>
      obtain ⟨hsame, u, hu, hmores⟩ := deployed_split haway hdeclares hserves
      refine List.forall_mem_append.2 ⟨List.forall_mem_cons.2 ⟨(elsewhere_kube _).postsNot _,
        fun a ha => (haway a ha).postsNot _⟩, hmore.postsNot (.refl _) hnode hmores ?_⟩
      rw [InEffect, hsame nodeType hnode, hu]
      exact hs

theorem ReconcileTalk.inEffect (h : ReconcileTalk inHand request talk result)
    (hdeclares : StillDeclares declared env inHand request s) (hx : result = .ok .requeueAfter)
    (hnode : nodeType ∈ nodeTypes) (hserves : Serves (serveSite M env) s talk t) :
    InEffect declared t.settings nodeType := by
  cases h with
  | undeployed haway hne => exact absurd hx hne
  | @deployed m talk more y haway hmore =>
      obtain ⟨hsame, u, -, hmores⟩ := deployed_split haway hdeclares hserves
      cases y with
      | error e => cases hx
      | ok _ =>
          have heffect := hmore.inEffect rfl (.refl _) hnode hmores
          rwa [InEffect, hsame nodeType hnode] at heffect

theorem ReconcileTalk.posts (h : ReconcileTalk inHand request talk result) {a : Answered siteSig}
    (ha : a ∈ talk) {body : String} (hreq : a.req = .http .post url body auth) :
    ∃ nodeType ∈ nodeTypes, configApi? url = some (apiOf nodeType) := by
  cases h with
  | undeployed haway hx => exact absurd hreq (haway a ha _ _ _ _)
  | @deployed m talk more y haway hmore =>
      rcases List.mem_append.1 ha with hfirst | hrest
      · rcases List.mem_cons.1 hfirst with rfl | hfirst
        · cases hreq
        · exact absurd hreq (haway a hfirst _ _ _ _)
      · obtain ⟨said, after, heq⟩ := List.append_of_mem hrest
        obtain ⟨nodeType, hnode, hurl, -⟩ :=
          hmore.warranted (.refl _) [] said a after heq .post url body auth hreq
        exact ⟨nodeType, hnode, hurl.configApi⟩

end Serve

/-- One reconcile of a run, and what others did to the cluster before it. -/
structure SiteRound where
  env : SiteEnv := {}
  orders : MapOrders := {}
  decoding : Decoding := .same
  inHand : Druid → Druid := id
  outside : Cluster → Cluster := id

section Runs

variable (M : Merging) (hash : Hash) (request : String × String)

/-- The site at the start of a round. -/
def Site.entered (s : Site) (r : SiteRound) : Site :=
  { s with world := { s.world with cluster := r.outside s.world.cluster } }

/-- The outcome of the reconcile of a round. -/
def roundOutcome (s : Site) (r : SiteRound) : Outcome siteSig Site Exit Result :=
  exec (serveSite M r.env) (reconcileSite hash r.orders r.decoding r.inHand request) (s.entered r)

def siteStep (s : Site) (r : SiteRound) : Site := (roundOutcome M hash request s r).state

/-- The resource that a round finds declares the same settings, once it is deployed. -/
def RoundDeclares (declared : String → Option String) (s : Site) (r : SiteRound) : Prop :=
  StillDeclares declared r.env r.inHand request (s.entered r)

variable {M hash request} {declared : String → Option String}

theorem roundOutcome_talk (s : Site) (r : SiteRound) :
    ReconcileTalk r.inHand request (roundOutcome M hash request s r).conversation
      (roundOutcome M hash request s r).res :=
  (converses_reconcileSite hash r.orders r.decoding r.inHand request).exec _ _

theorem roundOutcome_postsNot (hnode : nodeType ∈ nodeTypes) {r : SiteRound}
    (hr : RoundDeclares request declared s r) (hs : InEffect declared s.settings nodeType) :
    ∀ a ∈ (roundOutcome M hash request s r).conversation, PostsNot (apiOf nodeType) a.req :=
  (roundOutcome_talk s r).postsNot hr hnode (exec_serves _ _ _) hs

theorem siteStep_settings (hnode : nodeType ∈ nodeTypes) {r : SiteRound}
    (hr : RoundDeclares request declared s r) (hs : InEffect declared s.settings nodeType) :
    (siteStep M hash request s r).settings (apiOf nodeType) = s.settings (apiOf nodeType) := by
  have hserves := exec_serves (serveSite M r.env)
    (reconcileSite hash r.orders r.decoding r.inHand request) (s.entered r)
  have hsame := serves_settings hserves (roundOutcome_postsNot hnode hr hs)
  exact hsame

/-- Settings in effect stay as they are, along a run in which they stay declared. -/
theorem run_settings {nodeType : String} (hnode : nodeType ∈ nodeTypes) {s : Site}
    {rounds : List SiteRound}
    (hrounds : Meets (siteStep M hash request) (RoundDeclares request declared) s rounds)
    (hs : InEffect declared s.settings nodeType) :
    (run (siteStep M hash request) s rounds).settings (apiOf nodeType) =
      s.settings (apiOf nodeType) := by
  refine run_invariant (C := RoundDeclares request declared)
    (I := fun t : Site => t.settings (apiOf nodeType) = s.settings (apiOf nodeType))
    (fun t a _ ht ha => ?_) rfl hrounds
  refine (siteStep_settings hnode ha ?_).trans ht
  rw [InEffect, ht]
  exact hs

/-- **Dynamic settings settle.** Whatever fails in a run of reconciles, and whatever others do to
the cluster: once a reconcile has ended well, and as long as the resource declares the same
settings, Druid has all of them and keeps both of its configurations as they are, and no later
reconcile posts anything. -/
theorem settings_settle {s : Site} {r : SiteRound} {after : List SiteRound}
    (hdeclares : Meets (siteStep M hash request) (RoundDeclares request declared) s (r :: after))
    (hr : (roundOutcome M hash request s r).res = .ok .requeueAfter) :
    (∀ nodeType ∈ nodeTypes,
      InEffect declared (run (siteStep M hash request) s (r :: after)).settings nodeType) ∧
    (run (siteStep M hash request) s (r :: after)).settings =
      (siteStep M hash request s r).settings ∧
    ∀ r', RoundDeclares request declared (run (siteStep M hash request) s (r :: after)) r' →
      ∀ e ∈ (roundOutcome M hash request (run (siteStep M hash request) s (r :: after)) r').steps,
        ∀ url body auth, e.req ≠ .http .post url body auth := by
  obtain ⟨hfirst, hafter⟩ := hdeclares
  generalize hdone : siteStep M hash request s r = done at hafter ⊢
  generalize hend : run (siteStep M hash request) s (r :: after) = last
  have hend' : run (siteStep M hash request) done after = last := by
    rw [← hend, ← hdone]
    rfl
  have heffect : ∀ nodeType ∈ nodeTypes, InEffect declared done.settings nodeType := by
    intro nodeType hnode
    rw [← hdone]
    exact (roundOutcome_talk s r).inEffect hfirst hr hnode (exec_serves _ _ _)
  -- both configurations stay as they are
  have hsame : ∀ nodeType ∈ nodeTypes,
      last.settings (apiOf nodeType) = done.settings (apiOf nodeType) := by
    intro nodeType hnode
    rw [← hend']
    exact run_settings hnode hafter (heffect nodeType hnode)
  have hlast : ∀ nodeType ∈ nodeTypes, InEffect declared last.settings nodeType := by
    intro nodeType hnode
    rw [InEffect, hsame nodeType hnode]
    exact heffect nodeType hnode
  refine ⟨hlast, ?_, ?_⟩
  · funext api
    cases api with
    | worker => exact hsame "middlemanagers" (by decide)
    | coordinator => exact hsame "coordinators" (by decide)
  · intro r' hr' e he url body auth hreq
    have hmem : e.answered ∈ (roundOutcome M hash request last r').conversation :=
      List.mem_map_of_mem he
    obtain ⟨nodeType, hnode, hurl⟩ := (roundOutcome_talk last r').posts hmem hreq
    exact roundOutcome_postsNot hnode hr' (hlast nodeType hnode) _ hmem url body auth hreq hurl

def connectionRefused : Failure where
  answer := .error ⟨"connection refused", false⟩
  failed _ h := by cases h

/-- Druid does not answer the first request. -/
def druidAway : SiteRound where
  env := { druid := fun n => if n = 0 then some connectionRefused else none }

/-- A router, and middle managers with one setting. -/
def managedCluster : Druid :=
  { routerCluster 8088 with body := { (routerCluster 8088).body with
    spec := { (routerCluster 8088).spec with
      nodes := (routerCluster 8088).spec.nodes.insert ⟨"middlemanagers",
        { nodeType := .middleManager, druidPort := 8091,
          dynamicConfig := some "\x7b\"a\":1\x7d" }⟩ } } }

def managedSite : Site where
  world := storedAlone managedCluster
  settings _ := ""

/-- What the middle managers are to have. -/
def managedSettings (nodeType : String) : Option String :=
  if nodeType = "middlemanagers" then some "\x7b\"a\":1\x7d" else none

theorem RoundDeclares.of_read {r : SiteRound}
    (h : (serve r.env.kube (.get .druid request.1 request.2) (s.entered r).world).1.toOption.map
      (fun m => nodeTypes.map (dynamicSpecOf (r.inHand m)).declared) = some
        (nodeTypes.map declared)) :
    RoundDeclares request declared s r := by
  intro m hm nodeType hnode
  rw [hm] at h
  exact List.map_inj_left.1 (Option.some.inj h) nodeType hnode

/-- The site after a reconcile that found Druid away. -/
def deferredSite : Site := siteStep replacing imageHash ("d", "c") managedSite druidAway

/-- The next reconcile posts the settings, and the one after it leaves them. -/
theorem settings_settle_workers :
    (roundOutcome replacing imageHash ("d", "c") managedSite druidAway).res =
      .error (.error ⟨"connection refused", false⟩) ∧
    (run (siteStep replacing imageHash ("d", "c")) deferredSite [{}, druidAway]).settings .worker =
      "\x7b\"a\":1\x7d" ∧
    ∀ nodeType ∈ nodeTypes, InEffect managedSettings
      (run (siteStep replacing imageHash ("d", "c")) deferredSite [{}, druidAway]).settings
      nodeType := by
  have hrun : (roundOutcome replacing imageHash ("d", "c") managedSite druidAway).res =
      .error (.error ⟨"connection refused", false⟩) ∧
    (roundOutcome replacing imageHash ("d", "c") deferredSite {}).res = .ok .requeueAfter ∧
    (run (siteStep replacing imageHash ("d", "c")) deferredSite [{}, druidAway]).settings .worker =
      "\x7b\"a\":1\x7d" := by
    decide +kernel
  have hdeclares : Meets (siteStep replacing imageHash ("d", "c"))
      (RoundDeclares ("d", "c") managedSettings) deferredSite [{}, druidAway] :=
    ⟨.of_read (by decide +kernel), .of_read (by decide +kernel), trivial⟩
  exact ⟨hrun.1, hrun.2.2, (settings_settle hdeclares hrun.2.1).1⟩

end Runs

/-! ## What Kubernetes sees -/

/-- A step as the API server sees it. -/
def kubeStep : Step siteSig Site → Option (Step Kube.sig World)
  | ⟨pre, .kube r, resp⟩ => some ⟨pre.world, r, resp⟩
  | _ => none

section Refinement

variable {M : Merging} {env : SiteEnv}

/-- An embedded program is to the API server what the program is. -/
theorem exec_embed_kube {α : Type} (p : Code α) (s : Site) :
    (exec (serveSite M env) (p.embed kubeEmbedding) s).res = (exec (serve env.kube) p s.world).res ∧
      (exec (serveSite M env) (p.embed kubeEmbedding) s).state.world =
        (exec (serve env.kube) p s.world).state ∧
      (exec (serveSite M env) (p.embed kubeEmbedding) s).steps.filterMap kubeStep =
        (exec (serve env.kube) p s.world).steps := by
  induction p generalizing s with
  | ret a => exact ⟨rfl, rfl, rfl⟩
  | exit e => exact ⟨rfl, rfl, rfl⟩
  | call r k ih =>
      obtain ⟨hres, hstate, hsteps⟩ := ih (serve env.kube r s.world).1
        { s with world := (serve env.kube r s.world).2 }
      refine ⟨hres, hstate, ?_⟩
      exact congrArg (List.cons _) hsteps

/-- A list of the services of the router of a resource. -/
def ListsRouter (d : DynamicSpec) (r : Request) : Prop :=
  r = .list .service d.ns (routerLabels d.name)

theorem Conversations.lists {types : List String} {talk : Talk} {x : Except Exit Unit}
    (h : Conversations d types talk x) : ∀ a ∈ talk, ∀ k, a.req = .kube k → ListsRouter d k := by
  have hturn : ∀ {nodeType dynamicConfig : String} {talk : Talk} {x : Except Exit Unit},
      Conversation d nodeType dynamicConfig talk x → ∀ a ∈ talk, ∀ k, a.req = .kube k →
        ListsRouter d k := by
    intro nodeType dynamicConfig talk x h
    cases h with
    | unconnected hlooks =>
        refine List.forall_mem_append.2 ⟨fun a ha => (hlooks a ha).lists, ?_⟩
        exact List.forall_mem_singleton.2 (looks_event d _).lists
    | connected hlooks hurl hmore =>
        refine List.forall_mem_append.2 ⟨fun a ha => (hlooks a ha).lists, fun a ha => ?_⟩
        rcases hmore.requests (d := d) a ha with hlook | ⟨method, body, hreq⟩
        · exact hlook.lists
        · intro k hk
          rw [hreq] at hk
          cases hk
  induction h with
  | done => exact fun a ha => absurd ha List.not_mem_nil
  | skip hnone hrest ih => exact ih
  | next hdeclared htalk hrest ih => exact List.forall_mem_append.2 ⟨hturn htalk, ih⟩
  | stop hdeclared htalk => exact hturn htalk

theorem kubeStep_eq_some {e : Step siteSig Site} {e' : Step Kube.sig World}
    (h : kubeStep e = some e') : e.req = .kube e'.req := by
  obtain ⟨pre, req, resp⟩ := e
  cases req with
  | kube r =>
      cases h
      rfl
  | getSecret ns name => cases h
  | http method url body auth => cases h
  | event e => cases h

theorem lookups_list {e : Step Kube.sig World}
    (he : e ∈ (exec (serveSite M env) (updateDruidDynamicConfigs d) s).steps.filterMap kubeStep) :
    ListsRouter d e.req := by
  obtain ⟨e₀, he₀, hstep⟩ := List.mem_filterMap.1 he
  exact ((converses_forEach d (List.Subset.refl nodeTypes)).exec (serveSite M env) s).lists
    e₀.answered (List.mem_map_of_mem he₀) e.req (kubeStep_eq_some hstep)

theorem update_outcome (d : DynamicSpec) (s : Site) : ∃ dynamicConfigs : Except Error Unit,
    (exec (serveSite M env) (updateDruidDynamicConfigs d) s).res =
      dynamicConfigs.mapError Exit.error := by
  cases hres : (exec (serveSite M env) (updateDruidDynamicConfigs d) s).res with
  | ok _ => exact ⟨.ok (), rfl⟩
  | error e =>
      obtain ⟨err, rfl, -⟩ :=
        ((converses_forEach d (List.Subset.refl nodeTypes)).exec (serveSite M env) s).announced hres
      exact ⟨.error err, rfl⟩

/-- Two outcomes that are one to the API server, but for lists of the services of a router at the
end. The secret and the events are requests of their own. -/
def SeenAs {α : Type} (out : Outcome siteSig Site Exit α) (kube : Outcome Kube.sig World Exit α) :
    Prop :=
  out.res = kube.res ∧ ∃ lookups, out.steps.filterMap kubeStep = kube.steps ++ lookups ∧
    ∀ e ∈ lookups, ∃ d, ListsRouter d e.req

theorem seenAs_bind {α β : Type} {p : Code α} {f : α → SiteM β} {g : α → Code β}
    (hrest : ∀ a, (exec (serve env.kube) p s.world).res = .ok a →
      SeenAs (exec (serveSite M env) (f a) (exec (serveSite M env) (p.embed kubeEmbedding) s).state)
        (exec (serve env.kube) (g a)
          (exec (serveSite M env) (p.embed kubeEmbedding) s).state.world)) :
    SeenAs (exec (serveSite M env) (p.embed kubeEmbedding >>= f) s)
      (exec (serve env.kube) (p >>= g) s.world) := by
  obtain ⟨hres, hworld, hsteps⟩ : (exec (serveSite M env) (p.embed kubeEmbedding) s).res = _ ∧ _ :=
    exec_embed_kube p s
  cases hp : (exec (serve env.kube) p s.world).res with
  | error e =>
      rw [exec_bind_error hp, exec_bind_error (hres.trans hp)]
      refine ⟨rfl, [], ?_, fun e he => by cases he⟩
      rw [List.append_nil]
      exact hsteps
  | ok a =>
      obtain ⟨hres', lookups, hsteps', hlookups⟩ := hrest a hp
      rw [hworld] at hres' hsteps'
      rw [exec_bind_ok hp, exec_bind_ok (hres.trans hp)]
      refine ⟨hres', lookups, ?_, hlookups⟩
      rw [List.filterMap_append, hsteps, hsteps', List.append_assoc]

theorem seenAs_update {t : Site} {dynamicConfigs : Except Error Unit}
    (hres : (exec (serveSite M env) (updateDruidDynamicConfigs d) t).res =
      dynamicConfigs.mapError Exit.error) (w : World) :
    SeenAs (exec (serveSite M env)
        (updateDruidDynamicConfigs d >>= fun _ => .ret Result.requeueAfter) t)
      (exec (serve env.kube) (orReturn dynamicConfigs >>= fun _ =>
        .ret Result.requeueAfter) w) := by
  cases dynamicConfigs with
  | error err =>
      rw [exec_bind_error hres]
      exact ⟨rfl, _, rfl, fun e he => ⟨d, lookups_list he⟩⟩
  | ok _ =>
      rw [exec_bind_ok hres, exec_ret, List.append_nil]
      exact ⟨rfl, _, rfl, fun e he => ⟨d, lookups_list he⟩⟩

/-- **The model without Druid.** To Kubernetes, a reconcile with all its requests is the reconcile
that only has the outcome of the update of the settings: they end alike, and the API server sees the
same requests with the same answers in the same states, but for lookups of the router at the end. -/
theorem reconcile_refined (M : Merging) (hash : Hash) (o : MapOrders) (decoding : Decoding)
    (inHand : Druid → Druid) (request : String × String) (env : SiteEnv) (s : Site) :
    ∃ dynamicConfigs : Except Error Unit,
      SeenAs (exec (serveSite M env) (reconcileSite hash o decoding inHand request) s)
        (exec (serve env.kube) (reconcile hash o dynamicConfigs request decoding) s.world) := by
  unfold reconcileSite reconcile
  cases hfound : (serve env.kube (.get .druid request.1 request.2) s.world).1 with
  | error err =>
      refine ⟨.ok (), seenAs_bind fun found hres => ?_⟩
      obtain rfl : .error err = found := Except.ok.inj ((congrArg Except.ok hfound.symm).trans hres)
      dsimp only
      split_ifs
      · exact ⟨rfl, [], rfl, fun e he => by cases he⟩
      · exact ⟨rfl, [], rfl, fun e he => by cases he⟩
  | ok m =>
      -- the outcome of the update from where the deployment ends
      obtain ⟨dynamicConfigs, hupdate⟩ := update_outcome (dynamicSpecOf (inHand m))
        (exec (serveSite M env) ((deployDruidCluster hash o m decoding).embed kubeEmbedding)
          (exec (serveSite M env) ((getObj .druid request.1 request.2).embed kubeEmbedding)
            s).state).state
      refine ⟨dynamicConfigs, seenAs_bind fun found hres => ?_⟩
      obtain rfl : .ok m = found := Except.ok.inj ((congrArg Except.ok hfound.symm).trans hres)
      exact seenAs_bind fun _ _ => seenAs_update hupdate _

end Refinement

end DruidOperator.Controller
