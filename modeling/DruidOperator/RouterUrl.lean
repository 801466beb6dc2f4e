import DruidOperator.GarbageCollection
import DruidOperator.DruidApi
import DruidOperator.JsonRoundTrip
import DruidOperator.Lib.Lists

/-!
# The URL of the router (`GetRouterSvcUrl`)

The controllers reach Druid through a service of the router: they list the services with the labels
of the cluster and of the router, take the first, and put a fixed port behind its name. The services
themselves are made elsewhere, with the port of their group where a template has none.

* `RouterUrlServed` — the URL names a service that was made for a router, and a port of it.
* `TellsServices` — what is assumed of the hash: it tells services with other ports apart.
* `Faced` — what holds of the stored services between the calls, whatever fails in them.
* `Deployed.offered_eq` — what the services offer after a complete call.
* `RouterReachable` — the services of routers have names and the fixed port.
* `router_url_iff` — after a complete call the URL is right exactly under the last condition.
-/

namespace DruidOperator.Controller

open Interaction Prog Kube Runs DruidApi

/-! ## Discovery -/

def routerLabels (druidClusterName : String) : StrMap :=
  (Finmap.singleton "druid_cr" druidClusterName).insert "component" "router"

/-- `GetRouterSvcUrl`. -/
def getRouterSvcUrl (ns druidClusterName : String) : Code String :=
  DruidApi.getRouterSvcUrl (do
    let svcList ← listObjs .service ns (routerLabels druidClusterName)
    return svcList.map (List.map Object.name)) ns

/-- An order of lists. -/
structure ListOrder where
  order : (k : Kind) → List (Obj k) → List (Obj k)
  perm : ∀ k items, (order k items).Perm items

/-- A server that lists in another order. -/
def reorder (listing : ListOrder) (h : Handler sig World) : Handler sig World
  | .list k ns selector, w =>
      ((h (.list k ns selector) w).1.map (listing.order k), (h (.list k ns selector) w).2)
  | r, w => h r w

/-- The service that the URL names is stored, it was made for a router, and it has the port. -/
def PointsAtRouter (hash : Hash) (o : MapOrders) (m : Druid) (files : StrMap) (c : Cluster)
    (url : String) : Prop :=
  ∃ svc : Obj .service, (c.store .service).find? (m.ns, svc.name) = some svc ∧
    (∃ done g rest, getNodeSpecsByOrder o.groups m = done ++ g :: rest ∧ g.spec.nodeType = .router ∧
      ∃ made ∈ plannedServices hash (seenAfter hash (commonSHA hash m files) m done) g,
        made.name = svc.name ∧ hashOf made = hashOf svc) ∧
    ∃ p ∈ svc.body.ports.getD [],
      url = "http://" ++ svc.name ++ "." ++ m.ns ++ ":" ++ toString p.port

/-- **What is to hold after a complete reconcile**, in whatever order services are listed. -/
def RouterUrlServed (hash : Hash) (o : MapOrders) (m : Druid) (env : Env) (w : World) : Prop :=
  ∀ data, commonConfigData m = .ok data → ∀ (listing : ListOrder) (later : Env), later.Calm →
    ∃ url, (exec (reorder listing (serve later)) (getRouterSvcUrl m.ns m.name)
        (afterCall hash o m env w)).res = .ok url ∧
      PointsAtRouter hash o m (filesRead w.cluster m.spec.extraCommonConfig data)
        (afterCall hash o m env w).cluster url

/-! ## What the services offer -/

/-- What a service is found by, and the ports it has. -/
structure Offer where
  component : Option String
  ports : List Int
deriving DecidableEq

def offer (s : Shown) : Offer where
  component := (s.labels.getD ∅).lookup "component"
  ports := s.ports.map ServicePort.port

/-- The services of a group; a template without ports gets that of the group. -/
def groupOffers (m : Druid) (g : ServiceGroup) : List (String × Offer) :=
  (serviceTemplates m g).map fun svc => (getServiceName svc.name (groupName m g),
    { component := some g.spec.nodeType.text
      ports := (svc.body.ports.map (List.map ServicePort.port)).getD [g.spec.druidPort] })

/-- The services of a resource by name; of those with one name the last is there. -/
def offered (o : MapOrders) (m : Druid) (name : String) : Option Offer :=
  ((getNodeSpecsByOrder o.groups m).flatMap (groupOffers m)).reverse.lookup name

/-- There is a service of a router, and every such service has a name and the fixed port. A
template such as `%.0s` makes an empty name, with which no service can be found. -/
def RouterReachable (o : MapOrders) (m : Druid) : Prop :=
  (∃ name x, offered o m name = some x ∧ x.component = some "router") ∧
    ∀ name x, offered o m name = some x → x.component = some "router" →
      name ≠ "" ∧ 8088 ∈ x.ports

/-- Services with one hash have the same component and the same ports. -/
def TellsServices (hash : Hash) : Prop :=
  ∀ a b : Obj .service, hash .service a = hash .service b → offer (shown a) = offer (shown b)

/-! ## One discovery -/

theorem exec_getRouterSvcUrl (listing : ListOrder) {later : Env} (hlater : later.Calm)
    (ns druidClusterName : String) (w : World) :
    (exec (reorder listing (serve later)) (getRouterSvcUrl ns druidClusterName) w).res =
      (routerUrlOf ns ((listing.order .service
        (w.cluster.listed .service ns (routerLabels druidClusterName))).map Object.name)).mapError
        Exit.error := by
  have hlist : reorder listing (serve later) (.list .service ns (routerLabels druidClusterName)) w =
      (.ok (listing.order .service
        (w.cluster.listed .service ns (routerLabels druidClusterName))),
          ⟨w.cluster, w.calls + 1⟩) := by
    rw [reorder, serve_calm hlater]
    rfl
  rw [getRouterSvcUrl, DruidApi.getRouterSvcUrl, listObjs, call_bind, call_bind,
    call_bind, exec_call,
    hlist]
  dsimp only [Except.map]
  rw [ret_bind, pure_eq, ret_bind, orReturn_ok, ret_bind]
  cases routerUrlOf ns _ <;> rfl

/-- A URL that is found is that of the first service listed. -/
theorem first_of_url {ns : String} {services : List (Obj .service)} {url : String}
    (h : (routerUrlOf ns (services.map Object.name)).mapError Exit.error = .ok url) :
    ∃ svc rest, services = svc :: rest ∧ svc.name ≠ "" ∧
      url = "http://" ++ svc.name ++ "." ++ ns ++ ":" ++ druidRouterPort := by
  cases services with
  | nil => cases h
  | cons svc rest =>
      refine ⟨svc, rest, rfl, ?_⟩
      unfold routerUrlOf at h
      split_ifs at h with hname
      · cases h
      · cases h
        exact ⟨hname, rfl⟩

/-- The list order in which the services of one name come first. -/
def nameFirst (name : String) : ListOrder where
  order _ items := items.filter (fun obj => decide (obj.name = name)) ++
    items.filter fun obj => !decide (obj.name = name)
  perm _ items := List.filter_append_perm _ items

theorem name_of_nameFirst {k : Kind} {name : String} {items : List (Obj k)} {first : Obj k}
    {rest : List (Obj k)} (hname : ∃ obj ∈ items, obj.name = name)
    (hfirst : (nameFirst name).order k items = first :: rest) : first.name = name := by
  obtain ⟨obj, hobj, hname⟩ := hname
  have hmem : obj ∈ items.filter fun obj => decide (obj.name = name) :=
    List.mem_filter.2 ⟨hobj, decide_eq_true hname⟩
  obtain ⟨head, tail, hsplit⟩ := List.exists_cons_of_ne_nil (List.ne_nil_of_mem hmem)
  have hhead := hsplit ▸ (List.mem_cons_self : head ∈ head :: tail)
  simp only [nameFirst, hsplit, List.cons_append, List.cons.injEq] at hfirst
  rw [← hfirst.1]
  exact of_decide_eq_true (List.mem_filter.1 hhead).2

/-! ## Names -/

theorem eq_router_of_text {t : NodeType} (h : t.text = "router") : t = .router := by
  cases t with
  | router => rfl
  | _ => exact absurd h (by decide)

theorem colon_notMem_int (n : Int) : ':' ∉ (toString n).toList := by
  have hdigits : ∀ n : ℕ, ':' ∉ (Nat.repr n).toList := by
    intro n hmem
    rw [Nat.toList_repr] at hmem
    exact absurd (Nat.isDigit_of_mem_toDigits (by decide) (by decide) hmem) (by decide)
  cases n with
  | ofNat n => exact hdigits n
  | negSucc n =>
      show ':' ∉ ("-" ++ Nat.repr (n + 1)).toList
      simpa using hdigits (n + 1)

theorem repr_nat_injective : Function.Injective Nat.repr := by
  intro a b h
  have hdigits : Nat.toDigits 10 a = Nat.toDigits 10 b := by
    rw [← Nat.toList_repr, ← Nat.toList_repr, h]
  have hvalue := congrArg (Nat.ofDigitChars 10 · 0) hdigits
  simpa only [Nat.ofDigitChars_ten_toDigits] using hvalue

theorem toString_int_injective : Function.Injective (toString : Int → String) := by
  have hsign : ∀ a b : ℕ, Nat.repr a ≠ "-" ++ Nat.repr b := by
    intro a b h
    have hmem : '-' ∈ Nat.toDigits 10 a := by
      rw [← Nat.toList_repr, h]
      simp
    exact absurd (Nat.isDigit_of_mem_toDigits (by decide) (by decide) hmem) (by decide)
  intro a b h
  cases a with
  | ofNat a =>
      cases b with
      | ofNat b => exact congrArg Int.ofNat (repr_nat_injective h)
      | negSucc b => exact absurd h (hsign a (b + 1))
  | negSucc a =>
      cases b with
      | ofNat b => exact absurd h.symm (hsign b (a + 1))
      | negSucc b =>
          have hdigits : "-" ++ Nat.repr (a + 1) = "-" ++ Nat.repr (b + 1) := h
          have hvalue := repr_nat_injective ((String.append_right_inj "-").1 hdigits)
          exact congrArg Int.negSucc (by omega)

/-- A URL with the fixed port says which service it names and which port. -/
theorem url_inj {name name' ns : String} {port : Int}
    (h : "http://" ++ name ++ "." ++ ns ++ ":" ++ druidRouterPort =
      "http://" ++ name' ++ "." ++ ns ++ ":" ++ toString port) : name = name' ∧ port = 8088 := by
  have hchars := congrArg String.toList h
  have hbefore : ("http://" ++ name ++ "." ++ ns).toList =
      ("http://" ++ name' ++ "." ++ ns).toList := by
    refine append_separator_inj (c := ':') (d := druidRouterPort.toList) (by decide)
      (colon_notMem_int port) ?_
    simpa using hchars
  have hname : "http://" ++ name ++ "." ++ ns = "http://" ++ name' ++ "." ++ ns :=
    String.toList_inj.1 hbefore
  constructor
  · refine String.toList_inj.1 ?_
    simpa using hbefore
  · rw [hname] at h
    exact toString_int_injective ((String.append_right_inj _).1 h).symm

/-! ## The services of a call -/

/-- The names and the ports of the service templates. -/
def templatePorts (services : Option (List (Object Service))) :
    Option (List (String × Option (List ServicePort))) :=
  services.map (List.map fun svc => (svc.name, svc.body.ports))

/-- What the groups write into the templates changes neither names nor ports. -/
theorem templatePorts_afterGroup (hash : Hash) (commonConfigSHA : String) (m : Druid)
    (g : ServiceGroup) :
    templatePorts (afterGroup hash commonConfigSHA m g).spec.services =
      templatePorts m.spec.services := by
  show templatePorts (afterServices hash m g).spec.services = _
  unfold afterServices druidAfterServices
  split_ifs with hown
  · rfl
  · have hnone : g.spec.services = none := by simpa using hown
    show templatePorts (m.spec.services.map fun _ => _) = _
    cases hservices : m.spec.services with
    | none => rfl
    | some templates =>
        simp [templatePorts, serviceTemplates, firstNonNilValue, hnone, hservices,
          serviceTemplateAfter, Object.name]

theorem groupOffers_congr {m m' : Druid} (hname : m'.name = m.name)
    (hports : templatePorts m'.spec.services = templatePorts m.spec.services) (g : ServiceGroup) :
    groupOffers m' g = groupOffers m g := by
  have hoffers : ∀ m : Druid, groupOffers m g = ((firstNonNilValue (templatePorts g.spec.services)
      (templatePorts m.spec.services)).getD []).map fun svc =>
        (getServiceName svc.1 (groupName m g),
          { component := some g.spec.nodeType.text
            ports := (svc.2.map (List.map ServicePort.port)).getD [g.spec.druidPort] }) := by
    intro m
    unfold groupOffers serviceTemplates firstNonNilValue templatePorts
    cases g.spec.services <;> cases m.spec.services <;> simp
  rw [hoffers, hoffers m, hports, groupName_congr hname]

/-- The services of a group are made as they are offered. -/
theorem plannedServices_offers (hash : Hash) (m : Druid) (g : ServiceGroup) :
    (plannedServices hash m g).map (fun obj => (obj.name, offer (shown obj))) =
      groupOffers m g := by
  rw [plannedServices, List.map_map, groupOffers]
  refine List.map_congr_left fun svc _ => Prod.ext rfl ?_
  have hcomponent := lookup_stampLabels svc.metadata.labels (lookup_groupLabels m g).2.2
  show offer (shown (plannedService hash m g svc)) = _
  simp only [offer, Offer.mk.injEq]
  refine ⟨hcomponent, ?_⟩
  show ((svc.body.ports.getD _).map ServicePort.port) = _
  cases svc.body.ports <;> rfl

/-- **The services of a call**, as far as they are looked at. -/
theorem callObjects_offers {hash : Hash} {o : MapOrders} {m : Druid} {files : StrMap} :
    (callObjects hash o m files .service).map (fun obj => (obj.name, offer (shown obj))) =
      (getNodeSpecsByOrder o.groups m).flatMap (groupOffers m) := by
  have hloop : ∀ (groups : List ServiceGroup) (m' : Druid), m'.name = m.name →
      templatePorts m'.spec.services = templatePorts m.spec.services →
      (loopObjects hash (commonSHA hash m files) (makeLabelsForDruid m) m' groups .service).map
        (fun obj => (obj.name, offer (shown obj))) = groups.flatMap (groupOffers m) := by
    intro groups
    induction groups with
    | nil => exact fun _ _ _ => rfl
    | cons g groups ih =>
        intro m' hname hports
        have hnext := ih (afterGroup hash (commonSHA hash m files) m' g)
          ((sameIdentity_seenAfter hash (commonSHA hash m files) m' [g]).name_eq.trans hname)
          ((templatePorts_afterGroup hash _ m' g).trans hports)
        rw [loopObjects, List.map_append, hnext, List.flatMap_cons,
          ← groupOffers_congr hname hports g, ← plannedServices_offers hash m' g]
        rfl
  rw [callObjects, only, Function.update_of_ne (by decide), List.nil_append]
  exact hloop _ m rfl rfl

/-! ## What is stored of services -/

/-- A service of the cluster that was hashed as it is. -/
structure Faced (hash : Hash) (druidClusterName : String) (s : Shown) : Prop where
  app : (s.labels.getD ∅).lookup "app" = some "druid"
  cr : (s.labels.getD ∅).lookup "druid_cr" = some druidClusterName
  hashed : ∃ x : Obj .service, s.hash = hash .service x ∧ offer (shown x) = offer s

theorem faced_sent {hash : Hash} {o : MapOrders} {m : Druid} {obj : Obj .service}
    (h : SentObject hash o m .service obj) (t : Option Int) :
    Faced hash m.name { shown obj with deletionTimestamp := t } := by
  cases h with
  | ofGroup k obj hobj =>
      cases hobj with
      | intro commonConfigSHA done rest g hgroups hdone k obj hobj =>
          have hname := (sameIdentity_seenAfter hash commonConfigSHA m done).name_eq
          cases hobj with
          | workload k obj hobj => cases hobj
          | service svc hsvc =>
              obtain ⟨happ, hcr, -⟩ := lookup_groupLabels (seenAfter hash commonConfigSHA m done) g
              rw [hname] at hcr
              exact ⟨lookup_stampLabels svc.metadata.labels happ,
                lookup_stampLabels svc.metadata.labels hcr, _, hashOf_prepare .., rfl⟩

/-- Every service of the namespace is one of the cluster. -/
def AllFaced (hash : Hash) (key : String × String) (c : Cluster) : Prop :=
  ∀ name svc, (c.store .service).find? (key.1, name) = some svc → Faced hash key.2 (shown svc)

/-- A request that sends what is planned keeps the services so. -/
theorem AllFaced.perform {hash : Hash} {o : MapOrders} {m : Druid} {c : Cluster} {clock : Int}
    (hc : AllFaced hash m.key c) {r : Request} (hr : Sends (SentObject hash o m) r) :
    AllFaced hash m.key (perform clock r c).2 := by
  have hgenerated : Generated .service := ⟨by decide, by decide⟩
  by_cases hwrites : ∀ v key, r.write ≠ some (v, .service, key)
  · intro name svc hsvc
    rw [perform_store hwrites] at hsvc
    exact hc name svc hsvc
  · cases r with
    | get k ns name => simp [Request.write] at hwrites
    | list k ns selector => simp [Request.write] at hwrites
    | now => simp [Request.write] at hwrites
    | patchClaim base obj => simp [Request.write] at hwrites
    | patchFinalizers cr finalizers => simp [Request.write] at hwrites
    | patchStatus cr status => simp [Request.write] at hwrites
    | create k obj =>
        obtain rfl : k = .service := by simpa [Request.write] using hwrites
        simp only [Kube.perform]
        split
        · exact hc
        · next hnone =>
            intro name svc hsvc
            dsimp only at hsvc
            rw [Cluster.modify_store_self, Table.find?_insert (by exact hnone)] at hsvc
            split_ifs at hsvc
            · cases hsvc
              exact faced_sent (hr hgenerated) none
            · exact hc name svc hsvc
    | update k obj =>
        obtain rfl : k = .service := by simpa [Request.write] using hwrites
        obtain ⟨planned, prev, hplanned, rfl⟩ := hr hgenerated
        simp only [Kube.perform]
        split
        · exact hc
        · next stored hstored =>
            split_ifs
            · exact hc
            · intro name svc hsvc
              dsimp only at hsvc
              rw [Cluster.modify_store_self] at hsvc
              rcases Cluster.of_find?_put hsvc with hsvc | rfl
              · exact hc name svc hsvc
              · rw [shown_updated]
                exact faced_sent hplanned _
    | delete k obj orphan =>
        obtain rfl : k = .service := by simpa [Request.write] using hwrites
        simp only [Kube.perform]
        split
        · exact hc
        · intro name svc hsvc
          dsimp only at hsvc
          rw [Cluster.modify_store_self, Table.find?_erase] at hsvc
          split_ifs at hsvc
          exact hc name svc hsvc

/-- **A call keeps the services so**, whatever fails in it. -/
theorem allFaced_afterCall {hash : Hash} {o : MapOrders} {m : Druid} {env : Env} (henv : env.Alone)
    {w : World} (hw : AllFaced hash m.key w.cluster) :
    AllFaced hash m.key (afterCall hash o m env w).cluster := by
  refine (Triple.ofUses (h := serve env) (I := fun w => AllFaced hash m.key w.cluster)
    (G := fun _ => True) ((sends_deployDruidCluster hash o m).mono fun r hr w hw => ⟨?_, trivial⟩) w
    hw).1
  rcases serve_state env r w with h | h <;> rw [h, seen_alone henv]
  · exact hw.perform hr
  · exact hw

/-! ## A complete call -/

section Call

variable {hash : Hash} {o : MapOrders} {m : Druid} {env : Env} {w : World}
    {files : StrMap} {l : Loop}

theorem matches_routerLabels_iff {druidClusterName : String} {labels : Option StrMap} :
    (routerLabels druidClusterName).Matches labels ↔
      (labels.getD ∅).lookup "component" = some "router" ∧
        (labels.getD ∅).lookup "druid_cr" = some druidClusterName :=
  StrMap.matches_pair_iff (by decide)

namespace Deployed

theorem sentObject_service (hd : Deployed hash o m env w files l) {obj : Obj .service}
    (hobj : obj ∈ callObjects hash o m files .service) : SentObject hash o m .service obj := by
  rcases mem_callObjects hobj with ⟨hk, -⟩ | ⟨done, g, rest, hgroups, hgroup⟩
  · cases hk
  · obtain ⟨svc, hsvc, rfl⟩ := List.mem_map.1 hgroup
    refine .ofGroup _ _ (.intro _ done rest g hgroups (fun g' hg' => ?_) _ _ (.service svc hsvc))
    exact hd.makes g' (hgroups ▸ List.mem_append_left _ hg')

theorem loop_faced (hd : Deployed hash o m env w files l) (hw : AllFaced hash m.key w.cluster)
    {name : String} {s : Shown}
    (hs : viewOf m.ns (afterLoop hash o m env w).cluster .service name = some s) :
    Faced hash m.name s := by
  refine (hd.path .service (by decide)).invariant
    (I := fun v => ∀ name s, v name = some s → Faced hash m.name s)
    (fun obj hobj v v' hplaced hv name s hs => ?_) (fun name s hs => ?_) name s hs
  · cases hplaced with
    | kept s' hs' hhash => exact hv name s hs
    | sent =>
        by_cases hname : name = obj.name
        · rw [hname, Function.update_self] at hs
          cases hs
          exact faced_sent (hd.sentObject_service hobj) none
        · rw [Function.update_of_ne hname] at hs
          exact hv name s hs
  · obtain ⟨svc, hsvc, rfl⟩ := Option.map_eq_some_iff.1 hs
    exact hw name svc hsvc

theorem seen_services (henv : env.Calm) (hd : Deployed hash o m env w files l)
    (hw : AllFaced hash m.key w.cluster) (name : String) :
    viewOf m.ns (afterCall hash o m env w).cluster .service name =
      if name ∈ generatedNames hash o m .service then
        viewOf m.ns (afterLoop hash o m env w).cluster .service name
      else none := by
  refine hd.seen_of_labels henv (by decide) fun s hs => ?_
  have hfaced := hd.loop_faced hw hs
  exact matches_makeLabelsForDruid_iff.2 ⟨hfaced.app, hfaced.cr⟩

/-- A service with the hash of one that was sent offers what that one does. -/
theorem offer_of_hash (htells : TellsServices hash) (hd : Deployed hash o m env w files l)
    {s : Shown} (hs : Faced hash m.name s) {obj : Obj .service}
    (hobj : obj ∈ callObjects hash o m files .service) (hhash : s.hash = hashOf obj) :
    offer s = offer (shown obj) := by
  obtain ⟨x, hx, hsame⟩ := hs.hashed
  obtain ⟨y, hy, hsame'⟩ := (faced_sent (hd.sentObject_service hobj) none).hashed
  have hxy := htells x y (hx.symm.trans (hhash.trans hy))
  exact hsame.symm.trans (hxy.trans hsame')

/-- **What the services offer after a complete call** is what the resource says. -/
theorem offered_eq (htells : TellsServices hash) (henv : env.Calm)
    (hd : Deployed hash o m env w files l) (hw : AllFaced hash m.key w.cluster) (name : String) :
    (viewOf m.ns (afterCall hash o m env w).cluster .service name).map offer =
      offered o m name := by
  rw [hd.seen_services henv hw, offered, ← @callObjects_offers hash o m files]
  by_cases hname : name ∈ generatedNames hash o m .service
  · rw [if_pos hname]
    rw [← hd.names_eq (by decide)] at hname
    obtain ⟨before, obj, after, v₁, v₂, hobjs, rfl, hlast, -, hplaced, hview⟩ :=
      path_last (hd.path .service (by decide)) hname
    obtain ⟨s, hs, hhash⟩ := hplaced.self
    rw [hs] at hview
    have hobj : obj ∈ callObjects hash o m files .service := by simp [hobjs]
    rw [hview, hobjs, Lists.lookup_reverse_last Object.name (fun obj => offer (shown obj)) hlast,
      Option.map_some, hd.offer_of_hash htells (hd.loop_faced hw hview) hobj hhash]
  · rw [if_neg hname, Option.map_none, eq_comm, List.lookup_eq_none_iff]
    rintro p hp
    obtain ⟨obj, hobj, rfl⟩ := List.mem_map.1 (List.mem_reverse.1 hp)
    rw [bne_iff_ne, ← hd.names_eq (by decide)] at *
    exact fun heq => hname (List.mem_map.2 ⟨obj, hobj, heq.symm⟩)

theorem found_iff (htells : TellsServices hash) (henv : env.Calm)
    (hd : Deployed hash o m env w files l) (hw : AllFaced hash m.key w.cluster) (name : String) :
    (∃ svc ∈ (afterCall hash o m env w).cluster.listed .service m.ns (routerLabels m.name),
        svc.name = name) ↔
      ∃ x, offered o m name = some x ∧ x.component = some "router" := by
  rw [exists_listed_iff, ← hd.offered_eq htells henv hw]
  constructor
  · rintro ⟨s, hs, hlabels⟩
    rw [hs]
    exact ⟨offer s, rfl, (matches_routerLabels_iff.1 hlabels).1⟩
  · rintro ⟨x, hx, hrouter⟩
    obtain ⟨s, hs, rfl⟩ := Option.map_eq_some_iff.1 hx
    obtain ⟨svc, hsvc, rfl⟩ := Option.map_eq_some_iff.1 hs
    have hfaced := allFaced_afterCall (o := o) henv.alone hw name svc hsvc
    exact ⟨_, hs, matches_routerLabels_iff.2 ⟨hrouter, hfaced.cr⟩⟩

/-- A service that is seen was made for a group, and shows the type of the group. -/
theorem made_for (htells : TellsServices hash) (henv : env.Calm)
    (hd : Deployed hash o m env w files l) (hw : AllFaced hash m.key w.cluster) {name : String}
    {s : Shown} (hs : viewOf m.ns (afterCall hash o m env w).cluster .service name = some s) :
    ∃ done g rest, getNodeSpecsByOrder o.groups m = done ++ g :: rest ∧
      (offer s).component = some g.spec.nodeType.text ∧
      ∃ made ∈ plannedServices hash (seenAfter hash (commonSHA hash m files) m done) g,
        made.name = name ∧ hashOf made = s.hash := by
  rw [hd.seen_services henv hw] at hs
  split_ifs at hs with hname
  obtain ⟨made, hmade, rfl, s', hs', hhash⟩ := hd.loop_has (by decide) hname
  rw [hs] at hs'
  cases hs'
  have hoffer := hd.offer_of_hash htells (hd.loop_faced hw hs) hmade hhash
  rcases mem_callObjects hmade with ⟨hk, -⟩ | ⟨done, g, rest, hgroups, hgroup⟩
  · cases hk
  · have hmem : (made.name, offer (shown made)) ∈
        groupOffers (seenAfter hash (commonSHA hash m files) m done) g := by
      rw [← plannedServices_offers hash]
      exact List.mem_map_of_mem hgroup
    obtain ⟨svc, -, heq⟩ := List.mem_map.1 hmem
    refine ⟨done, g, rest, hgroups, ?_, made, hgroup, rfl, hhash.symm⟩
    rw [hoffer, ← (Prod.mk.inj heq).2]

theorem routerReachable_of_served (htells : TellsServices hash) (henv : env.Calm)
    (hd : Deployed hash o m env w files l) (hw : AllFaced hash m.key w.cluster)
    (hserved : RouterUrlServed hash o m env w) : RouterReachable o m := by
  obtain ⟨data, hdata, rfl⟩ := hd.data
  have hcalm : Env.Calm {} := ⟨fun _ _ => rfl, fun _ => rfl⟩
  refine ⟨?_, fun name x hx hrouter => ?_⟩
  · obtain ⟨url, hurl, -⟩ :=
      hserved data hdata ⟨fun _ items => items, fun _ _ => .refl _⟩ {} hcalm
    rw [exec_getRouterSvcUrl _ hcalm] at hurl
    obtain ⟨svc, rest, hfirst, -, -⟩ := first_of_url hurl
    refine ⟨svc.name, (hd.found_iff htells henv hw svc.name).1 ⟨svc, ?_, rfl⟩⟩
    rw [show Cluster.listed .. = svc :: rest from hfirst]
    exact List.mem_cons_self
  · -- the services of this name are listed first
    obtain ⟨url, hurl, svc', hstored, -, p, hp, heq⟩ :=
      hserved data hdata (nameFirst name) {} hcalm
    rw [exec_getRouterSvcUrl _ hcalm] at hurl
    obtain ⟨svc, rest, hfirst, hsome, rfl⟩ := first_of_url hurl
    have hsvc : svc.name = name :=
      name_of_nameFirst ((hd.found_iff htells henv hw name).2 ⟨x, hx, hrouter⟩) hfirst
    obtain ⟨hname, hport⟩ := url_inj heq
    have hoffer := hd.offered_eq htells henv hw name
    rw [viewOf, ← hsvc, hname, hstored, Option.map_some, Option.map_some, ← hname,
      hsvc, hx] at hoffer
    rw [← Option.some.inj hoffer, ← hport]
    exact ⟨hsvc ▸ hsome, List.mem_map_of_mem hp⟩

theorem served_of_routerReachable (htells : TellsServices hash) (henv : env.Calm)
    (hd : Deployed hash o m env w files l) (hw : AllFaced hash m.key w.cluster)
    (hreachable : RouterReachable o m) : RouterUrlServed hash o m env w := by
  obtain ⟨data, hdata, rfl⟩ := hd.data
  obtain ⟨⟨name, hoffered⟩, hports⟩ := hreachable
  intro data' hdata' listing later hlater
  cases hdata.symm.trans hdata'
  rw [exec_getRouterSvcUrl _ hlater]
  have hperm := listing.perm .service
    ((afterCall hash o m env w).cluster.listed .service m.ns (routerLabels m.name))
  obtain ⟨found, hfound, -⟩ := (hd.found_iff htells henv hw name).2 hoffered
  obtain ⟨svc, rest, hfirst⟩ :=
    List.exists_cons_of_ne_nil (List.ne_nil_of_mem (hperm.mem_iff.2 hfound))
  have hlisted := hperm.mem_iff.1 (hfirst ▸ (List.mem_cons_self : svc ∈ svc :: rest))
  have hstored := (mem_listed_iff.1 hlisted).1
  have hseen : viewOf m.ns (afterCall hash o m env w).cluster .service svc.name =
      some (shown svc) := by rw [viewOf, hstored, Option.map_some]
  obtain ⟨done, g, rest', hgroups, htype, made, hmade, hsame, hhash⟩ :=
    hd.made_for htells henv hw hseen
  obtain ⟨hrouter, -⟩ := matches_routerLabels_iff.1 (mem_listed_iff.1 hlisted).2
  have hoffer := hd.offered_eq htells henv hw svc.name
  rw [hseen, Option.map_some] at hoffer
  obtain ⟨hname, hport⟩ := hports svc.name _ hoffer.symm hrouter
  obtain ⟨p, hp, hport⟩ := List.mem_map.1 hport
  refine ⟨"http://" ++ svc.name ++ "." ++ m.ns ++ ":" ++ druidRouterPort, ?_, svc, hstored,
    ⟨done, g, rest', hgroups, ?_, made, hmade, hsame, hhash⟩, p, hp, ?_⟩
  · rw [hfirst, List.map_cons, routerUrlOf, List.headD_cons, if_neg hname]
    rfl
  · exact eq_router_of_text (Option.some.inj (htype.symm.trans hrouter))
  · rw [hport]
    rfl

/-- **The URL after a complete call** is right exactly if the services of routers have the fixed
port. -/
theorem routerUrlServed_iff (htells : TellsServices hash) (henv : env.Calm)
    (hd : Deployed hash o m env w files l) (hw : AllFaced hash m.key w.cluster) :
    RouterUrlServed hash o m env w ↔ RouterReachable o m :=
  ⟨hd.routerReachable_of_served htells henv hw, hd.served_of_routerReachable htells henv hw⟩

end Deployed

end Call

/-! ## Any number of calls before -/

/-- What holds between the calls, whatever fails in them. -/
def Standing (hash : Hash) (key : String × String) (w : World) : Prop :=
  (∀ k ∈ groupKinds, Alive (viewOf key.1 w.cluster k)) ∧ AllFaced hash key w.cluster

section Runs

variable {hash : Hash} {key : String × String} {w : World}

theorem standing_of_empty (hw : EmptyNamespace key w.cluster) : Standing hash key w := by
  refine ⟨fun k hk name s hs => ?_, fun name svc hsvc => ?_⟩
  · rw [viewOf, hw.empty k hk, Option.map_none] at hs
    cases hs
  · rw [hw.empty .service (by decide)] at hsvc
    cases hsvc

theorem Standing.edited (hw : Standing hash key w) (a : SpecEdit) :
    Standing hash key (edited key a w) := by
  have hstore : ∀ k ∈ groupKinds, (Controller.edited key a w).cluster.store k =
      w.cluster.store k := by
    intro k hk
    refine Cluster.patch_store_of_ne ?_
    rintro rfl
    simp [groupKinds] at hk
  refine ⟨fun k hk => ?_, fun name svc hsvc => ?_⟩
  · rw [viewOf_congr (hstore k hk)]
    exact hw.1 k hk
  · rw [hstore .service (by decide)] at hsvc
    exact hw.2 name svc hsvc

theorem standing_step (hw : Standing hash key w) {a : SpecEdit} (henv : a.env.Alone) :
    Standing hash key (editStep hash key w a) := by
  have hedited := hw.edited a
  unfold editStep
  split
  · next m hm =>
      obtain rfl : m.key = key := (Table.find?_eq_some.1 hm).2
      exact ⟨fun k hk => alive_exec henv _ (hedited.1 k hk), allFaced_afterCall henv hedited.2⟩
  · exact hedited

/-- **The URL of the router.** From an empty namespace on, after any edits and calls, in which
requests may have failed, a complete call leaves a cluster in which the URL names a service of a
router and a port of it exactly if there is such a service and all of them have a name and the fixed
port. -/
theorem router_url_iff (htells : TellsServices hash) (hw : EmptyNamespace key w.cluster)
    {edits : List SpecEdit} (hedits : ∀ a ∈ edits, a.env.Alone) (a : SpecEdit) (henv : a.env.Calm)
    {m : Druid} (hm : readCR key (edited key a (run (editStep hash key) w edits)).cluster = some m)
    (hcomplete : completes hash a.orders m a.env
      (edited key a (run (editStep hash key) w edits)) = true) :
    RouterUrlServed hash a.orders m a.env (edited key a (run (editStep hash key) w edits)) ↔
      RouterReachable a.orders m := by
  obtain rfl : m.key = key := (Table.find?_eq_some.1 hm).2
  have hstanding : Standing hash m.key (run (editStep hash m.key) w edits) := by
    refine run_invariant (C := fun _ a => a.env.Alone) (fun w a _ hw ha => standing_step hw ha)
      (standing_of_empty hw) ?_
    refine meets_iff.2 fun before b after heq => hedits b ?_
    simp [heq]
  obtain ⟨halive, hfaced⟩ := hstanding.edited a
  obtain ⟨files, l, hd⟩ := completes_placed henv halive hcomplete
  exact hd.routerUrlServed_iff htells henv hfaced

end Runs

/-! ### Two routers -/

def offerJson (x : Offer) : Json :=
  .arr [x.component.elim .null .str, .arr (x.ports.map fun port => .str (toString port))]

theorem offerJson_injective : Function.Injective offerJson := by
  intro a b h
  simp only [offerJson, Json.arr.injEq, List.cons.injEq, and_true] at h
  obtain ⟨hcomponent, hports⟩ := h
  cases a with
  | mk component ports =>
      cases b with
      | mk component' ports' =>
          have hinj : Function.Injective fun port : Int => Json.str (toString port) :=
            fun _ _ heq => toString_int_injective (Json.str.inj heq)
          simp only [Offer.mk.injEq]
          refine ⟨?_, hinj.list_map hports⟩
          cases component <;> cases component' <;> simp_all

theorem canonical_offerJson (x : Offer) : Json.Canonical (offerJson x) := by
  have hports : ∀ ports : List Int,
      Json.CanonicalList (ports.map fun port => .str (toString port)) := by
    intro ports
    induction ports with
    | nil => trivial
    | cons port ports ih => exact ⟨trivial, ih⟩
  refine ⟨?_, hports x.ports, trivial⟩
  cases x.component <;> trivial

/-- The text of what an object offers. -/
def offerHash : Hash := fun _ obj => Json.toJsonString (offerJson (offer (shown obj)))

theorem offerHash_tells : TellsServices offerHash := by
  intro a b h
  have hread := congrArg Json.unmarshal (show Json.toJsonString _ = Json.toJsonString _ from h)
  rw [Json.unmarshal_of_canonical (canonical_offerJson _),
    Json.unmarshal_of_canonical (canonical_offerJson _)] at hread
  exact offerJson_injective (Option.some.inj hread)

/-- A router with one service that leaves its ports to the operator. -/
def routerSpec (druidPort : Int) : DruidSpec where
  image := "v1"
  rollingDeploy := false
  nodes := ⟨[⟨"r", {
    nodeType := .router
    druidPort := druidPort
    replicas := 1
    kind := "Deployment"
    services := some [{ body := {} }] }⟩], by simp⟩

def routerCluster (druidPort : Int) : Druid where
  metadata := { name := "c", ns := "d" }
  body := { spec := routerSpec druidPort }

/-- The resource as it is read after one edit. -/
def editedRouter (druidPort : Int) : Druid :=
  (withSpec (routerSpec druidPort) (routerCluster druidPort)).withResourceVersion 1

/-- The state in which the call is made. -/
def routerWorld (druidPort : Int) : World :=
  edited ("d", "c") { spec := routerSpec druidPort } (storedAlone (routerCluster druidPort))

theorem routerCluster_empty (druidPort : Int) :
    EmptyNamespace ("d", "c") (storedAlone (routerCluster druidPort)).cluster :=
  storedAlone_empty (m := routerCluster druidPort) rfl

theorem offered_router (druidPort : Int) (name : String) :
    offered {} (editedRouter druidPort) name =
      if name = "druid-c-r" then some ⟨some "router", [druidPort]⟩ else none := by
  show List.lookup name [("druid-c-r", _)] = _
  rw [Json.lookup_cons_eq]
  rfl

/-- On the fixed port the router is reached. -/
theorem router_url_fixed_port :
    TellsServices offerHash ∧ EmptyNamespace ("d", "c") (storedAlone (routerCluster 8088)).cluster ∧
    completes offerHash {} (editedRouter 8088) {} (routerWorld 8088) = true ∧
    RouterUrlServed offerHash {} (editedRouter 8088) {} (routerWorld 8088) := by
  have hcomplete : completes offerHash {} (editedRouter 8088) {} (routerWorld 8088) = true := by
    decide +kernel
  refine ⟨offerHash_tells, routerCluster_empty 8088, hcomplete, ?_⟩
  have hnone : ∀ a ∈ ([] : List SpecEdit), a.env.Alone := by simp
  refine (router_url_iff offerHash_tells (routerCluster_empty 8088) hnone
    { spec := routerSpec 8088 } ⟨fun _ _ => rfl, fun _ => rfl⟩ (by rfl) hcomplete).2 ⟨?_, ?_⟩
  · exact ⟨"druid-c-r", _, offered_router 8088 _, rfl⟩
  · intro name x hx _
    rw [offered_router] at hx
    split_ifs at hx with hname
    cases hx
    exact ⟨hname ▸ by decide, List.mem_singleton.2 rfl⟩

/-- On its usual port the router is not: the URL has the fixed port, and the service another. -/
theorem router_url_usual_port :
    completes offerHash {} (editedRouter 8888) {} (routerWorld 8888) = true ∧
    ((afterCall offerHash {} (editedRouter 8888) {} (routerWorld 8888)).cluster.store
      .service).items.map (fun svc => (svc.name, (svc.body.ports.getD []).map ServicePort.port)) =
      [("druid-c-r", [8888])] ∧
    (exec (serve {}) (getRouterSvcUrl "d" "c")
      (afterCall offerHash {} (editedRouter 8888) {} (routerWorld 8888))).res =
      .ok "http://druid-c-r.d:8088" ∧
    ¬ RouterUrlServed offerHash {} (editedRouter 8888) {} (routerWorld 8888) := by
  have hrun : completes offerHash {} (editedRouter 8888) {} (routerWorld 8888) = true ∧
      ((afterCall offerHash {} (editedRouter 8888) {} (routerWorld 8888)).cluster.store
        .service).items.map (fun svc => (svc.name, (svc.body.ports.getD []).map ServicePort.port)) =
        [("druid-c-r", [8888])] ∧
      (exec (serve {}) (getRouterSvcUrl "d" "c")
        (afterCall offerHash {} (editedRouter 8888) {} (routerWorld 8888))).res =
        .ok "http://druid-c-r.d:8088" ∧
      (commonConfigData (editedRouter 8888)).isOk = true := by
    decide +kernel
  obtain ⟨hcomplete, hports, hurl, hdata⟩ := hrun
  refine ⟨hcomplete, hports, hurl, fun hserved => ?_⟩
  obtain ⟨data, hdata⟩ : ∃ data, commonConfigData (editedRouter 8888) = .ok data := by
    cases h : commonConfigData (editedRouter 8888) with
    | ok data => exact ⟨data, rfl⟩
    | error e => simp [h, Except.isOk, Except.toBool] at hdata
  obtain ⟨url, hfound, svc, hstored, -, p, hp, heq⟩ :=
    hserved data hdata ⟨fun _ items => items, fun _ _ => .refl _⟩ {} ⟨fun _ _ => rfl, fun _ => rfl⟩
  rw [exec_getRouterSvcUrl _ ⟨fun _ _ => rfl, fun _ => rfl⟩] at hfound
  obtain ⟨first, rest, -, -, rfl⟩ := first_of_url hfound
  obtain ⟨-, hport⟩ := url_inj heq
  have hmem : (svc.name, (svc.body.ports.getD []).map ServicePort.port) ∈
      [("druid-c-r", [(8888 : Int)])] := by
    rw [← hports]
    exact List.mem_map_of_mem (Table.find?_eq_some.1 hstored).1
  rw [List.mem_singleton, Prod.mk.injEq] at hmem
  have hin : p.port ∈ [(8888 : Int)] := hmem.2 ▸ List.mem_map_of_mem hp
  rw [hport] at hin
  exact absurd hin (by decide)

end DruidOperator.Controller
