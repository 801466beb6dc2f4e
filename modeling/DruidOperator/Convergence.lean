import DruidOperator.ServedCalls
import DruidOperator.Lib.Lists

/-!
# Convergence

A resource is reconciled over and over, while the workload controllers roll its pods out and
requests fail now and then. A rolling deploy ends a call at the first workload that is in motion, so
that one call is not enough. This file shows that finitely many are.

* `Wanted.unfinished` — the number of workloads that do not stand: no call raises it, and one that
  is served lowers it, unless it gets to its end.
* `Ongoing` — the cluster as calls on the resource find it.
* `Deployable.settles` — a call that gets to its end settles the cluster.
* `converges` — more ready rounds than there are groups settle the cluster, whatever fails between
  them.
* `standing_kept` — nothing that stands is lost on the way.
-/

namespace DruidOperator.Controller

open Interaction Prog Kube Runs

/-! ## Workloads that do not stand -/

open Classical in
/-- The number of workloads that do not stand. -/
noncomputable def Wanted.unfinished {m : Druid} (D : Wanted m) (c : Cluster) : ℕ :=
  (D.objs .statefulSet).countP (fun obj => ¬ Stands m c obj) +
    (D.objs .deployment).countP (fun obj => ¬ Stands m c obj)

section Unfinished

variable {m : Druid} {D : Wanted m} {c c' : Cluster}

/-- What stands keeps standing, so the number does not grow. -/
theorem Wanted.unfinished_le
    (hviews : ∀ k ∈ groupKinds, Grown (D.objs k) (viewOf m.ns c k) (viewOf m.ns c' k)) :
    D.unfinished c' ≤ D.unfinished c := by
  have hkind : ∀ k ∈ groupKinds, ∀ obj ∈ D.objs k, ¬ Stands m c' obj → ¬ Stands m c obj :=
    fun k hk obj hobj hnot h => hnot (h.grown hk hobj (hviews k hk))
  refine Nat.add_le_add (List.countP_mono_left fun obj hobj => ?_)
    (List.countP_mono_left fun obj hobj => ?_)
  · simpa using hkind .statefulSet (by decide) obj hobj
  · simpa using hkind .deployment (by decide) obj hobj

theorem Wanted.unfinished_lt
    (hviews : ∀ k ∈ groupKinds, Grown (D.objs k) (viewOf m.ns c k) (viewOf m.ns c' k))
    (h : Advanced D c c') : D.unfinished c' < D.unfinished c := by
  have hkind : ∀ k ∈ groupKinds, ∀ obj ∈ D.objs k, ¬ Stands m c' obj → ¬ Stands m c obj :=
    fun k hk obj hobj hnot h => hnot (h.grown hk hobj (hviews k hk))
  obtain ⟨k, hk, obj, hobj, hbefore, hafter⟩ := h
  rcases hk with rfl | rfl
  · refine Nat.add_lt_add_of_lt_of_le (Lists.countP_lt (fun x hx => ?_) hobj
      (by simpa using hbefore)
      (by simpa using hafter)) (List.countP_mono_left fun x hx => ?_)
    · simpa using hkind .statefulSet (by decide) x hx
    · simpa using hkind .deployment (by decide) x hx
  · refine Nat.add_lt_add_of_le_of_lt (List.countP_mono_left fun x hx => ?_)
      (Lists.countP_lt (fun x hx => ?_) hobj (by simpa using hbefore) (by simpa using hafter))
    · simpa using hkind .statefulSet (by decide) x hx
    · simpa using hkind .deployment (by decide) x hx

theorem length_loopWorkloads (hash : Hash) (commonConfigSHA : String) (ls : StrMap) (m : Druid)
    (groups : List ServiceGroup) :
    (loopObjects hash commonConfigSHA ls m groups .statefulSet).length +
      (loopObjects hash commonConfigSHA ls m groups .deployment).length ≤ groups.length := by
  induction groups generalizing m with
  | nil => simp [loopObjects]
  | cons g groups ih =>
      have hone : (groupObjects hash commonConfigSHA ls m g .statefulSet).length +
          (groupObjects hash commonConfigSHA ls m g .deployment).length ≤ 1 := by
        by_cases hkind : g.spec.kind = "Deployment"
        · simp only [groupObjects, workloadObjects, if_pos hkind, List.length_nil]
          cases plannedDeployment hash commonConfigSHA m g <;> simp [Except.toOption]
        · simp [groupObjects, workloadObjects, hkind]
      have hrest := ih (afterGroup hash commonConfigSHA m g)
      simp only [loopObjects, List.length_append, List.length_cons]
      omega

theorem Deployable.unfinished_le {hash : Hash} {o : MapOrders} {data : StrMap}
    (hm : Deployable hash o m data) (files : StrMap) (c : Cluster) :
    (hm.wanted files).unfinished c ≤ m.spec.nodes.items.length := by
  have hcount := length_loopWorkloads hash (commonSHA hash m files) (makeLabelsForDruid m) m
    (getNodeSpecsByOrder o.groups m)
  rw [(perm_getNodeSpecsByOrder o.groups m).length_eq] at hcount
  refine (Nat.add_le_add List.countP_le_length List.countP_le_length).trans ?_
  exact hcount

end Unfinished

/-! ## Clusters between calls -/

/-- The cluster as calls on the resource find it: the resource is stored, nothing of its groups is
being deleted, and `files` are read from ConfigMaps that are not its own. -/
structure Ongoing (hash : Hash) (o : MapOrders) (m : Druid) (data files : StrMap) (c : Cluster) :
    Prop where
  resource : KeptIn m c
  alive : ∀ k ∈ groupKinds, Alive (viewOf m.ns c k)
  extras : ExtrasApart hash o m c
  files : files = filesRead c m.spec.extraCommonConfig data

/-- What others leave alone: the groups as far as they show, the resource, and the files. -/
structure OthersKeep (m : Druid) (c c' : Cluster) : Prop where
  views : ∀ k ∈ groupKinds, viewOf m.ns c' k = viewOf m.ns c k
  resource : readCR m.key c' = readCR m.key c
  files : ∀ ref ∈ m.spec.extraCommonConfig, storedConfig c' ref = storedConfig c ref

section Between

variable {hash : Hash} {o o' : MapOrders} {m drd : Druid} {data files : StrMap} {env : Env}
  {w : World} {c c' : Cluster}

theorem ExtrasApart.congr (h : ExtrasApart hash o m c)
    (hfiles : ∀ ref ∈ m.spec.extraCommonConfig, storedConfig c' ref = storedConfig c ref) :
    ExtrasApart hash o m c' := by
  intro ref href hns
  refine ⟨(h ref href hns).1, fun cm hcm => (h ref href hns).2 cm ?_⟩
  rw [← hfiles ref href]
  exact hcm

theorem Ongoing.othersKeep (h : Ongoing hash o m data files c) (hc' : OthersKeep m c c') :
    Ongoing hash o m data files c' where
  resource := by
    obtain ⟨drd, hread, hdrd⟩ := h.resource
    exact ⟨drd, hc'.resource.trans hread, hdrd⟩
  alive k hk := hc'.views k hk ▸ h.alive k hk
  extras := h.extras.congr hc'.files
  files := h.files.trans (filesRead_congr hc'.files data).symm

/-- The names a call generates do not depend on its order or on the bookkeeping. -/
theorem Deployable.mem_names (hm : Deployable hash o m data) (hdrd : Bookkept m drd)
    (o' : MapOrders) {k : Kind} (hk : k ∈ groupKinds) {name : String} :
    name ∈ generatedNames hash o' drd k ↔ name ∈ generatedNames hash o m k := by
  have heq : (callObjects hash o' drd ∅ k).map Object.name = generatedNames hash o' drd k :=
    callObjects_names (hm.bookkept hdrd o').makes hk
  obtain ⟨finalizers, version, status, rfl⟩ := hdrd
  rw [← heq, callObjects_rewritten, callObjects_names (makes_of_order hm.makes) hk]
  exact mem_generatedNames_iff

theorem Deployable.extrasApart (hm : Deployable hash o m data) (hdrd : Bookkept m drd)
    (h : ExtrasApart hash o m c) : ExtrasApart hash o' drd c := by
  have hname : drd.name = m.name := congrArg Prod.snd hdrd.key_eq
  have hns : drd.ns = m.ns := congrArg Prod.fst hdrd.key_eq
  intro ref href hrefns
  obtain ⟨hnot, hlabels⟩ := h ref (hdrd.spec_eq ▸ href) (hrefns.trans hns)
  refine ⟨fun hmem => hnot ((hm.mem_names hdrd o' (by decide)).1 hmem), fun cm hcm hmatch => ?_⟩
  refine hlabels cm hcm ?_
  rw [makeLabelsForDruid, hname] at hmatch
  exact hmatch

/-- **The files are as before after every call.** -/
theorem Deployable.files_kept (hm : Deployable hash o m data) (henv : env.Alone)
    (hreads : ReadsFiles m env) (hdrd : Bookkept m drd)
    (hw : Ongoing hash o m data files w.cluster) {ref : ObjectReference}
    (href : ref ∈ m.spec.extraCommonConfig) :
    storedConfig (afterCall hash o' drd env w).cluster ref = storedConfig w.cluster ref := by
  rcases hreads with hserved | hnone
  · have hcalm : env.Calm := ⟨henv, hserved⟩
    have hd := hm.bookkept hdrd o'
    have hns : drd.ns = m.ns := congrArg Prod.fst hdrd.key_eq
    have hapart : ExtrasApart hash o' drd w.cluster := hm.extrasApart hdrd hw.extras
    have href' : ref ∈ drd.spec.extraCommonConfig := hdrd.spec_eq ▸ href
    have hends : completes hash o' drd env w = true ∨ _ :=
      completes_or_stops hcalm hd.verified hd.staying hd.keeps
    rcases hends with hdone | ⟨hafter, -⟩
    · obtain ⟨files', l, hplaced⟩ := completes_placed hcalm (by rw [hns]; exact hw.alive) hdone
      exact hplaced.config_kept hcalm fun hrefns => hapart ref href' hrefns
    · rw [hafter]
      refine exec_frame henv (uses_deployGroups_configs hd.staying) fun v hwrites => ?_
      obtain ⟨hrefns, hmem⟩ := hwrites rfl
      exact (hapart ref href' hrefns).1 hmem
  · rw [hnone] at href
    cases href

/-- **A call keeps the cluster as calls find it.** -/
theorem Deployable.ongoing (hm : Deployable hash o m data) (henv : env.Alone)
    (hreads : ReadsFiles m env) (hdrd : Bookkept m drd) (ho : SameObjects o o' m)
    (hw : Ongoing hash o m data files w.cluster) :
    Ongoing hash o m data files (afterCall hash o' drd env w).cluster := by
  have hbuilding := hm.building henv hreads hdrd ho hw.files
    (Building.start (D := hm.wanted files) hw.alive hw.resource)
  have hfiles : ∀ ref ∈ m.spec.extraCommonConfig,
      storedConfig (afterCall hash o' drd env w).cluster ref = storedConfig w.cluster ref :=
    fun ref href => hm.files_kept henv hreads hdrd hw href
  exact {
    resource := hbuilding.resource
    alive := hbuilding.alive
    extras := hw.extras.congr hfiles
    files := hw.files.trans (filesRead_congr hfiles data).symm }

/-! ### Settled clusters -/

theorem SameObjects.symm (h : SameObjects o o' m) : SameObjects o' o m :=
  h.imp Eq.symm And.symm

theorem Deployable.generated_eq (hm : Deployable hash o m data)
    (hfiles : files = filesRead c m.spec.extraCommonConfig data) (o' : MapOrders) :
    generated hash o' m c = callObjects hash o' m files := by
  funext k
  rw [generated, hm.data, hfiles]

/-- What a settled cluster comes to where claims are neither expanded nor collected. -/
theorem Deployable.settled_iff (hm : Deployable hash o m data)
    (hc : Ongoing hash o m data files c) :
    Settled hash o m c ↔ AllStand m c (hm.wanted files).objs ∧ ∀ k ∈ collectedKinds, ∀ name s,
      viewOf m.ns c k name = some s → (makeLabelsForDruid m).Matches s.labels →
        name ∈ generatedNames hash o m k := by
  have hgenerated := hm.generated_eq hc.files o
  constructor
  · intro h
    refine ⟨?_, h.used⟩
    have := h.stands
    rwa [hgenerated] at this
  · rintro ⟨hstands, hused⟩
    exact {
      alive := hc.alive _ (by decide)
      staying := hm.staying
      keeps := hm.keeps
      stands := by rwa [hgenerated]
      sized := fun g _ _ hscale => absurd (hm.sizes.symm.trans hscale) (by decide)
      used := hused }

/-- **A settled cluster stays settled**, whatever fails. -/
theorem Deployable.settled_of_grown (hm : Deployable hash o m data)
    (hc : Ongoing hash o m data files c) (hc' : Ongoing hash o m data files c')
    (hviews : ∀ k ∈ groupKinds,
      Grown ((hm.wanted files).objs k) (viewOf m.ns c k) (viewOf m.ns c' k))
    (h : Settled hash o m c) : Settled hash o m c' := by
  obtain ⟨hstands, hused⟩ := (hm.settled_iff hc).1 h
  refine (hm.settled_iff hc').2 ⟨fun k hk obj hobj => ?_, fun k hk name s hs hlabels => ?_⟩
  · exact (hstands k hk obj hobj).grown hk hobj (hviews k hk)
  · have hk' := groupKinds_of_collectedKinds k hk
    cases hviews k hk' name with
    | kept heq => exact hused k hk name s (heq ▸ hs) hlabels
    | sent obj hobj hname hsent =>
        have hnames : (callObjects hash o m files k).map Object.name = _ :=
          callObjects_names hm.makes hk'
        rw [← hname, ← hnames]
        exact List.mem_map_of_mem hobj
    | gone hnone hobjs =>
        rw [hnone] at hs
        cases hs

/-- **A complete call settles the cluster.** -/
theorem Deployable.settles (hm : Deployable hash o m data) (henv : env.Calm) (hdrd : Bookkept m drd)
    (ho : SameObjects o o' m) (hw : Ongoing hash o m data files w.cluster)
    (hdone : completes hash o' drd env w = true) :
    Settled hash o m (afterCall hash o' drd env w).cluster := by
  have hns : drd.ns = m.ns := congrArg Prod.fst hdrd.key_eq
  have halive : ∀ k ∈ groupKinds, Alive (viewOf drd.ns w.cluster k) := by
    rw [hns]
    exact hw.alive
  obtain ⟨files', l, hplaced⟩ := completes_placed henv halive hdone
  have hafter := hm.ongoing henv.alone (.inl henv.served) hdrd ho hw
  have hd := hm.bookkept hdrd o'
  have hsettling : Settling hash o' drd w.cluster [{ orders := o' }] := {
    alive := halive
    orders := fun a ha => by
      rw [List.mem_singleton.1 ha]
      exact .inl rfl
    extras := hm.extrasApart hdrd hw.extras
    sets := fun hscale => absurd (hd.sizes.symm.trans hscale) (by decide) }
  have hsettled := hplaced.settled henv hd.keeps hd.names hsettling (List.mem_singleton.2 rfl)
  refine (hm.settled_iff hafter).2 ⟨fun k hk obj hobj => ?_, fun k hk name s hs hlabels => ?_⟩
  · have hmem : obj ∈ callObjects hash o' m files k :=
      mem_callObjects_of_same (makes_of_order hm.makes) ho.symm hobj
    obtain ⟨finalizers, version, status, rfl⟩ := hdrd
    refine hsettled.stands k hk obj ?_
    rw [generated, hd.data]
    dsimp only
    rw [callObjects_rewritten]
    rw [show filesRead _ (rewritten m finalizers version status).spec.extraCommonConfig data = files
      from hafter.files.symm]
    exact hmem
  · refine (hm.mem_names hdrd o' (groupKinds_of_collectedKinds k hk)).1 ?_
    refine hsettled.used k hk name s (by rw [hns]; exact hs) ?_
    rw [makeLabelsForDruid, show drd.name = m.name from congrArg Prod.snd hdrd.key_eq]
    exact hlabels

end Between

/-! ## Rounds -/

/-- One round: what others do to the cluster, and then a call. -/
structure Round where
  outside : Cluster → Cluster := id
  call : CallInput := {}

def roundStep (hash : Hash) (key : String × String) (w : World) (r : Round) : World :=
  callStep hash key { w with cluster := r.outside w.cluster } r.call

/-- Others keep to the statuses, and the order of the call makes no difference to what it generates.
Requests may fail, where this does not change the files. -/
structure Admissible (o : MapOrders) (m : Druid) (w : World) (r : Round) : Prop where
  outside : OthersKeep m w.cluster (r.outside w.cluster)
  alone : r.call.env.Alone
  reads : ReadsFiles m r.call.env
  orders : SameObjects o r.call.orders m

/-- No request of the round fails, and the workloads that are stored are deployed. -/
structure ReadyRound (m : Druid) (w : World) (r : Round) : Prop where
  served : ∀ n, r.call.env.fault n = none
  deployed : Ready m (r.outside w.cluster)

section Rounds

variable {hash : Hash} {o : MapOrders} {m : Druid} {data files : StrMap} {w : World} {r : Round}

theorem roundStep_eq {c : Cluster} (hc : r.outside w.cluster = c)
    (hongoing : Ongoing hash o m data files c) :
    ∃ drd, Bookkept m drd ∧ roundStep hash m.key w r =
      afterCall hash r.call.orders drd r.call.env ⟨c, w.calls⟩ := by
  obtain ⟨drd, hread, hdrd⟩ := hongoing.resource
  refine ⟨drd, hdrd, ?_⟩
  rw [roundStep, callStep, hc, hread]

theorem OthersKeep.grown {c c' : Cluster} (h : OthersKeep m c c') (D : Wanted m) :
    ∀ k ∈ groupKinds, Grown (D.objs k) (viewOf m.ns c k) (viewOf m.ns c' k) := by
  intro k hk
  rw [h.views k hk]
  exact .refl _ _

/-- **A round keeps what is built**, and a settled cluster settled. -/
theorem Deployable.round (hm : Deployable hash o m data)
    (hw : Ongoing hash o m data files w.cluster) (hr : Admissible o m w r) :
    Ongoing hash o m data files (roundStep hash m.key w r).cluster ∧
      ∀ k ∈ groupKinds, Grown ((hm.wanted files).objs k) (viewOf m.ns w.cluster k)
        (viewOf m.ns (roundStep hash m.key w r).cluster k) := by
  have hstart := hw.othersKeep hr.outside
  obtain ⟨drd, hdrd, hstep⟩ := roundStep_eq rfl hstart
  have hbuilding :=
    hm.building (w := ⟨r.outside w.cluster, w.calls⟩) hr.alone hr.reads hdrd hr.orders
    hstart.files (Building.start (D := hm.wanted files) hstart.alive hstart.resource)
  rw [hstep]
  exact ⟨hm.ongoing hr.alone hr.reads hdrd hr.orders hstart,
    fun k hk => (hr.outside.grown _ k hk).trans (hbuilding.views k hk)⟩

/-- **A ready round** settles the cluster, or makes one more workload stand. -/
theorem Deployable.ready_round (hm : Deployable hash o m data)
    (hw : Ongoing hash o m data files w.cluster) (hr : Admissible o m w r)
    (hready : ReadyRound m w r) :
    Settled hash o m (roundStep hash m.key w r).cluster ∨
      (hm.wanted files).unfinished (roundStep hash m.key w r).cluster <
        (hm.wanted files).unfinished w.cluster := by
  have hstart := hw.othersKeep hr.outside
  have hcalm : r.call.env.Calm := ⟨hr.alone, hready.served⟩
  obtain ⟨drd, hdrd, hstep⟩ := roundStep_eq rfl hstart
  have hbuilding : Building (hm.wanted files) (r.outside w.cluster)
      ⟨r.outside w.cluster, w.calls⟩ :=
    Building.start (w := ⟨r.outside w.cluster, w.calls⟩) hstart.alive hstart.resource
  have hafter := hm.building hr.alone hr.reads hdrd hr.orders hstart.files hbuilding
  rw [hstep]
  have hends := hm.advances (w := ⟨r.outside w.cluster, w.calls⟩) hcalm hdrd hr.orders hstart.files
    hbuilding hready.deployed
  rcases hends with hdone | hadvanced
  · exact .inl (hm.settles hcalm hdrd hr.orders hstart hdone)
  · exact .inr ((Wanted.unfinished_lt hafter.views hadvanced).trans_le
      (Wanted.unfinished_le (hr.outside.grown _)))

/-- **Convergence.** A resource that can be deployed and stays as it is, and whose claims are
neither expanded nor collected, gets reconciled over and over, in any orders that make no difference
to what is generated, while others change statuses and requests fail, if this makes no difference to
the files that are read. If more rounds than the resource has groups find its workloads deployed and
their requests served, then the cluster is settled in the end: everything the resource asks for is
stored as it is generated, and nothing is left that a call would collect. -/
theorem converges (hm : Deployable hash o m data) (hw : Ongoing hash o m data files w.cluster)
    {rounds : List Round} (hrounds : Meets (roundStep hash m.key) (Admissible o m) w rounds)
    (hready : AtLeast (roundStep hash m.key) (ReadyRound m)
      (m.spec.nodes.items.length + 1) w rounds) :
    Settled hash o m (run (roundStep hash m.key) w rounds).cluster := by
  refine run_reaches (I := fun w => Ongoing hash o m data files w.cluster)
    (G := fun w => Settled hash o m w.cluster)
    (N := fun w => (hm.wanted files).unfinished w.cluster) (fun w r _ hw hr => ?_)
    (fun w r _ hw hr => ?_) hw hrounds (.inr (hready.mono ?_))
  · obtain ⟨hnext, hviews⟩ := hm.round hw hr
    exact ⟨hnext, hm.settled_of_grown hw hnext hviews⟩
  · exact ⟨Wanted.unfinished_le (hm.round hw hr).2, hm.ready_round hw hr⟩
  · exact Nat.succ_le_succ (hm.unfinished_le files w.cluster)

/-- **Nothing that stands is lost** on the way, under the same conditions. -/
theorem standing_kept (hm : Deployable hash o m data) (hw : Ongoing hash o m data files w.cluster)
    {rounds : List Round} (hrounds : Meets (roundStep hash m.key) (Admissible o m) w rounds)
    {k : Kind} (hk : k ∈ groupKinds) {obj : Obj k} (hobj : obj ∈ callObjects hash o m files k)
    (hstands : Stands m w.cluster obj) :
    Stands m (run (roundStep hash m.key) w rounds).cluster obj := by
  have hinv := run_invariant (I := fun w => Ongoing hash o m data files w.cluster ∧
    Stands m w.cluster obj) (fun w r _ hw hr => ?_) ⟨hw, hstands⟩ hrounds
  · exact hinv.2
  · obtain ⟨hnext, hviews⟩ := hm.round hw.1 hr
    exact ⟨hnext, hw.2.grown (D := hm.wanted files) hk hobj (hviews k hk)⟩

end Rounds

/-! ## Two tiers, and a request that fails -/

instance (m : Druid) (c : Cluster) : Decidable (Ready m c) :=
  decidable_of_iff (∀ g ∈ m.spec.nodes.items,
    ∀ obj ∈ (c.store (workloadKind g.spec)).find? (m.ns, groupName m g),
      (fullyDeployed (workloadKind g.spec) obj).1 = true) Iff.rfl

theorem alive_of_items {ns : String} {c : Cluster} {k : Kind}
    (h : ∀ obj ∈ (c.store k).items, obj.metadata.deletionTimestamp = none) :
    Alive (viewOf ns c k) := by
  intro name s hs
  obtain ⟨obj, hobj, rfl⟩ := Option.map_eq_some_iff.1 hs
  exact h obj (Table.find?_eq_some.1 hobj).1

/-- The tiers, with claims that are kept. -/
def keptTiers (image : String) : Druid :=
  { tieredCluster image with body := { (tieredCluster image).body with
    spec := { (tieredCluster image).spec with deleteOrphanPvc := false } } }

def hotNodes : ServiceGroup :=
  ⟨"hot", { nodeType := .historical, druidPort := 8083, replicas := 1 }⟩

/-- The hot tier runs this image, the resource asks for `v2`, and the cold tier is missing. -/
def halfTiers (image : String) : World where
  cluster := (storedAlone (keptTiers "v2")).cluster.modify .statefulSet fun version t =>
    t.insert (accepted (plannedStatefulSet imageHash "" (keptTiers image) hotNodes) version)

/-- No request gets through. -/
def cutOff : Env where
  fault _ := some ⟨⟨"connection refused", false⟩, false⟩

def tiersData : StrMap := (commonConfigData (keptTiers "v2")).toOption.getD ∅

theorem keptTiers_deployable : Deployable imageHash {} (keptTiers "v2") tiersData where
  verified := by decide +kernel
  staying := rfl
  keeps := rfl
  sizes := rfl
  data := by
    have hok : (commonConfigData (keptTiers "v2")).isOk = true := by decide +kernel
    unfold tiersData
    cases hdata : commonConfigData (keptTiers "v2") with
    | error e =>
        rw [hdata] at hok
        cases hok
    | ok data => rfl
  makes := by
    unfold MakesWorkload
    decide +kernel
  names := by decide +kernel

theorem halfTiers_ongoing {image : String}
    (halive : ∀ k ∈ groupKinds, ∀ obj ∈ ((halfTiers image).cluster.store k).items,
      obj.metadata.deletionTimestamp = none) :
    Ongoing imageHash {} (keptTiers "v2") tiersData tiersData (halfTiers image).cluster where
  resource := ⟨keptTiers "v2", rfl, _, _, _, rfl⟩
  alive k hk := alive_of_items (halive k hk)
  extras _ href := by cases href
  files := rfl

theorem admissible_tiers (w : World) {r : Round} (hr : r = {} ∨ r = { call := { env := cutOff } }) :
    Admissible {} (keptTiers "v2") w r := by
  rcases hr with rfl | rfl <;>
    exact ⟨⟨fun _ _ => rfl, rfl, fun _ _ => rfl⟩, fun _ _ => rfl, .inr rfl, .inl rfl⟩

/-- The hot tier is updated, a call is cut off, the cold tier is created, and one more call finds
all in place. -/
theorem converges_tiers :
    Settled imageHash {} (keptTiers "v2")
      (run (roundStep imageHash (keptTiers "v2").key) (halfTiers "v1")
        [{}, { call := { env := cutOff } }, {}, {}]).cluster := by
  refine converges keptTiers_deployable (halfTiers_ongoing (by decide +kernel))
    (meets_iff.2 fun before r after heq => admissible_tiers _ ?_) ?_
  · have hr : r ∈ [({} : Round), { call := { env := cutOff } }, {}, {}] := by simp [heq]
    simp only [List.mem_cons, List.not_mem_nil, or_false] at hr
    rcases hr with h | h | h | h <;> simp [h]
  · show AtLeast _ _ 3 _ _
    exact .inl ⟨⟨fun _ => rfl, by decide +kernel⟩, .inr (.inl ⟨⟨fun _ => rfl, by decide +kernel⟩,
      .inl ⟨⟨fun _ => rfl, by decide +kernel⟩, trivial⟩⟩)⟩

/-- The hot tier stands while a call is cut off and another one creates the cold tier. -/
theorem standing_kept_tiers :
    Stands (keptTiers "v2")
      (run (roundStep imageHash (keptTiers "v2").key) (halfTiers "v2")
        [{ call := { env := cutOff } }, {}]).cluster
      (plannedStatefulSet imageHash (commonSHA imageHash (keptTiers "v2") tiersData)
        (keptTiers "v2")
        hotNodes) := by
  refine standing_kept keptTiers_deployable (halfTiers_ongoing (by decide +kernel))
    (meets_iff.2 fun before r after heq => admissible_tiers _ ?_) (k := .statefulSet) (by decide) ?_
    ⟨rfl, ?_⟩
  · have hr : r ∈ [{ call := { env := cutOff } }, ({} : Round)] := by simp [heq]
    simp only [List.mem_cons, List.not_mem_nil, or_false] at hr
    exact hr.symm
  · refine List.mem_append_right _ ((mem_loopObjects _ _ _).2 ⟨[], hotNodes, _, rfl, ?_⟩)
    exact List.mem_cons_self
  · exact ⟨_, rfl, rfl⟩

end DruidOperator.Controller
