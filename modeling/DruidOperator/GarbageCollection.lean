import DruidOperator.GeneratedObjects

/-!
# Garbage collection over many edits

A namespace that starts empty, a resource whose spec is edited again and again, and after each edit
a complete reconcile. After each of them the stored objects with the labels of the resource are
those that the spec generates, and nothing else was deleted on the way. The status is to list them,
kind by kind.

* `Collected`, `StatusLists` — what one complete reconcile is to come to.
* `Owned` — everything stored in the namespace was generated for the resource.
* `StatusKept` — no list of the status has to become empty.
* `garbage_collection_iff` — the status apart, this always holds; the status follows under the last
  condition only.
-/

namespace DruidOperator.Controller

open Interaction Prog Kube Runs

variable {ns : String} {c : Cluster} {k : Kind} {w : World} {m : Druid} {key : String × String}

/-! ## What is to hold after a reconcile -/

/-- The objects that are generated, in a cluster where the extra files are read from `c`. -/
def generated (hash : Hash) (o : MapOrders) (m : Druid) (c : Cluster) (k : Kind) : List (Obj k) :=
  match commonConfigData m with
  | .ok data => callObjects hash o m (filesRead c m.spec.extraCommonConfig data) k
  | .error _ => []

/-- The list of the status that the names of a kind go into. -/
def listedIn : Kind → StatusList
  | .statefulSet => .statefulSets
  | .deployment => .deployments
  | .service => .services
  | .configMap => .configMaps
  | .podDisruptionBudget => .podDisruptionBudgets
  | .ingress => .ingress
  | .horizontalPodAutoscaler => .hpAutoScalers
  | .persistentVolumeClaim => .persistentVolumeClaims
  | _ => .pods

/-- The stored resource. -/
def readCR (key : String × String) (c : Cluster) : Option Druid := (c.store .druid).find? key

/-- The stored objects that carry the labels of the resource. -/
def labelled (m : Druid) (c : Cluster) (k : Kind) : List (Obj k) :=
  c.listed k m.ns (makeLabelsForDruid m)

/-- The labelled objects are those that are generated, and nothing else was deleted on the way. -/
structure Collected (hash : Hash) (o : MapOrders) (m : Druid) (env : Env) (w : World) : Prop where
  stored : ∀ k ∈ collectedKinds, ∀ name,
    (∃ obj ∈ labelled m (afterCall hash o m env w).cluster k, obj.name = name) ↔
      name ∈ generatedNames hash o m k
  current : ∀ k ∈ collectedKinds, ∀ obj ∈ labelled m (afterCall hash o m env w).cluster k,
    ∃ made ∈ generated hash o m w.cluster k, made.name = obj.name ∧ hashOf made = hashOf obj
  spared : ∀ e ∈ (exec (serve env) (deployDruidCluster hash o m) w).steps, ∀ k ∈ collectedKinds,
    ∀ obj orphan, e.req = .delete k obj orphan → obj.name ∉ generatedNames hash o m k
  owned : ∀ e ∈ (exec (serve env) (deployDruidCluster hash o m) w).steps, ∀ k ∈ collectedKinds,
    ∀ obj orphan, e.req = .delete k obj orphan →
      obj.ns = m.ns ∧ (makeLabelsForDruid m).Matches obj.metadata.labels

/-- The lists of the status are the sorted names of the labelled objects. -/
def StatusLists (hash : Hash) (o : MapOrders) (m : Druid) (env : Env) (w : World) : Prop :=
  ∃ cr, readCR m.key (afterCall hash o m env w).cluster = some cr ∧
    ∀ k ∈ collectedKinds, normNames (statusList cr.body.status (listedIn k)) =
      normNames (some (sortStrings
        ((labelled m (afterCall hash o m env w).cluster k).map Object.name)))

/-- Where the spec generates no object of a kind, the status lists none. -/
def StatusKept (hash : Hash) (o : MapOrders) (m : Druid) : Prop :=
  ∀ k ∈ collectedKinds, generatedNames hash o m k = [] →
    (statusList m.body.status (listedIn k)).getD [] = []

/-! ## Nothing is being deleted -/

/-- No object of the table in the namespace is being deleted. -/
def Staying {k : Kind} (ns : String) (t : Store k) : Prop :=
  ∀ name o, t.find? (ns, name) = some o → o.metadata.deletionTimestamp = none

theorem alive_viewOf_iff : Alive (viewOf ns c k) ↔ Staying ns (c.store k) := by
  constructor
  · intro h name o ho
    exact h name (shown o) (by rw [viewOf, ho, Option.map_some])
  · intro h name s hs
    obtain ⟨o, ho, rfl⟩ := Option.map_eq_some_iff.1 hs
    exact h name o ho

/-- An object that is put keeps the mark of the one it replaces. -/
theorem Staying.put {t : Store k} (ht : Staying ns t) {stored obj : Obj k} (version : ℕ)
    (hstored : t.find? obj.key = some stored)
    (hmark : obj.metadata.deletionTimestamp = stored.metadata.deletionTimestamp) :
    Staying ns (Cluster.put k obj version t) := by
  intro name o ho
  have hkey := (Table.find?_eq_some.1 ho).2
  rcases Cluster.of_find?_put ho with ho | rfl
  · exact ht name o ho
  · exact hmark.trans (ht name stored (hkey ▸ hstored))

theorem staying_perform {clock : Int} {r : Request} (hc : Staying ns (c.store k)) :
    Staying ns ((perform clock r c).2.store k) := by
  have heffect := perform_effect clock r c k
  generalize (perform clock r c).2 = c' at heffect ⊢
  cases heffect with
  | none hstore hversion => rwa [hstore]
  | created hnew =>
      intro name o ho
      rw [Cluster.modify_store_self, Table.find?_insert (by exact hnew)] at ho
      split_ifs at ho
      · cases ho
        rfl
      · exact hc name o ho
  | updated hstored hversion =>
      rw [Cluster.modify_store_self]
      exact hc.put _ hstored rfl
  | deleted =>
      intro name o ho
      rw [Cluster.modify_store_self, Table.find?_erase] at ho
      split_ifs at ho
      exact hc name o ho
  | @claim base obj stored hstored =>
      rw [Cluster.modify_store_self]
      refine hc.put _ ?_ (congrArg ObjectMeta.deletionTimestamp
        (patchedClaim_metadata base obj stored))
      rw [patchedClaim_key, (Table.find?_eq_some.1 hstored).2, hstored]
  | resource stored hwrite hstored =>
      rw [Cluster.modify_store_self]
      exact hc.put _ hstored rfl

theorem alive_exec {env : Env} (henv : env.Alone) {α : Type} (p : Code α)
    (halive : Alive (viewOf ns w.cluster k)) :
    Alive (viewOf ns (exec (serve env) p w).state.cluster k) := by
  rw [alive_viewOf_iff] at halive ⊢
  have hkept : ∀ r (w : World), Staying ns (w.cluster.store k) →
      Staying ns ((serve env r w).2.cluster.store k) := by
    intro r w hw
    rcases serve_state env r w with h | h <;> rw [h, seen_alone henv]
    · exact staying_perform hw
    · exact hw
  exact (Triple.ofUses (h := serve env) (G := fun _ => True)
    (uses_of_forall p fun r w hw => ⟨hkept r w hw, trivial⟩) w halive).1

/-! ## Nothing is deleted before the end of the loop -/

/-- What leaves the collected kinds alone, or creates or updates. -/
def spares : Verb → Kind → String × String → Prop :=
  fun v k _ => v = .delete → k ∉ collectedKinds

theorem spares_of_appliesKind (v : Verb) (k' : Kind) (key : String × String)
    (h : appliesKind k v k' key) : spares v k' key := by
  intro hdelete
  rcases h.1 with hv | hv <;> rw [hv] at hdelete <;> cases hdelete

theorem spares_of_deletesPod (v : Verb) (k : Kind) (key : String × String)
    (h : deletesKind .pod v k key) : spares v k key := by
  intro _
  rw [h.2]
  decide

theorem Shares.scalePvcSts_eq {m' : Druid} (hm : Shares m m') :
    m'.spec.scalePvcSts = m.spec.scalePvcSts := by
  obtain ⟨services, annotations, liveness, readiness, startUp, rfl, -⟩ := hm
  rfl

section Spares

variable (hash : Hash) (ls : StrMap) (commonConfigSHA : String)

/-- Without volume expansion a group has no object of a collected kind deleted. -/
theorem uses_applyWorkload_spares (hm : m.spec.scalePvcSts = false) (g : ServiceGroup) :
    (applyWorkload hash commonConfigSHA m g).Uses (Request.Within spares) := by
  have happly : ∀ {k : Kind} {isEqualFn : Obj k → Obj k → Bool} (obj : Obj k),
      (createOrUpdate isEqualFn noopUpdaterFn obj).Uses (Request.Within spares) := fun obj =>
    (uses_createOrUpdate (fun _ _ => rfl) obj).mono fun r hr => hr.mono fun v k key h =>
      spares_of_appliesKind v k key (appliesKind_of_applies v k key h)
  have hscale : (afterServices hash m g).spec.scalePvcSts = false :=
    (((Shares.refl m).afterServices hash g).scalePvcSts_eq).trans hm
  unfold applyWorkload
  split_ifs
  · split
    · trivial
    · exact (happly _).bind fun _ => uses_afterDeployment _ _ _
  · refine Uses.bind ?_ fun _ => (happly _).bind fun _ =>
      (uses_afterStatefulSet _ _ _ _).mono fun r hr => hr.mono spares_of_deletesPod
    rw [expandIfAsked, if_neg (by simp [hscale])]
    trivial

theorem uses_applyGroup_spares {l : Loop} (hl : l.m.spec.scalePvcSts = false) (g : ServiceGroup) :
    (applyGroup hash ls commonConfigSHA l g).Uses (Request.Within spares) := by
  refine ((uses_applyObj (fun _ _ => rfl) _).mono fun r hr => hr.mono fun v k key h =>
    spares_of_appliesKind v k key (appliesKind_of_applies v k key h)).bind fun _ => ?_
  refine Uses.bind (Uses.forEach fun svc _ => ?_) fun _ => ?_
  · exact (uses_applyObj keepClusterIP_key svc).mono fun r hr => hr.mono fun v k key h =>
      spares_of_appliesKind v k key (appliesKind_of_applies v k key h)
  refine (uses_applyWorkload_spares hash commonConfigSHA hl g).bind fun goOn => ?_
  split_ifs
  · refine ((uses_applyRest _ _ _ _).mono fun r hr => hr.mono fun v k key h => ?_).bind
      fun _ => trivial
    exact spares_of_appliesKind v k key ⟨h.1, rfl⟩
  · trivial

theorem uses_loop_spares {l : Loop} (hl : l.m.spec.scalePvcSts = false)
    (groups : List ServiceGroup) :
    (iterate (applyGroup hash ls commonConfigSHA) l groups).Uses (Request.Within spares) := by
  induction groups generalizing l with
  | nil => trivial
  | cons g groups ih =>
      refine (uses_applyGroup_spares hash ls commonConfigSHA hl g).bindYields
        (yields_applyGroup hash ls commonConfigSHA l g) fun x hx => ?_
      cases x with
      | none => trivial
      | some l' =>
          obtain ⟨-, rfl⟩ := hx l' rfl
          refine ih ?_
          exact ((Shares.refl l.m).afterGroup hash commonConfigSHA g).scalePvcSts_eq.trans hl

/-- **Up to the end of the loop nothing that is collected is deleted.** -/
theorem uses_deployGroups_spares (o : MapOrders) (hm : m.spec.scalePvcSts = false)
    (hstays : m.metadata.deletionTimestamp = none) :
    (deployGroups hash o m).Uses (Request.Within spares) := by
  unfold deployGroups
  split
  · trivial
  · refine ((uses_applyCommonConfig hash m).mono fun r hr => hr.mono fun v k key h => ?_).bind
      fun common => ?_
    · exact spares_of_appliesKind v k key (appliesKind_of_applies v k key h)
    rw [hstays]
    refine ((uses_updateFinalizers m).mono fun r hr => hr.mono fun v k key h => ?_).bindYields
      (yields_updateFinalizers m) fun updated hupdated => ?_
    · intro hdelete
      rw [h.1] at hdelete
      cases hdelete
    · obtain ⟨finalizers, rfl⟩ := hupdated
      exact uses_loop_spares hash _ _ (by exact hm) _

end Spares

/-! ## One complete call -/

/-- Everything of a collected kind in the namespace carries the labels of the resource, and nothing
is being deleted. -/
structure Owned (m : Druid) (c : Cluster) : Prop where
  alive : ∀ k ∈ groupKinds, Alive (viewOf m.ns c k)
  labels : ∀ k ∈ collectedKinds, ∀ name s, viewOf m.ns c k name = some s →
    (makeLabelsForDruid m).Matches s.labels

section Call

variable {hash : Hash} {o : MapOrders} {m : Druid} {env : Env} {w : World}
    {files : StrMap} {l : Loop}

namespace Deployed

theorem names_eq (hd : Deployed hash o m env w files l) (hk : k ∈ groupKinds) :
    (callObjects hash o m files k).map Object.name = generatedNames hash o m k :=
  callObjects_names hd.makes hk

/-- What is placed carries the labels, and so does what is kept. -/
theorem loop_labels (hd : Deployed hash o m env w files l) (hw : Owned m w.cluster)
    (hk : k ∈ collectedKinds) {name : String} {s : Shown}
    (hs : viewOf m.ns (afterLoop hash o m env w).cluster k name = some s) :
    (makeLabelsForDruid m).Matches s.labels := by
  refine (hd.path k (groupKinds_of_collectedKinds k hk)).invariant
    (I := fun v => ∀ name s, v name = some s → (makeLabelsForDruid m).Matches s.labels)
    (fun obj hobj v v' hplaced hv name s hs => ?_) (hw.labels k hk) name s hs
  cases hplaced with
  | kept s' hs' hhash => exact hv name s hs
  | sent =>
      by_cases hname : name = obj.name
      · rw [hname, Function.update_self] at hs
        cases hs
        exact labels_callObjects hk hobj
      · rw [Function.update_of_ne hname] at hs
        exact hv name s hs

theorem seen_of_labels (henv : env.Calm) (hd : Deployed hash o m env w files l)
    (hk : k ∈ collectedKinds) {name : String}
    (hlabels : ∀ s, viewOf m.ns (afterLoop hash o m env w).cluster k name = some s →
      (makeLabelsForDruid m).Matches s.labels) :
    viewOf m.ns (afterCall hash o m env w).cluster k name =
      if name ∈ generatedNames hash o m k then
        viewOf m.ns (afterLoop hash o m env w).cluster k name
      else none := by
  rw [hd.views henv hk, hd.names_eq (groupKinds_of_collectedKinds k hk), swept]
  cases hview : viewOf m.ns (afterLoop hash o m env w).cluster k name with
  | none => simp
  | some s =>
      have hmatches := hlabels s hview
      by_cases hname : name ∈ generatedNames hash o m k <;> simp [Option.filter, hmatches, hname]

/-- **What is seen after a complete call** are the generated names, as they were placed. -/
theorem seen (henv : env.Calm) (hd : Deployed hash o m env w files l) (hw : Owned m w.cluster)
    (hk : k ∈ collectedKinds) (name : String) :
    viewOf m.ns (afterCall hash o m env w).cluster k name =
      if name ∈ generatedNames hash o m k then
        viewOf m.ns (afterLoop hash o m env w).cluster k name
      else none :=
  hd.seen_of_labels henv hk fun _ hs => hd.loop_labels hw hk hs

theorem loop_has (hd : Deployed hash o m env w files l) (hk : k ∈ groupKinds) {name : String}
    (hname : name ∈ generatedNames hash o m k) :
    ∃ obj ∈ callObjects hash o m files k, obj.name = name ∧
      ∃ s, viewOf m.ns (afterLoop hash o m env w).cluster k name = some s ∧
        s.hash = hashOf obj := by
  rw [← hd.names_eq hk] at hname
  exact path_hash (hd.path k hk) hname

theorem generated_eq (hd : Deployed hash o m env w files l) (k : Kind) :
    generated hash o m w.cluster k = callObjects hash o m files k := by
  obtain ⟨data, hdata, rfl⟩ := hd.data
  rw [generated, hdata]

theorem labelled_iff (henv : env.Calm) (hd : Deployed hash o m env w files l)
    (hw : Owned m w.cluster) (hk : k ∈ collectedKinds) (name : String) :
    (∃ obj ∈ labelled m (afterCall hash o m env w).cluster k, obj.name = name) ↔
      name ∈ generatedNames hash o m k := by
  rw [labelled, exists_listed_iff]
  constructor
  · rintro ⟨s, hs, -⟩
    rw [hd.seen henv hw hk] at hs
    by_contra hname
    rw [if_neg hname] at hs
    cases hs
  · intro hname
    obtain ⟨-, -, -, s, hs, -⟩ := hd.loop_has (groupKinds_of_collectedKinds k hk) hname
    refine ⟨s, ?_, hd.loop_labels hw hk hs⟩
    rw [hd.seen henv hw hk, if_pos hname, hs]

/-- **The objects are collected.** -/
theorem collected (henv : env.Calm) (hd : Deployed hash o m env w files l) (hw : Owned m w.cluster)
    (hscale : m.spec.scalePvcSts = false) : Collected hash o m env w := by
  -- what is deleted is deleted after the loop
  have hdeleted : ∀ e ∈ (exec (serve env) (deployDruidCluster hash o m) w).steps,
      ∀ k ∈ collectedKinds, ∀ obj orphan, e.req = .delete k obj orphan →
        obj ∈ (afterLoop hash o m env w).cluster.listed k m.ns (makeLabelsForDruid m) ∧
          obj.name ∉ generatedNames hash o m k := by
    intro e he k hk obj orphan hreq
    rw [exec_thenFinish hd.looped] at he
    rcases List.mem_append.1 he with he | he
    · have hwithin := (uses_deployGroups_spares hash o hscale hd.staying).steps he
      rw [hreq, Request.within_delete] at hwithin
      exact absurd hk (hwithin rfl)
    · rw [← hd.names_eq (groupKinds_of_collectedKinds k hk)]
      exact hd.deletes henv he hk hreq
  refine ⟨fun k hk => hd.labelled_iff henv hw hk, fun k hk obj hobj => ?_,
    fun e he k hk obj orphan hreq => (hdeleted e he k hk obj orphan hreq).2,
    fun e he k hk obj orphan hreq => ?_⟩
  · have hname := (hd.labelled_iff henv hw hk obj.name).1 ⟨obj, hobj, rfl⟩
    obtain ⟨made, hmade, hsame, s, hs, hhash⟩ :=
      hd.loop_has (groupKinds_of_collectedKinds k hk) hname
    have hview : viewOf m.ns (afterCall hash o m env w).cluster k obj.name = some (shown obj) := by
      rw [viewOf, (mem_listed_iff.1 hobj).1, Option.map_some]
    rw [hd.seen henv hw hk, if_pos hname, hs] at hview
    cases hview
    rw [hd.generated_eq]
    exact ⟨made, hmade, hsame, hhash.symm⟩
  · have hlisted := (hdeleted e he k hk obj orphan hreq).1
    exact of_decide_eq_true (List.mem_filter.1 hlisted).2

/-! ### The status -/

theorem names_nodup (m : Druid) (c : Cluster) (k : Kind) :
    ((labelled m c k).map Object.name).Nodup := by
  have hkeys := Cluster.listed_nodup c k m.ns (makeLabelsForDruid m)
  refine (List.nodup_map_iff_inj_on (List.Nodup.of_map _ hkeys)).2 fun a ha b hb hab => ?_
  refine List.inj_on_of_nodup_map hkeys ha hb (Prod.ext ?_ hab)
  exact (of_decide_eq_true (List.mem_filter.1 ha).2).1.trans
    (of_decide_eq_true (List.mem_filter.1 hb).2).1.symm

/-- The names that stay are those of the labelled objects. -/
theorem survivors_perm (henv : env.Calm) (hd : Deployed hash o m env w files l)
    (hw : Owned m w.cluster) (hk : k ∈ collectedKinds)
    (hc : c.store k = (afterLoop hash o m env w).cluster.store k) :
    (survivors (makeLabelsForDruid m) l c k).Perm
      ((labelled m (afterCall hash o m env w).cluster k).map Object.name) := by
  have hgroup := groupKinds_of_collectedKinds k hk
  have hsub : (survivors (makeLabelsForDruid m) l c k).Nodup := by
    unfold survivors
    rw [hd.ns_eq]
    exact (names_nodup m c k).sublist (List.filter_sublist.map _)
  refine (List.perm_ext_iff_of_nodup hsub (names_nodup ..)).2 fun name => ?_
  rw [List.mem_map, hd.labelled_iff henv hw hk, survivors, hd.ns_eq, hd.names k hgroup,
    hd.names_eq hgroup]
  constructor
  · intro hname
    obtain ⟨obj, hobj, rfl⟩ := List.mem_map.1 hname
    exact of_decide_eq_true (List.mem_filter.1 hobj).2
  · intro hname
    obtain ⟨-, -, -, s, hs, -⟩ := hd.loop_has hgroup hname
    rw [← viewOf_congr hc] at hs
    have hlabels := hd.loop_labels hw hk (by rwa [← viewOf_congr hc])
    obtain ⟨obj, hobj, rfl⟩ := exists_listed_iff.2 ⟨s, hs, hlabels⟩
    exact List.mem_map.2 ⟨obj, List.mem_filter.2 ⟨hobj, by simpa using hname⟩, rfl⟩

theorem sortStrings_perm {a b : List String} (h : a.Perm b) : sortStrings a = sortStrings b := by
  unfold sortStrings
  refine List.Perm.eq_of_pairwise' (List.pairwise_insertionSort _ a)
    (List.pairwise_insertionSort _ b) ?_
  exact ((List.perm_insertionSort _ a).trans h).trans (List.perm_insertionSort _ b).symm

theorem statusList_computed (ls : StrMap) (l : Loop) (c : Cluster) (hk : k ∈ collectedKinds) :
    statusList (computedStatus ls l c) (listedIn k) =
      some (sortStrings (survivors ls l c k)) := by
  cases k with
  | statefulSet => rfl
  | deployment => rfl
  | service => rfl
  | configMap => rfl
  | podDisruptionBudget => rfl
  | ingress => rfl
  | horizontalPodAutoscaler => rfl
  | _ => simp [collectedKinds] at hk

/-- A list of the stored status is merged, also where no patch is sent. -/
theorem statusList_patched (stored computed : DruidClusterStatus) (f : StatusList) :
    statusList (if computed = stored then stored else mergeStatus stored computed) f =
      mergeNames (statusList stored f) (statusList computed f) := by
  by_cases hsame : computed = stored
  · rw [if_pos hsame, hsame, mergeNames, ite_self]
  · rw [if_neg hsame, statusList_mergeStatus]

/-- **The status follows the objects exactly if no list has to become empty.** -/
theorem statusLists_iff (henv : env.Calm) (hd : Deployed hash o m env w files l)
    (hw : Owned m w.cluster) (hstored : readCR m.key w.cluster = some m) :
    StatusLists hash o m env w ↔ StatusKept hash o m := by
  obtain ⟨finalizers, version, status, hfind, c, hc, hstatus⟩ := hd.stored henv hstored
  have hlist : ∀ k ∈ collectedKinds, (normNames (statusList status (listedIn k)) =
      normNames (some (sortStrings
        ((labelled m (afterCall hash o m env w).cluster k).map Object.name)))) ↔
      (generatedNames hash o m k = [] → (statusList m.body.status (listedIn k)).getD [] = []) := by
    intro k hk
    have hne : k ≠ .persistentVolumeClaim := by
      rintro rfl
      simp [collectedKinds] at hk
    have hperm := hd.survivors_perm henv hw hk (hc k hne)
    have hempty : sortStrings (survivors (makeLabelsForDruid m) l c k) = [] ↔
        generatedNames hash o m k = [] := by
      rw [List.eq_nil_iff_forall_not_mem, List.eq_nil_iff_forall_not_mem]
      refine forall_congr' fun name => not_congr ?_
      rw [sortStrings, List.mem_insertionSort, hperm.mem_iff, List.mem_map,
        hd.labelled_iff henv hw hk]
    rw [hstatus, statusList_patched, statusList_computed _ _ _ hk, ← sortStrings_perm hperm,
      normNames_merge_iff, Option.getD_some, hempty]
  constructor
  · rintro ⟨cr, hcr, hlists⟩ k hk
    rw [readCR, hfind] at hcr
    cases hcr
    exact (hlist k hk).1 (hlists k hk)
  · intro hkept
    exact ⟨_, hfind, fun k hk => (hlist k hk).2 (hkept k hk)⟩

theorem owned (henv : env.Calm) (hd : Deployed hash o m env w files l) (hw : Owned m w.cluster) :
    Owned m (afterCall hash o m env w).cluster := by
  refine ⟨fun k hk => alive_exec henv.alone _ (hw.alive k hk), fun k hk name s hs => ?_⟩
  rw [hd.seen henv hw hk] at hs
  split_ifs at hs
  exact hd.loop_labels hw hk hs

end Deployed

end Call

/-! ## Edits -/

/-- One edit of the spec and what the reconcile that follows runs in. -/
structure SpecEdit where
  spec : DruidSpec
  orders : MapOrders := {}
  env : Env := {}

/-- The resource with another spec; its generation goes up. -/
def withSpec (spec : DruidSpec) (m : Druid) : Druid :=
  { m with
    metadata := { m.metadata with generation := m.metadata.generation + 1 }
    body := { m.body with spec := spec } }

/-- The state once the spec is edited. -/
def edited (key : String × String) (a : SpecEdit) (w : World) : World :=
  ⟨(w.cluster.patch .druid key (withSpec a.spec)).2, w.calls⟩

/-- An edit, and a reconcile of the resource as it is then read. -/
def editStep (hash : Hash) (key : String × String) (w : World) (a : SpecEdit) : World :=
  match readCR key (edited key a w).cluster with
  | some m => afterCall hash a.orders m a.env (edited key a w)
  | none => edited key a w

/-- A property of the reconcile after an edit. -/
def AfterEdit (P : Druid → World → Prop) (key : String × String) (w : World)
    (a : SpecEdit) : Prop :=
  ∀ m, readCR key (edited key a w).cluster = some m → P m (edited key a w)

/-- Every request is served, nobody else writes, and the reconcile does not return early. -/
def CompleteEdit (hash : Hash) (key : String × String) (w : World) (a : SpecEdit) : Prop :=
  a.env.Calm ∧ AfterEdit (fun m w => completes hash a.orders m a.env w = true) key w a

/-- The resource is stored, and no object of the kinds it consists of is in its namespace. -/
structure EmptyNamespace (key : String × String) (c : Cluster) : Prop where
  resource : ∃ m, readCR key c = some m ∧ m.metadata.deletionTimestamp = none
  empty : ∀ k ∈ groupKinds, ∀ name, (c.store k).find? (key.1, name) = none

theorem storedAlone_empty (hstays : m.metadata.deletionTimestamp = none) :
    EmptyNamespace m.key (storedAlone m).cluster := by
  refine ⟨⟨m, ?_, hstays⟩, fun k hk name => ?_⟩
  · simp only [readCR, storedAlone, Function.update_self]
    rw [Table.find?_insert (by rfl), if_pos rfl]
  · have hne : k ≠ .druid := by
      rintro rfl
      simp [groupKinds] at hk
    simp only [storedAlone, Function.update_of_ne hne]
    rfl

theorem EmptyNamespace.alive (hc : EmptyNamespace key c) (hk : k ∈ groupKinds) :
    Alive (viewOf key.1 c k) := by
  intro name s hs
  rw [viewOf, hc.empty k hk, Option.map_none] at hs
  cases hs

/-- What holds between the edits. -/
def Between (key : String × String) (w : World) : Prop :=
  ∃ m, readCR key w.cluster = some m ∧ m.metadata.deletionTimestamp = none ∧ Owned m w.cluster

theorem Owned.congr {m' : Druid} {c' : Cluster} (hc : Owned m c) (hkey : m'.key = m.key)
    (hstore : ∀ k ∈ groupKinds, c'.store k = c.store k) : Owned m' c' := by
  have hns : m'.ns = m.ns := congrArg Prod.fst hkey
  have hlabels := makeLabelsForDruid_congr (congrArg Prod.snd hkey)
  refine ⟨fun k hk => ?_, fun k hk => ?_⟩
  · rw [viewOf_congr (hstore k hk), hns]
    exact hc.alive k hk
  · rw [viewOf_congr (hstore k (groupKinds_of_collectedKinds k hk)), hns, hlabels]
    exact hc.labels k hk

theorem between_of_empty (hw : EmptyNamespace key w.cluster) : Between key w := by
  obtain ⟨m, hm, hstays⟩ := hw.resource
  have hns : m.ns = key.1 := congrArg Prod.fst (Table.find?_eq_some.1 hm).2
  refine ⟨m, hm, hstays, fun k hk => hns ▸ hw.alive hk, fun k hk name s hs => ?_⟩
  rw [viewOf, hns, hw.empty k (groupKinds_of_collectedKinds k hk), Option.map_none] at hs
  cases hs

theorem Between.edited (hw : Between key w) (a : SpecEdit) :
    ∃ m, readCR key (edited key a w).cluster = some m ∧ m.key = key ∧ m.spec = a.spec ∧
      m.metadata.deletionTimestamp = none ∧ Owned m (Controller.edited key a w).cluster := by
  obtain ⟨m, hm, hstays, howned⟩ := hw
  have hkey : m.key = key := (Table.find?_eq_some.1 hm).2
  subst hkey
  refine ⟨_, find?_patch_druid hm (f := withSpec a.spec) rfl hstays, rfl, rfl, hstays, ?_⟩
  refine howned.congr rfl fun k hk => Cluster.patch_store_of_ne ?_
  rintro rfl
  simp [groupKinds] at hk

section Runs

variable {hash : Hash} {key : String × String}

/-- **One edit.** The reconcile that follows deploys what is read, and leaves an owned namespace. -/
theorem edit_step {a : SpecEdit} (hw : Between key w) (ha : CompleteEdit hash key w a) :
    ∃ m files l, m.key = key ∧ m.spec = a.spec ∧ readCR key (edited key a w).cluster = some m ∧
      Owned m (edited key a w).cluster ∧ Deployed hash a.orders m a.env (edited key a w) files l ∧
      editStep hash key w a = afterCall hash a.orders m a.env (edited key a w) ∧
      Between key (editStep hash key w a) := by
  obtain ⟨m, hm, rfl, hspec, hstays, howned⟩ := hw.edited a
  obtain ⟨henv, hcomplete⟩ := ha
  obtain ⟨files, l, hd⟩ := completes_placed henv howned.alive (hcomplete m hm)
  have hstep : editStep hash m.key w a = afterCall hash a.orders m a.env (edited m.key a w) := by
    rw [editStep, hm]
  obtain ⟨finalizers, version, status, hfind, -⟩ := hd.stored henv hm
  refine ⟨m, files, l, rfl, hspec, hm, howned, hd, hstep, ?_⟩
  rw [hstep]
  exact ⟨_, hfind, hstays, (hd.owned henv howned).congr rfl fun _ _ => rfl⟩

theorem afterEdit_of_read {P : Druid → World → Prop} {a : SpecEdit}
    (hm : readCR key (edited key a w).cluster = some m) :
    AfterEdit P key w a ↔ P m (edited key a w) := by
  constructor
  · exact fun h => h m hm
  · intro h m' hm'
    rw [hm] at hm'
    rwa [← Option.some.inj hm']

/-- **Garbage collection over many edits.** From an empty namespace on, after every edit with a
complete reconcile the labelled objects are those generated from the spec, none that is generated
was deleted, and none without the labels was. The status lists their names after every reconcile
exactly if, whenever a spec generates no object of a kind, the status before listed none. -/
theorem garbage_collection_iff {w : World} (hw : EmptyNamespace key w.cluster)
    {edits : List SpecEdit} (hscale : ∀ a ∈ edits, a.spec.scalePvcSts = false)
    (hedits : Meets (editStep hash key) (CompleteEdit hash key) w edits) :
    Meets (editStep hash key) (fun w a =>
      AfterEdit (fun m w => Collected hash a.orders m a.env w) key w a) w edits ∧
    (Meets (editStep hash key) (fun w a => AfterEdit (fun m w =>
        Collected hash a.orders m a.env w ∧ StatusLists hash a.orders m a.env w) key w a) w edits ↔
      Meets (editStep hash key) (fun w a =>
        AfterEdit (fun m _ => StatusKept hash a.orders m) key w a) w edits) := by
  have hbetween := between_of_empty hw
  have hstep : ∀ w, ∀ a ∈ edits, Between key w → CompleteEdit hash key w a →
      Between key (editStep hash key w a) ∧
        AfterEdit (fun m w => Collected hash a.orders m a.env w) key w a ∧
        (AfterEdit (fun m w => StatusLists hash a.orders m a.env w) key w a ↔
          AfterEdit (fun m _ => StatusKept hash a.orders m) key w a) := by
    intro w a ha hw hcomplete
    obtain ⟨m, files, l, rfl, hspec, hm, howned, hd, -, hnext⟩ := edit_step hw hcomplete
    rw [afterEdit_of_read hm, afterEdit_of_read hm, afterEdit_of_read hm]
    exact ⟨hnext, hd.collected hcomplete.1 howned (hspec ▸ hscale a ha),
      hd.statusLists_iff hcomplete.1 howned hm⟩
  refine ⟨?_, fun hmeets => ?_, fun hkept => ?_⟩
  · refine hedits.ofInvariant (I := Between key) (fun w a hmem hw ha => ?_) hbetween
    exact ⟨(hstep w a hmem hw ha).1, (hstep w a hmem hw ha).2.1⟩
  · refine (hedits.and hmeets).ofInvariant (I := Between key) (fun w a hmem hw ha => ?_) hbetween
    obtain ⟨hnext, -, hiff⟩ := hstep w a hmem hw ha.1
    exact ⟨hnext, hiff.1 fun m hm => (ha.2 m hm).2⟩
  · refine (hedits.and hkept).ofInvariant (I := Between key) (fun w a hmem hw ha => ?_) hbetween
    obtain ⟨hnext, hcollected, hiff⟩ := hstep w a hmem hw ha.1
    exact ⟨hnext, fun m hm => ⟨hcollected m hm, hiff.2 ha.2 m hm⟩⟩

end Runs

/-! ## A Deployment that comes and goes -/

instance (hash : Hash) (o : MapOrders) (m : Druid) : Decidable (StatusKept hash o m) :=
  inferInstanceAs (Decidable (∀ k ∈ collectedKinds, generatedNames hash o m k = [] →
    (statusList m.body.status (listedIn k)).getD [] = []))

instance (hash : Hash) (o : MapOrders) (m : Druid) (env : Env) (w : World) :
    Decidable (StatusLists hash o m env w) :=
  decidable_of_iff ((readCR m.key (afterCall hash o m env w).cluster).any fun cr =>
    decide (∀ k ∈ collectedKinds, normNames (statusList cr.body.status (listedIn k)) =
      normNames (some (sortStrings
        ((labelled m (afterCall hash o m env w).cluster k).map Object.name))))) <| by
    simp only [Option.any_eq_true, decide_eq_true_eq, StatusLists]

theorem afterEdit_iff {P : Druid → World → Prop} [∀ m w, Decidable (P m w)] {a : SpecEdit} :
    AfterEdit P key w a ↔ (readCR key (edited key a w).cluster).all fun m =>
      decide (P m (edited key a w)) := by
  simp only [AfterEdit, Option.all_eq_true, decide_eq_true_eq]

instance (P : Druid → World → Prop) [∀ m w, Decidable (P m w)] (key : String × String) (w : World)
    (a : SpecEdit) : Decidable (AfterEdit P key w a) :=
  decidable_of_iff _ afterEdit_iff.symm

/-- A cluster that was just created. -/
def newCluster : World := storedAlone (smallCluster false {})

/-- The broker comes, or goes. -/
def brokerEdit (withBroker : Bool) : SpecEdit :=
  { spec := { (smallCluster withBroker {}).spec with rollingDeploy := false } }

def brokerStep : World → SpecEdit → World := editStep (fun _ _ => "") ("d", "c")

theorem newCluster_empty : EmptyNamespace ("d", "c") newCluster.cluster :=
  storedAlone_empty (m := smallCluster false {}) rfl

theorem brokerEdit_calm (withBroker : Bool) : (brokerEdit withBroker).env.Calm :=
  ⟨fun _ _ => rfl, fun _ => rfl⟩

/-- The broker comes, and then stays or goes. -/
theorem brokerEdits_complete (stays : Bool) :
    Meets brokerStep (CompleteEdit (fun _ _ => "") ("d", "c")) newCluster
      [brokerEdit true, brokerEdit stays] := by
  refine ⟨⟨brokerEdit_calm true, ?_⟩, ⟨brokerEdit_calm stays, ?_⟩, trivial⟩
  · decide +kernel
  · cases stays <;> decide +kernel

/-- A broker that stays. -/
theorem garbage_collection_broker :
    EmptyNamespace ("d", "c") newCluster.cluster ∧
    Meets brokerStep (CompleteEdit (fun _ _ => "") ("d", "c")) newCluster
      [brokerEdit true, brokerEdit true] ∧
    Meets brokerStep
      (fun w a => AfterEdit (fun m w => Collected (fun _ _ => "") a.orders m a.env w ∧
      StatusLists (fun _ _ => "") a.orders m a.env w) ("d", "c") w a) newCluster
      [brokerEdit true, brokerEdit true] := by
  refine ⟨newCluster_empty, brokerEdits_complete true, ?_⟩
  refine (garbage_collection_iff newCluster_empty (by decide) (brokerEdits_complete true)).2.2 ?_
  decide +kernel

/-- Once the broker is gone no Deployment is stored, and the status still lists that of the
broker. -/
theorem gone_broker_listed :
    EmptyNamespace ("d", "c") newCluster.cluster ∧
    Meets brokerStep (CompleteEdit (fun _ _ => "") ("d", "c")) newCluster
      [brokerEdit true, brokerEdit false] ∧
    ((run brokerStep newCluster [brokerEdit true, brokerEdit false]).cluster.store
      .deployment).items.map Object.name = [] ∧
    (readCR ("d", "c") (run brokerStep newCluster [brokerEdit true, brokerEdit false]).cluster).map
      (fun cr => cr.body.status.deployments) = some (some ["druid-c-b"]) ∧
    ¬ Meets brokerStep (fun w a => AfterEdit (fun m w =>
        StatusLists (fun _ _ => "") a.orders m a.env w) ("d", "c") w a) newCluster
      [brokerEdit true, brokerEdit false] := by
  refine ⟨newCluster_empty, brokerEdits_complete false, ?_⟩
  decide +kernel

end DruidOperator.Controller
