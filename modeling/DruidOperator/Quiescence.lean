import DruidOperator.GroupOrder
import DruidOperator.IdleCalls

/-!
# Calls after a complete one

Once a call got to its end, the next one on the same resource should find everything as it wants it.
Whether it does is decided by hashes, and these are taken over objects that are made from maps the
groups share.

* `QuietCall` — the call creates, updates and deletes no object of a group.
* `Settling` — the orders of the later calls make no difference, files are read from ConfigMaps that
  are not those of the cluster, and volume expansion has nothing to do.
* `Deployed.settled` — then a complete call leaves a settled cluster.
* `quiescent` — and all later calls are quiet.
-/

namespace DruidOperator.Controller

open Interaction Prog Kube Runs

/-! ## Quiet calls -/

/-- The request creates, updates or deletes no object of a group. -/
def Leaves (r : Request) : Prop := r.Within fun v k _ => k ∈ groupKinds → v = .patch

/-- The orders of the map and the outside of one call. -/
structure CallInput where
  orders : MapOrders := {}
  env : Env := {}

/-- A call on the resource as it is read. -/
def callStep (hash : Hash) (key : String × String) (w : World) (a : CallInput) : World :=
  match readCR key w.cluster with
  | some m => afterCall hash a.orders m a.env w
  | none => w

def QuietCall (hash : Hash) (key : String × String) (w : World) (a : CallInput) : Prop :=
  ∀ m, readCR key w.cluster = some m →
    ∀ e ∈ (exec (serve a.env) (deployDruidCluster hash a.orders m) w).steps, Leaves e.req

/-! ## When nothing is left to do -/

/-- The ConfigMaps that files are read from are neither made nor collected by the call. -/
def ExtrasApart (hash : Hash) (o : MapOrders) (m : Druid) (c : Cluster) : Prop :=
  ∀ ref ∈ m.spec.extraCommonConfig, ref.ns = m.ns →
    ref.name ∉ generatedNames hash o m .configMap ∧
      ∀ cm, storedConfig c ref = some cm → ¬ (makeLabelsForDruid m).Matches cm.metadata.labels

/-- Where volumes are expanded: the templates of the cluster spec, which come first in a
StatefulSet, do not stand in the way, and a StatefulSet with the hash of a generated one has its
templates. -/
structure SetsStand (hash : Hash) (o : MapOrders) (m : Druid) (c : Cluster) : Prop where
  sizes : ∀ g ∈ m.spec.nodes.items, g.spec.kind ≠ "Deployment" →
    SizesStand g (getPersistentVolumeClaim g.spec m)
  stored : ∀ obj ∈ generated hash o m c .statefulSet, ∀ s,
    viewOf m.ns c .statefulSet obj.name = some s → s.hash = hashOf obj →
      s.claimTemplates = obj.body.spec.volumeClaimTemplates

/-- **The condition**, on the resource, on what is stored before the first call, and on the orders
of the calls. -/
structure Settling (hash : Hash) (o : MapOrders) (m : Druid) (c : Cluster)
    (calls : List CallInput) :
    Prop where
  alive : ∀ k ∈ groupKinds, Alive (viewOf m.ns c k)
  orders : ∀ a ∈ calls, SameObjects o a.orders m
  extras : ExtrasApart hash o m c
  sets : m.spec.scalePvcSts = true → SetsStand hash o m c

/-! ## The ConfigMaps that files are read from -/

/-- ConfigMaps are written under these keys only. -/
def writesConfigs (keys : List (String × String)) : Verb → Kind → String × String → Prop :=
  fun _ k key => k = .configMap → key ∈ keys

section Configs

variable (hash : Hash) (ls : StrMap) (commonConfigSHA : String)

theorem uses_applyGroup_configs (l : Loop) (g : ServiceGroup) :
    (applyGroup hash ls commonConfigSHA l g).Uses
      (Request.Within (writesConfigs [(groupConfig l.m g).key])) := by
  refine ((uses_applyObj (fun _ _ => rfl) _).mono fun r hr => hr.mono ?_).bind fun _ => ?_
  · rintro v k key ⟨-, -, rfl⟩ -
    exact List.mem_singleton.2 (prepare_key ..)
  refine Uses.bind (Uses.forEach fun svc _ => ?_) fun _ => ?_
  · refine (uses_applyObj keepClusterIP_key svc).mono fun r hr => hr.mono ?_
    rintro v k key ⟨-, rfl, -⟩ hk
    cases hk
  refine ((uses_applyWorkload _ _ _ _).mono fun r hr => hr.mono ?_).bind fun goOn => ?_
  · rintro v k key hdeploys rfl
    rcases hdeploys with ⟨-, hk, -⟩ | hexpands | hdeletes
    · rcases workloadKind_cases g.spec with h | h <;> rw [h] at hk <;> cases hk
    · rcases hexpands with h | h <;> cases h.2
    · cases hdeletes.2
  split_ifs
  · refine ((uses_applyRest _ _ _ _).mono fun r hr => hr.mono ?_).bind fun _ => trivial
    rintro v k key ⟨-, hk⟩ rfl
    rcases hk with h | h | h | h <;> cases h
  · trivial

theorem uses_loop_configs {m : Druid} {l : Loop} (hl : l.m.key = m.key)
    (groups : List ServiceGroup) :
    (iterate (applyGroup hash ls commonConfigSHA) l groups).Uses
      (Request.Within (writesConfigs (groups.map fun g => (groupConfig m g).key))) := by
  induction groups generalizing l with
  | nil => trivial
  | cons g groups ih =>
      have hkey : (groupConfig l.m g).key = (groupConfig m g).key := by
        show (l.m.ns, groupName l.m g ++ "-config") = (m.ns, groupName m g ++ "-config")
        rw [groupName_congr (congrArg Prod.snd hl), show l.m.ns = m.ns from congrArg Prod.fst hl]
      refine ((uses_applyGroup_configs hash ls commonConfigSHA l g).mono fun r hr =>
        hr.mono fun v k key hkeys hk => ?_).bindYields
        (yields_applyGroup hash ls commonConfigSHA l g) fun x hx => ?_
      · rw [List.mem_singleton.1 (hkeys hk), hkey]
        exact List.mem_cons_self
      · cases x with
        | none => trivial
        | some l' =>
            obtain ⟨-, rfl⟩ := hx l' rfl
            have hsame := sameIdentity_afterGroup hash commonConfigSHA l.m g
            refine (ih (l := nextLoop hash commonConfigSHA ls l g) ?_).mono fun r hr =>
              hr.mono fun v k key hkeys hk => List.mem_cons_of_mem _ (hkeys hk)
            exact (Prod.ext hsame.ns_eq hsame.name_eq).trans hl

end Configs

section Call

variable {hash : Hash} {o : MapOrders} {m : Druid} {env : Env} {w : World}
    {files : StrMap} {l : Loop}

theorem uses_deployGroups_configs (hstays : m.metadata.deletionTimestamp = none) :
    (deployGroups hash o m).Uses (Request.Within fun _ k key => k = .configMap →
      key.1 = m.ns ∧ key.2 ∈ generatedNames hash o m .configMap) := by
  unfold deployGroups
  split
  · trivial
  · refine ((uses_applyCommonConfig hash m).mono fun r hr => hr.mono ?_).bind fun common => ?_
    · rintro v k key ⟨-, -, rfl⟩ -
      exact ⟨rfl, by simp [generatedNames]⟩
    rw [hstays]
    refine ((uses_updateFinalizers m).mono fun r hr => hr.mono ?_).bindYields
      (yields_updateFinalizers m) fun updated hupdated => ?_
    · rintro v k key ⟨-, rfl, -⟩ hk
      cases hk
    · obtain ⟨finalizers, rfl⟩ := hupdated
      refine (uses_loop_configs hash _ common.1 (m := m) (by rfl) _).mono fun r hr =>
        hr.mono fun v k key hkeys hk => ?_
      obtain ⟨g, hg, rfl⟩ := List.mem_map.1 (hkeys hk)
      refine ⟨rfl, List.mem_append_right _ (List.mem_flatMap.2 ⟨g, hg, ?_⟩)⟩
      exact List.mem_singleton.2 rfl

/-- The StatefulSet of a group has the templates of the cluster spec and its own. -/
theorem exists_plannedSet (hash : Hash) (files : StrMap) {g : ServiceGroup}
    (hg : g ∈ getNodeSpecsByOrder o.groups m) (hkind : g.spec.kind ≠ "Deployment") :
    ∃ obj ∈ callObjects hash o m files .statefulSet, obj.name = groupName m g ∧
      obj.body.spec.volumeClaimTemplates = getPersistentVolumeClaim g.spec m := by
  obtain ⟨done, rest, hgroups⟩ := List.append_of_mem hg
  have hsame := sameIdentity_seenAfter hash (commonSHA hash m files) m done
  have hshares := shares_seenAfter hash (commonSHA hash m files) m done
  generalize hdrd : seenAfter hash (commonSHA hash m files) m done = drd at hsame hshares
  refine ⟨plannedStatefulSet hash (commonSHA hash m files) drd g, ?_, ?_, ?_⟩
  · refine List.mem_append_right _ ((mem_loopObjects ..).2 ⟨done, g, rest, hgroups, ?_⟩)
    simp [groupObjects, workloadObjects, hkind, hdrd]
  · rw [← groupName_congr hsame.name_eq]
    exact congrArg Prod.snd (plannedStatefulSet_key hash (commonSHA hash m files) drd g)
  · obtain ⟨_, _, _, _, _, hshared, -⟩ := hshares.afterServices hash g
    show getPersistentVolumeClaim (withDruidPort g.spec) (afterServices hash drd g) = _
    rw [hshared]
    rfl

namespace Deployed

theorem loop_config (henv : env.Calm) (hd : Deployed hash o m env w files l) {ref : ObjectReference}
    (hname : ref.ns = m.ns → ref.name ∉ generatedNames hash o m .configMap) :
    storedConfig (afterLoop hash o m env w).cluster ref = storedConfig w.cluster ref := by
  refine exec_frame henv.alone (uses_deployGroups_configs hd.staying) fun v hwrites => ?_
  obtain ⟨hns, hmem⟩ := hwrites rfl
  exact hname hns hmem

/-- **Files that are read apart from the cluster** are as before after the call. -/
theorem config_kept (henv : env.Calm) (hd : Deployed hash o m env w files l) {ref : ObjectReference}
    (hapart : ref.ns = m.ns → ref.name ∉ generatedNames hash o m .configMap ∧
      ∀ cm, storedConfig w.cluster ref = some cm →
        ¬ (makeLabelsForDruid m).Matches cm.metadata.labels) :
    storedConfig (afterCall hash o m env w).cluster ref = storedConfig w.cluster ref := by
  rw [← hd.loop_config henv fun hns => (hapart hns).1, afterCall, exec_thenFinish hd.looped]
  refine exec_state_invariant (I := fun w' : World => storedConfig w'.cluster ref =
    storedConfig (afterLoop hash o m env w).cluster ref) (fun e he hpre => ?_) rfl
  rw [← hpre]
  refine serve_frame henv.alone fun v hwrite => ?_
  -- only a deletion of the ConfigMap itself could change it
  have huses : (finishDeploy (makeLabelsForDruid m) l).Uses (Request.Within fun v k _ =>
      k = .configMap → v = .delete) := by
    refine ((uses_collectOrphans l.m).mono fun r hr => hr.mono ?_).bind fun _ =>
      (uses_updateStatus _ l).mono fun r hr => hr.mono ?_
    · rintro v k key ⟨-, rfl⟩ hk
      cases hk
    · rintro v k key (⟨hv, -⟩ | ⟨-, rfl, -⟩) hk
      · exact hv
      · cases hk
  obtain rfl : v = .delete := huses.steps he v .configMap _ hwrite rfl
  cases hreq : e.req with
  | delete k obj orphan =>
      rw [hreq] at hwrite
      simp only [Request.write, Option.some.injEq, Prod.mk.injEq, true_and] at hwrite
      obtain ⟨rfl, hns, hname⟩ := hwrite
      obtain ⟨hlisted, -⟩ := hd.deletes henv he (by decide) hreq
      obtain ⟨hfind, hlabels⟩ := mem_listed_iff.1 hlisted
      have hhere : obj.ns = m.ns := (of_decide_eq_true (List.mem_filter.1 hlisted).2).1
      have href : ref.ns = m.ns := hns.symm.trans hhere
      refine (hapart href).2 obj ?_ hlabels
      rw [← hd.loop_config henv fun hns => (hapart hns).1, storedConfig, Cluster.find?,
        show (Cluster.scope .configMap ref.ns, ref.name) = (m.ns, obj.name) from
          Prod.ext href hname.symm]
      exact hfind
  | _ => simp [hreq, Request.write] at hwrite

theorem files_kept (henv : env.Calm) (hd : Deployed hash o m env w files l)
    (hextras : ExtrasApart hash o m w.cluster) (data : StrMap) :
    filesRead (afterCall hash o m env w).cluster m.spec.extraCommonConfig data =
      filesRead w.cluster m.spec.extraCommonConfig data := by
  unfold filesRead
  refine List.foldl_ext _ _ _ fun data ref href => ?_
  rw [hd.config_kept henv (hextras ref href)]

/-! ## After a complete call -/

/-- What is generated is after the call as it is at the end of the loop. -/
theorem view_kept (henv : env.Calm) (hd : Deployed hash o m env w files l)
    (hkeeps : m.spec.deleteOrphanPvc = false) {k : Kind} (hk : k ∈ groupKinds) {name : String}
    (hname : name ∈ generatedNames hash o m k) :
    viewOf m.ns (afterCall hash o m env w).cluster k name =
      viewOf m.ns (afterLoop hash o m env w).cluster k name := by
  by_cases hclaim : k = .persistentVolumeClaim
  · subst hclaim
    have hnone : collectOrphans l.m = .ret () := by
      obtain ⟨finalizers, hresource⟩ := hd.resource
      obtain ⟨_, _, _, _, _, hshared, -⟩ := shares_seenAfter hash (commonSHA hash m files) m
        (getNodeSpecsByOrder o.groups m)
      have horphans : l.m.spec.deleteOrphanPvc = false := by
        rw [hresource, hshared]
        exact hkeeps
      rw [collectOrphans, if_neg (by simp [horphans])]
      rfl
    rw [afterCall, exec_thenFinish hd.looped, finishDeploy, hnone, ret_bind]
    refine congrFun (viewOf_congr (exec_store henv.alone (uses_updateStatus _ l) ?_)) name
    rintro v key (⟨-, hne, -⟩ | ⟨-, hne, -⟩)
    · exact hne rfl
    · cases hne
  · have hcollected : k ∈ collectedKinds := by
      cases k <;> simp_all [groupKinds, collectedKinds]
    rw [hd.views henv hcollected, hd.names_eq hk, swept]
    cases viewOf m.ns (afterLoop hash o m env w).cluster k name <;> simp [Option.filter, hname]

theorem stands (henv : env.Calm) (hd : Deployed hash o m env w files l)
    (hkeeps : m.spec.deleteOrphanPvc = false) {k : Kind} (hk : k ∈ groupKinds)
    (hnodup : (generatedNames hash o m k).Nodup) {obj : Obj k}
    (hobj : obj ∈ callObjects hash o m files k) :
    ∃ s, viewOf m.ns (afterCall hash o m env w).cluster k obj.name = some s ∧
      s.hash = hashOf obj ∧ (s = sentView obj ∨ viewOf m.ns w.cluster k obj.name = some s) := by
  have hname : obj.name ∈ generatedNames hash o m k := by
    rw [← hd.names_eq hk]
    exact List.mem_map_of_mem hobj
  rw [← hd.names_eq hk] at hnodup
  rw [hd.view_kept henv hkeeps hk hname]
  exact path_unique (hd.path k hk) hnodup hobj

/-- The StatefulSet of a group has the sizes that the group asks for. -/
theorem sized (henv : env.Calm) (hd : Deployed hash o m env w files l)
    (hkeeps : m.spec.deleteOrphanPvc = false)
    (hnodup : (generatedNames hash o m .statefulSet).Nodup)
    (hsets : m.spec.scalePvcSts = true → SetsStand hash o m w.cluster) {g : ServiceGroup}
    (hg : g ∈ getNodeSpecsByOrder o.groups m) : Sized m (afterCall hash o m env w).cluster g := by
  intro hkind hscale s hs
  obtain ⟨obj, hobj, hname, htemplates⟩ := exists_plannedSet hash files hg hkind
  obtain ⟨s', hs', hhash, hseen⟩ := hd.stands henv hkeeps (by decide) hnodup hobj
  rw [hname, hs] at hs'
  cases hs'
  have hkept : s.claimTemplates = obj.body.spec.volumeClaimTemplates := by
    rcases hseen with rfl | hfound
    · rfl
    · refine (hsets hscale).stored obj ?_ s hfound hhash
      rwa [hd.generated_eq]
  rw [hkept, htemplates]
  exact (hsets hscale).sizes g (mem_getNodeSpecsByOrder.1 hg).1 hkind

/-- **A complete call settles the cluster** for every order that generates the same. -/
theorem settled (henv : env.Calm) (hd : Deployed hash o m env w files l)
    (hkeeps : m.spec.deleteOrphanPvc = false)
    (hnodup : ∀ k ∈ groupKinds, (generatedNames hash o m k).Nodup) {calls : List CallInput}
    (hsettling : Settling hash o m w.cluster calls) {a : CallInput} (ha : a ∈ calls) :
    Settled hash a.orders m (afterCall hash o m env w).cluster := by
  refine ⟨alive_exec henv.alone _ (hsettling.alive _ (by decide)), hd.staying, hkeeps,
    fun k hk obj hobj => ?_, fun g hg => ?_, fun k hk name s hs hlabels => ?_⟩
  · obtain ⟨data, hdata, hfiles⟩ := hd.data
    rw [generated, hdata] at hobj
    dsimp only at hobj
    rw [hd.files_kept henv hsettling.extras, ← hfiles] at hobj
    have hmade := mem_callObjects_of_same hd.makes (hsettling.orders a ha) hobj
    obtain ⟨s, hs, hhash, -⟩ := hd.stands henv hkeeps hk (hnodup k hk) hmade
    exact ⟨callObjects_ns hmade, s, hs, hhash⟩
  · refine hd.sized henv hkeeps (hnodup _ (by decide)) hsettling.sets ?_
    exact mem_getNodeSpecsByOrder.2 (mem_getNodeSpecsByOrder.1 hg)
  · rw [mem_generatedNames_iff (o := o)]
    by_contra hname
    rw [hd.views henv hk, hd.names_eq (groupKinds_of_collectedKinds k hk), swept,
      Option.filter_eq_some_iff] at hs
    exact of_decide_eq_true hs.2 ⟨hlabels, hname⟩

end Deployed

/-! ## All later calls -/

theorem Rests.leaves {r : Request} (hr : Rests r) : Leaves r :=
  hr.mono fun _ _ _ h hk => h (List.mem_cons_of_mem _ hk)

/-- **Quiescence.** After a complete call, every further call on the resource as it is read creates,
updates and deletes no object of a group: where the orders of the calls make no difference to what
is generated, files are read from ConfigMaps apart, and volume expansion has nothing to do. -/
theorem quiescent (hm : readCR m.key w.cluster = some m) (hkeeps : m.spec.deleteOrphanPvc = false)
    (hnodup : ∀ k ∈ groupKinds, (generatedNames hash o m k).Nodup) (henv : env.Calm)
    (hcomplete : completes hash o m env w = true) {calls : List CallInput}
    (hcalls : ∀ a ∈ calls, a.env.Calm) (hsettling : Settling hash o m w.cluster calls) :
    Meets (callStep hash m.key) (QuietCall hash m.key) (afterCall hash o m env w) calls := by
  obtain ⟨files, l, hd⟩ := completes_placed henv hsettling.alive hcomplete
  have hstart : Resting m (afterCall hash o m env w).cluster (afterCall hash o m env w) := by
    obtain ⟨finalizers, version, status, hfind, -⟩ := hd.stored henv hm
    exact ⟨fun _ _ => rfl, rfl, finalizers, version, status, hfind⟩
  refine Meets.ofInvariant (I := Resting m (afterCall hash o m env w).cluster)
    (C := fun _ _ => True) (fun w' a ha hw' _ => ?_) hstart (meets_iff.2 fun _ _ _ _ => trivial)
  obtain ⟨finalizers, version, status, hread⟩ := hw'.resource
  obtain ⟨hnext, hsteps⟩ := (hd.settled henv hkeeps hnodup hsettling ha).idles (hcalls a ha)
    ⟨finalizers, version, status, rfl⟩ w' hw'
  refine ⟨?_, fun m' hm' e he => ?_⟩
  · rw [callStep, hread]
    exact hnext
  · rw [hread] at hm'
    cases hm'
    exact (hsteps e he).leaves

end Call

/-! ## Two annotated tiers in two orders -/

theorem leaves_iff {r : Request} :
    Leaves r ↔ r.write.all fun target => decide (target.2.1 ∈ groupKinds → target.1 = .patch) := by
  simp only [Leaves, Request.Within, Option.all_eq_true, decide_eq_true_eq, Prod.forall]

instance (r : Request) : Decidable (Leaves r) := decidable_of_iff _ leaves_iff.symm

instance (hash : Hash) (key : String × String) (w : World) (a : CallInput) :
    Decidable (QuietCall hash key w a) :=
  decidable_of_iff ((readCR key w.cluster).all fun m => decide (∀ e ∈
    (exec (serve a.env) (deployDruidCluster hash a.orders m) w).steps, Leaves e.req)) <| by
    simp only [QuietCall, Option.all_eq_true, decide_eq_true_eq]

/-- The annotated tiers, in a cluster that is deployed at once and keeps its claims. -/
def freeTiers : Druid :=
  { annotatedTiers with body := { annotatedTiers.body with
    spec := { annotatedTiers.spec with rollingDeploy := false, deleteOrphanPvc := false } } }

/-- A hash that depends on the annotation of the tier. -/
def tierHash : Hash := fun _ obj => StrMap.getD obj.metadata.annotations "tier"

/-- The state after a call in the stored order. -/
def deployedTiers : World := afterCall tierHash {} freeTiers {} (storedAlone freeTiers)

theorem freeTiers_completes :
    completes tierHash {} freeTiers {} (storedAlone freeTiers) = true ∧
      ∀ k ∈ groupKinds, (generatedNames tierHash {} freeTiers k).Nodup := by
  decide +kernel

theorem freeTiers_settling :
    Settling tierHash {} freeTiers (storedAlone freeTiers).cluster [{}, {}] := by
  refine ⟨fun k hk => (storedAlone_empty (m := freeTiers) rfl).alive hk, fun a ha => ?_,
    fun ref href => ?_, fun hscale => ?_⟩
  · have hsame : a = {} := by simpa using ha
    subst hsame
    exact .inl rfl
  · cases href
  · cases hscale

/-- The groups come in the stored order again and again. -/
theorem quiescent_freeTiers :
    completes tierHash {} freeTiers {} (storedAlone freeTiers) = true ∧
    Settling tierHash {} freeTiers (storedAlone freeTiers).cluster [{}, {}] ∧
    Meets (callStep tierHash freeTiers.key) (QuietCall tierHash freeTiers.key) deployedTiers
      [{}, {}] := by
  refine ⟨freeTiers_completes.1, freeTiers_settling, ?_⟩
  refine quiescent (by rfl) rfl freeTiers_completes.2 ⟨fun _ _ => rfl, fun _ => rfl⟩
    freeTiers_completes.1 (fun a ha => ?_) freeTiers_settling
  have hsame : a = {} := by simpa using ha
  subst hsame
  exact ⟨fun _ _ => rfl, fun _ => rfl⟩

/-- The StatefulSet of this name is updated with this annotation. -/
def updatedWith (name key value : String) (r : Request) : Bool :=
  match r with
  | .update .statefulSet obj =>
      decide (obj.name = name ∧ StrMap.getD obj.metadata.annotations key = value)
  | _ => false

/-- In the next call the cold tier comes first, without the annotation of the hot one: its
StatefulSet is updated. -/
theorem reordered_tier_updated :
    readCR freeTiers.key (storedAlone freeTiers).cluster = some freeTiers ∧
    freeTiers.spec.rollingDeploy = false ∧ freeTiers.spec.deleteOrphanPvc = false ∧
    completes tierHash {} freeTiers {} (storedAlone freeTiers) = true ∧
    (∀ k ∈ groupKinds, (generatedNames tierHash {} freeTiers k).Nodup) ∧
    ((readCR freeTiers.key deployedTiers.cluster).any fun m =>
      (exec (serve {}) (deployDruidCluster tierHash { groups := .reversed } m)
        deployedTiers).steps.any
        fun e => updatedWith "druid-c-cold" "tier" "" e.req) ∧
    ¬ Meets (callStep tierHash freeTiers.key) (QuietCall tierHash freeTiers.key) deployedTiers
      [{ orders := { groups := .reversed } }] := by
  refine ⟨by rfl, rfl, rfl, freeTiers_completes.1, freeTiers_completes.2, ?_⟩
  decide +kernel

end DruidOperator.Controller
