import DruidOperator.GarbageCollection

/-!
# Calls that find everything in place

Where all that a call generates is stored with its hash, and nothing is stored that it would
collect, the call writes into claims and into the resource only, and only by patches. This file goes
through the call program by program.

* `Resting` — the stored objects are as they were, but for bookkeeping.
* `Idles` — the program keeps it so.
* `Settled` — what a call has to find.
* `Settled.idles` — then the whole call rests.
-/

namespace DruidOperator.Controller

open Interaction Prog Kube Runs

variable {k : Kind} {g : ServiceGroup} {drd : Druid} {l : Loop}

/-! ## Nothing changes -/

/-- The request changes objects of groups and resources by patches only. -/
def Rests (r : Request) : Prop := r.Within fun v k _ => k ∈ .druid :: groupKinds → v = .patch

theorem Rests.ofRead {r : Request} (hr : r.write = none) : Rests r := by
  intro v k key hwrite
  rw [hr] at hwrite
  cases hwrite

/-- The resource is `m` but for its bookkeeping. -/
def Bookkept (m drd : Druid) : Prop :=
  ∃ finalizers version status, drd = rewritten m finalizers version status

/-- The stored objects are those of `c`, but for the sizes of claims, and the resource is `m` but
for its bookkeeping. -/
structure Resting (m : Druid) (c : Cluster) (w : World) : Prop where
  stores : ∀ k ∈ collectedKinds, w.cluster.store k = c.store k
  claims : viewOf m.ns w.cluster .persistentVolumeClaim = viewOf m.ns c .persistentVolumeClaim
  resource : ∃ finalizers version status,
    readCR m.key w.cluster = some (rewritten m finalizers version status)

/-- A request that only patches resources keeps all of them but their bookkeeping. -/
theorem readCR_perform {r : Request} {c : Cluster} {m : Druid} (clock : Int)
    (hcreate : ∀ obj, r ≠ .create .druid obj) (hupdate : ∀ obj, r ≠ .update .druid obj)
    (hdelete : ∀ obj orphan, r ≠ .delete .druid obj orphan)
    (hstays : m.metadata.deletionTimestamp = none)
    (h : ∃ finalizers version status,
      readCR m.key c = some (rewritten m finalizers version status)) :
    ∃ finalizers version status,
      readCR m.key (perform clock r c).2 = some (rewritten m finalizers version status) := by
  obtain ⟨finalizers, version, status, hread⟩ := h
  have heffect := perform_effect clock r c .druid
  generalize (perform clock r c).2 = c' at heffect ⊢
  cases heffect with
  | none hstore hversion =>
      exact ⟨_, _, _, (congrArg (Table.find? · m.key) hstore).trans hread⟩
  | created hnew => exact absurd rfl (hcreate _)
  | updated hstored hversion => exact absurd rfl (hupdate _)
  | deleted => exact absurd rfl (hdelete _ _)
  | @resource _ stored finalizers' status' hwrite hstored =>
      rw [readCR, Cluster.modify_store_self]
      by_cases hkey : m.key = stored.key
      · obtain rfl : stored = rewritten m finalizers version status :=
          Option.some.inj (hstored.symm.trans (hkey ▸ hread))
        refine ⟨finalizers', c.version + 1, status', Cluster.find?_put_self (k := .druid) _ _
          (fun hgone => ?_) fun hnone => Option.some_ne_none _ (hstored.symm.trans hnone)⟩
        have hmarked : m.metadata.deletionTimestamp.isSome = true := hgone.1
        rw [hstays] at hmarked
        cases hmarked
      · refine ⟨_, _, _, (Cluster.find?_put_of_ne ?_).trans hread⟩
        exact hkey

section Resting

variable {env : Env} (henv : env.Calm) {m : Druid} {c : Cluster} {w : World}

theorem Resting.view (hw : Resting m c w) (hk : k ∈ groupKinds) :
    viewOf m.ns w.cluster k = viewOf m.ns c k := by
  by_cases hclaim : k = .persistentVolumeClaim
  · subst hclaim
    exact hw.claims
  · refine viewOf_congr (hw.stores k ?_)
    cases k <;> simp_all [groupKinds, collectedKinds]

include henv

/-- **A request that rests keeps it so.** -/
theorem Resting.serve (hw : Resting m c w)
    (halive : Alive (viewOf m.ns c .persistentVolumeClaim))
    (hstays : m.metadata.deletionTimestamp = none) {r : Request} (hr : Rests r) :
    Resting m c (Kube.serve env r w).2 := by
  refine ⟨fun k hk => ?_, ?_, ?_⟩
  · rw [serve_store henv.alone, hw.stores k hk]
    intro v key hwrite
    have hverb := hr v k key hwrite (List.mem_cons_of_mem _ (groupKinds_of_collectedKinds k hk))
    subst hverb
    cases r <;> simp [Request.write] at hwrite <;> simp [← hwrite.1, collectedKinds] at hk
  · by_cases hwrites : ∀ v key, r.write ≠ some (v, .persistentVolumeClaim, key)
    · rw [viewOf_congr (serve_store henv.alone hwrites), hw.claims]
    · simp only [not_forall, not_not] at hwrites
      obtain ⟨v, key, hwrite⟩ := hwrites
      have hverb := hr v _ key hwrite (by decide)
      subst hverb
      cases r <;> simp [Request.write] at hwrite
      next base obj => rw [viewOf_patchClaim henv base obj (hw.claims ▸ halive), hw.claims]
  · rw [serve_calm henv]
    refine readCR_perform env.clock ?_ ?_ ?_ hstays hw.resource
    · rintro obj rfl
      cases hr _ _ _ rfl List.mem_cons_self
    · rintro obj rfl
      cases hr _ _ _ rfl List.mem_cons_self
    · rintro obj orphan rfl
      cases hr _ _ _ rfl List.mem_cons_self

end Resting

/-! ## Programs that rest -/

/-- From a resting state the program rests. -/
def Idles (env : Env) (m : Druid) (c : Cluster) {α : Type} (p : Code α) : Prop :=
  Triple (serve env) (Resting m c) p (fun _ => Resting m c) fun e => Rests e.req

/-- The object is in the namespace of the resource, and one with its hash is stored. -/
def Stands (m : Druid) (c : Cluster) {k : Kind} (obj : Obj k) : Prop :=
  obj.ns = m.ns ∧ ∃ s, viewOf m.ns c k obj.name = some s ∧ s.hash = hashOf obj

def AllStand (m : Druid) (c : Cluster) (objs : (k : Kind) → List (Obj k)) : Prop :=
  ∀ k ∈ groupKinds, ∀ obj ∈ objs k, Stands m c obj

/-- The sizes a group asks for are those of the templates, index by index. -/
def SizesStand (g : ServiceGroup) (templates : List (Object PersistentVolumeClaim)) : Prop :=
  ∀ x ∈ (g.spec.volumeClaimTemplates.map storageOf).zip (templates.map storageOf), x.1 = x.2

/-- Where volumes are expanded, the stored StatefulSet of the group has the sizes it asks for. -/
def Sized (m : Druid) (c : Cluster) (g : ServiceGroup) : Prop :=
  g.spec.kind ≠ "Deployment" → m.spec.scalePvcSts = true → ∀ s,
    viewOf m.ns c .statefulSet (groupName m g) = some s → SizesStand g s.claimTemplates

theorem Sized.congr {m m' : Druid} {c : Cluster} (h : Sized m c g) (hsame : SameIdentity m m')
    (hasks : m'.spec.scalePvcSts = m.spec.scalePvcSts) : Sized m' c g := by
  intro hkind hscale s hs
  rw [hsame.ns_eq, groupName_congr hsame.name_eq] at hs
  exact h hkind (hasks ▸ hscale) s hs

theorem filesRead_congr {c c' : Cluster} {refs : List ObjectReference}
    (h : ∀ ref ∈ refs, storedConfig c' ref = storedConfig c ref) (data : StrMap) :
    filesRead c' refs data = filesRead c refs data := by
  induction refs generalizing data with
  | nil => rfl
  | cons ref refs ih =>
      simp only [filesRead, List.foldl_cons]
      rw [h ref List.mem_cons_self]
      exact ih (fun ref' href' => h ref' (List.mem_cons_of_mem _ href')) _

/-- Where the sizes stand, expansion patches claims at most. -/
theorem uses_expandTemplates_idle (sts : Obj .statefulSet) {des cur : List Quantity}
    (hsizes : ∀ x ∈ des.zip cur, x.1 = x.2) (pvcs : List (Obj .persistentVolumeClaim × Quantity)) :
    (expandTemplates sts des cur pvcs).Uses (Request.Within patchesClaims) := by
  induction des generalizing cur pvcs with
  | nil => trivial
  | cons desired des ih =>
      cases cur with
      | nil => trivial
      | cons current cur =>
          rw [List.zip_cons_cons, List.forall_mem_cons] at hsizes
          refine Uses.bind ?_ fun pvcs => ih hsizes.2 pvcs
          unfold expandTemplate
          split_ifs with _ hdiffers
          · trivial
          · exact absurd hsizes.1 hdiffers
          · exact uses_patchClaims desired pvcs

section Programs

variable {env : Env} (henv : env.Calm) {m : Druid} {c : Cluster}
  (halive : Alive (viewOf m.ns c .persistentVolumeClaim))
  (hstays : m.metadata.deletionTimestamp = none)

include henv halive hstays

theorem idles_of_within {α : Type} {p : Code α} {A : Verb → Kind → String × String → Prop}
    (hp : p.Uses (Request.Within A))
    (hA : ∀ v k key, A v k key → k ∈ .druid :: groupKinds → v = .patch) : Idles env m c p :=
  Triple.ofUses (hp.mono fun _ hr _ hw =>
    ⟨hw.serve henv halive hstays (hr.mono hA), hr.mono hA⟩)

theorem idles_createOrUpdate (hk : k ∈ groupKinds) {isEqualFn : Obj k → Obj k → Bool}
    (hequal : ∀ a b, isEqualFn a b = true) (updaterFn : Obj k → Obj k → Obj k) {obj : Obj k}
    (hobj : Stands m c obj) : Idles env m c (createOrUpdate isEqualFn updaterFn obj) := by
  intro w hw
  obtain ⟨hns, s, hs, hhash⟩ := hobj
  rw [← hw.view hk] at hs
  obtain ⟨prev, hprev, rfl⟩ := Option.map_eq_some_iff.1 hs
  have hanswer : (serve env (.get k obj.ns obj.name) w).1 = .ok prev := by
    have hscope : w.cluster.find? k obj.ns obj.name = some prev := by
      rw [Cluster.find?, Cluster.scope, if_neg (by rintro rfl; simp [groupKinds] at hk), hns]
      exact hprev
    rw [serve_calm henv, perform, hscope]
  have hrests : Rests (.get k obj.ns obj.name) := .ofRead rfl
  have hnext := hw.serve henv halive hstays hrests
  have hcourse := exec_createOrUpdate (h := serve env) isEqualFn updaterFn obj w
  generalize exec (serve env) (createOrUpdate isEqualFn updaterFn obj) w = o at hcourse ⊢
  cases hcourse with
  | getFailed err hget hfound msg => cases hanswer.symm.trans hget
  | created err hget hfound t ht answer hcreate => cases hanswer.symm.trans hget
  | unchanged prev' hget hsame =>
      refine ⟨hnext, fun e he => ?_⟩
      rw [List.mem_singleton.1 he]
      exact hrests
  | updated prev' hget hdiffers t ht answer hupdate =>
      cases hanswer.symm.trans hget
      rcases hdiffers with hdiffers | hdiffers
      · exact absurd hhash.symm hdiffers
      · rw [hequal] at hdiffers
        cases hdiffers

theorem idles_applyObj (hk : k ∈ groupKinds) (updaterFn : Obj k → Obj k → Obj k) {obj : Obj k}
    (hobj : Stands m c obj) : Idles env m c (applyObj updaterFn obj) :=
  (idles_createOrUpdate henv halive hstays hk (fun _ _ => rfl) updaterFn hobj).bindInvariant
    fun _ => Triple.ret fun _ hw => hw

theorem idles_applyOption (hk : k ∈ groupKinds) {obj : Option (Obj k)}
    (hobj : ∀ o ∈ obj, Stands m c o) : Idles env m c (applyOption obj) := by
  cases obj with
  | none => exact Triple.ret fun _ hw => hw
  | some o => exact idles_applyObj henv halive hstays hk noopUpdaterFn (hobj o rfl)

theorem idles_expandIfAsked (g : ServiceGroup) (uniqueStr : String) (hns : drd.ns = m.ns)
    (hsizes : drd.spec.scalePvcSts = true → ∀ s,
      viewOf m.ns c .statefulSet uniqueStr = some s → SizesStand g s.claimTemplates) :
    Idles env m c (expandIfAsked (withDruidPort g.spec) uniqueStr drd) := by
  refine triple_expandIfAsked henv (P := fun sts => SizesStand g sts.body.spec.volumeClaimTemplates)
    (fun r hr w hw => ⟨hw.serve henv halive hstays (.ofRead hr), .ofRead hr⟩)
    (fun hscale w sts hw hfind => hsizes hscale (shown sts) ?_) fun sts pvcList hstand => ?_
  · rw [← hw.view (by decide), ← hns, viewOf]
    exact congrArg (Option.map shown) hfind
  · have huses : (expandClaims (withDruidPort g.spec) sts pvcList).Uses
        (Request.Within patchesClaims) := by
      simp only [expandClaims]
      split_ifs
      · trivial
      · exact uses_expandTemplates_idle sts hstand _
    exact idles_of_within henv halive hstays huses fun _ _ _ h _ => h.1

/-! ### A group -/

theorem idles_applyWorkload (hash : Hash) (commonConfigSHA : String) (hns : drd.ns = m.ns)
    (hobjs : AllStand m c (workloadObjects hash commonConfigSHA drd g)) (hsized : Sized drd c g) :
    Idles env m c (applyWorkload hash commonConfigSHA drd g) := by
  unfold applyWorkload
  by_cases hkind : g.spec.kind = "Deployment"
  · rw [if_pos hkind]
    cases hobj : plannedDeployment hash commonConfigSHA drd g with
    | error e => exact Triple.exit fun _ hw => hw
    | ok obj =>
        have hstands : Stands m c obj := hobjs .deployment (by decide) obj (by
          simp [workloadObjects, hkind, hobj, Except.toOption])
        refine (idles_createOrUpdate henv halive hstays (by decide) (fun _ _ => rfl) _
          hstands).bindInvariant fun status => ?_
        exact idles_of_within henv halive hstays (A := fun _ _ _ => False)
          (uses_afterDeployment _ _ status) fun _ _ _ h => h.elim
  · rw [if_neg hkind]
    have hstands : Stands m c (plannedStatefulSet hash commonConfigSHA drd g) :=
      hobjs .statefulSet (by decide) _ (by simp [workloadObjects, hkind])
    have hasks : (afterServices hash drd g).spec.scalePvcSts = drd.spec.scalePvcSts :=
      ((Shares.refl drd).afterServices hash g).scalePvcSts_eq
    refine (idles_expandIfAsked henv halive hstays g (groupName drd g)
      ((sameIdentity_afterServices hash drd g).ns_eq.trans hns) fun hscale s hs =>
        hsized hkind (hasks ▸ hscale) s (hns ▸ hs)).bindInvariant fun _ => ?_
    refine (idles_createOrUpdate henv halive hstays (by decide) (fun _ _ => rfl) _
      hstands).bindInvariant fun status => ?_
    refine idles_of_within henv halive hstays (uses_afterStatefulSet _ _ _ status)
      fun v k key hdeletes hk => ?_
    -- pods are no objects of a group
    rw [hdeletes.2] at hk
    simp [groupKinds] at hk

theorem idles_applyRest (hash : Hash) (ls : StrMap)
    (hobjs : AllStand m c (restObjects hash ls drd g)) :
    Idles env m c (applyRest hash ls drd g) := by
  refine (idles_applyOption henv halive hstays (by decide) fun o ho =>
    hobjs .ingress (by decide) o (Option.mem_toList.2 ho)).bindInvariant fun _ => ?_
  refine (idles_applyOption henv halive hstays (by decide) fun o ho =>
    hobjs .podDisruptionBudget (by decide) o (Option.mem_toList.2 ho)).bindInvariant fun _ => ?_
  refine (idles_applyOption henv halive hstays (by decide) fun o ho =>
    hobjs .horizontalPodAutoscaler (by decide) o (Option.mem_toList.2 ho)).bindInvariant fun _ => ?_
  exact Triple.forEach fun pvc hpvc => idles_applyObj henv halive hstays (by decide) _
    (hobjs .persistentVolumeClaim (by decide) pvc hpvc)

/-- **A turn of the loop rests.** -/
theorem idles_applyGroup (hash : Hash) (ls : StrMap) (commonConfigSHA : String)
    (hns : l.m.ns = m.ns) (hobjs : AllStand m c (groupObjects hash commonConfigSHA ls l.m g))
    (hsized : Sized l.m c g) : Idles env m c (applyGroup hash ls commonConfigSHA l g) := by
  have hworkload : AllStand m c (workloadObjects hash commonConfigSHA l.m g) := by
    intro k hk obj hobj
    cases k with
    | statefulSet => exact hobjs .statefulSet hk obj hobj
    | deployment => exact hobjs .deployment hk obj hobj
    | _ => cases hobj
  have hrest : AllStand m c (restObjects hash ls l.m g) := by
    intro k hk obj hobj
    cases k <;> first | exact hobjs _ hk obj hobj | cases hobj
  refine (idles_applyObj henv halive hstays (by decide) _
    (hobjs .configMap (by decide) _ List.mem_cons_self)).bindInvariant fun _ => ?_
  refine Triple.bindInvariant (Triple.forEach fun svc hsvc => idles_applyObj henv halive hstays
    (by decide) _ (hobjs .service (by decide) svc hsvc)) fun _ => ?_
  refine (idles_applyWorkload henv halive hstays hash commonConfigSHA hns hworkload
    hsized).bindInvariant fun goOn => ?_
  split_ifs
  · exact (idles_applyRest henv halive hstays hash ls hrest).bindInvariant fun _ =>
      Triple.ret fun _ hw => hw
  · exact Triple.ret fun _ hw => hw

/-- **The loop rests.** -/
theorem idles_loop (hash : Hash) (ls : StrMap) (commonConfigSHA : String)
    {groups : List ServiceGroup} (hns : l.m.ns = m.ns)
    (hobjs : AllStand m c (loopObjects hash commonConfigSHA ls l.m groups))
    (hsized : ∀ g ∈ groups, Sized l.m c g) :
    Idles env m c (iterate (applyGroup hash ls commonConfigSHA) l groups) := by
  induction groups generalizing l with
  | nil => exact Triple.ret fun _ hw => hw
  | cons g groups ih =>
      have hfirst := idles_applyGroup henv halive hstays hash ls commonConfigSHA hns
        (fun k hk obj hobj => hobjs k hk obj (List.mem_append_left _ hobj))
        (hsized g List.mem_cons_self)
      refine (hfirst.ofYields (yields_applyGroup hash ls commonConfigSHA l g)).bindReturns
        (fun _ _ hw => hw) fun x hx => ?_
      cases x with
      | none => exact Triple.ret fun _ hw => hw
      | some l' =>
          obtain ⟨-, rfl⟩ := hx l' rfl
          have hsame := sameIdentity_afterGroup hash commonConfigSHA l.m g
          refine ih (hsame.ns_eq.trans hns)
            (fun k hk obj hobj => hobjs k hk obj (List.mem_append_right _ hobj)) fun g' hg' => ?_
          exact (hsized g' (List.mem_cons_of_mem _ hg')).congr hsame
            ((Shares.refl l.m).afterGroup hash commonConfigSHA g).scalePvcSts_eq

/-! ### The rest of a call -/

/-- The common ConfigMap is made from the files that are stored. -/
theorem returns_applyCommonConfig (hash : Hash) {data files : StrMap}
    (hdata : commonConfigData drd = .ok data)
    (hfiles : files = filesRead c drd.spec.extraCommonConfig data)
    (hobj : Stands m c (plannedCommon hash drd files)) :
    Triple (serve env) (Resting m c) (applyCommonConfig hash drd)
      (Triple.Returns (Resting m c) fun common =>
        common = (commonSHA hash drd files, commonConfigName drd)) fun e => Rests e.req := by
  intro w hw
  obtain ⟨reads, hreads, hcommon⟩ := exec_applyCommonConfig henv.alone hash hdata w
  have hread : ∀ n, extraData env w.cluster n drd.spec.extraCommonConfig data = files := by
    intro n
    rw [hfiles, extraData_served henv.served]
    refine filesRead_congr (fun ref _ => ?_) _
    rw [storedConfig, storedConfig, Cluster.find?, Cluster.find?, hw.stores .configMap (by decide)]
  rw [hashedData, writtenData, hread, hread] at hcommon
  have hmade : Idles env m c (applyMade hash drd files files) :=
    (idles_createOrUpdate henv halive hstays (by decide) (fun _ _ => rfl) _ hobj).bindInvariant
      fun _ => Triple.ret fun _ hw => hw
  have hvalue : (applyMade hash drd files files).Yields fun common =>
      common = (commonSHA hash drd files, commonConfigName drd) :=
        (yields_true _).bind fun _ _ => rfl
  obtain ⟨hres, hsteps⟩ := (hmade.ofYields hvalue) ⟨w.cluster, commonCall drd w⟩
    ⟨hw.stores, hw.claims, hw.resource⟩
  rw [hcommon]
  refine ⟨hres, fun e he => ?_⟩
  rcases List.mem_append.1 he with he | he
  · exact .ofRead (hreads e he)
  · exact hsteps e he

theorem idles_deleteUnusedResources (hk : k ∈ collectedKinds) (hns : drd.ns = m.ns)
    {names : List String} {ls : StrMap}
    (hused : ∀ name s, viewOf m.ns c k name = some s → ls.Matches s.labels → name ∈ names) :
    Idles env m c (deleteUnusedResources k drd names ls) := by
  have hread : Rests (.list k drd.ns ls) := .ofRead rfl
  rw [deleteUnusedResources_eq]
  refine Triple.step (S := sig) (h := serve env) (r := Request.list k drd.ns ls)
    (M := fun (answer : Except Error (List (Obj k))) w => Resting m c w ∧
      ∀ items, answer = .ok items → ∀ o ∈ items, o.name ∈ names) (fun _ _ => hread)
    (fun w hw => ⟨hw.serve henv halive hstays hread, fun items hitems o ho => ?_⟩) fun answer => ?_
  · rw [serve_calm henv, perform] at hitems
    cases hitems
    obtain ⟨s, hs, hlabels⟩ := exists_listed_iff.1 ⟨o, ho, rfl⟩
    rw [hns, hw.view (groupKinds_of_collectedKinds k hk)] at hs
    exact hused o.name s hs hlabels
  · cases answer with
    | error e => exact Triple.ret fun _ hw => hw.1
    | ok items =>
        intro w hw
        have hkept := hw.2 items rfl
        have hidle : ∀ survivorNames, Idles env m c
            (accumulate (dropUnused names) survivorNames items) := by
          clear hw
          induction items with
          | nil => exact fun _ => Triple.ret fun _ hw => hw
          | cons o items ih =>
              rw [List.forall_mem_cons] at hkept
              intro survivorNames
              rw [accumulate_cons, dropUnused, if_pos hkept.1, ret_bind]
              exact ih hkept.2 _
        exact hidle [] w hw.1

/-- **The end of a call rests** where nothing is unused. -/
theorem idles_finishDeploy {ls : StrMap} (hns : l.m.ns = m.ns)
    (horphans : l.m.spec.deleteOrphanPvc = false)
    (hused : ∀ k ∈ collectedKinds, ∀ name s, viewOf m.ns c k name = some s → ls.Matches s.labels →
      name ∈ l.names k) : Idles env m c (finishDeploy ls l) := by
  have hgc : ∀ k ∈ collectedKinds,
      Idles env m c (deleteUnusedResources k l.m (l.names k) ls) :=
    fun k hk => idles_deleteUnusedResources henv halive hstays hk hns (hused k hk)
  have hstatus : ∀ status, Idles env m c (druidClusterStatusPatcher status l.m) := fun status =>
    idles_of_within henv halive hstays (uses_druidClusterStatusPatcher status l.m)
      fun _ _ _ hpatches _ => hpatches.1
  unfold finishDeploy updateStatus
  rw [collectOrphans, if_neg (by simp [horphans]), pure_eq, ret_bind]
  refine (hgc .statefulSet (by decide)).bindInvariant fun _ => ?_
  refine (hgc .deployment (by decide)).bindInvariant fun _ => ?_
  refine (hgc .horizontalPodAutoscaler (by decide)).bindInvariant fun _ => ?_
  refine (hgc .ingress (by decide)).bindInvariant fun _ => ?_
  refine (hgc .podDisruptionBudget (by decide)).bindInvariant fun _ => ?_
  refine (hgc .service (by decide)).bindInvariant fun _ => ?_
  refine (hgc .configMap (by decide)).bindInvariant fun _ => ?_
  refine Triple.bindInvariant (idles_of_within henv halive hstays (A := fun _ _ _ => False)
    (reads_listObjs _ _ _) fun _ _ _ h => h.elim) fun pods => hstatus _

end Programs

/-! ## Settled clusters -/

/-- The cluster holds all that a call generates, and nothing that it collects. -/
structure Settled (hash : Hash) (o : MapOrders) (m : Druid) (c : Cluster) : Prop where
  alive : Alive (viewOf m.ns c .persistentVolumeClaim)
  staying : m.metadata.deletionTimestamp = none
  keeps : m.spec.deleteOrphanPvc = false
  stands : AllStand m c (generated hash o m c)
  sized : ∀ g ∈ getNodeSpecsByOrder o.groups m, Sized m c g
  used : ∀ k ∈ collectedKinds, ∀ name s, viewOf m.ns c k name = some s →
    (makeLabelsForDruid m).Matches s.labels → name ∈ generatedNames hash o m k

section Settled

variable {hash : Hash} {o : MapOrders} {m drd : Druid} {c : Cluster} {files : StrMap} {env : Env}

/-- The loop of a call on the resource, whatever its bookkeeping. -/
theorem Settled.idles_deployLoop (h : Settled hash o m c) (henv : env.Calm) (hdrd : Bookkept m drd)
    (hstands : AllStand m c (callObjects hash o m files)) :
    Idles env m c (deployLoop hash o drd (commonSHA hash drd files, commonConfigName drd)) := by
  obtain ⟨finalizers, version, status, rfl⟩ := hdrd
  have hupdate := (idles_of_within henv h.alive h.staying (uses_updateFinalizers
    (rewritten m finalizers version status)) fun _ _ _ hpatches _ => hpatches.1).ofYields
    (yields_updateFinalizers _)
  refine hupdate.bindReturns (fun _ _ hw => hw) fun updated hupdated => ?_
  obtain ⟨finalizers', rfl⟩ := hupdated
  refine idles_loop henv h.alive h.staying hash _ _ (by rfl) (fun k hk obj hobj => ?_)
    fun g hg => h.sized g hg
  rw [Loop.named_m, loopObjects_withFinalizers, loopObjects_rewritten] at hobj
  exact hstands k hk obj (List.mem_append_right _ hobj)

theorem Settled.idles_finishDeploy (h : Settled hash o m c) (henv : env.Calm)
    (hdrd : Bookkept m drd) {finalizers : List String}
    (hmakes : ∀ g ∈ getNodeSpecsByOrder o.groups drd, MakesWorkload g)
    (hnames : ∀ k ∈ groupKinds, l.names k = (callObjects hash o drd files k).map Object.name)
    (hresource : l.m = withFinalizers (seenAfter hash (commonSHA hash drd files) drd
      (getNodeSpecsByOrder o.groups drd)) finalizers) :
    Idles env m c (finishDeploy (makeLabelsForDruid drd) l) := by
  obtain ⟨finalizers', version, status, rfl⟩ := hdrd
  refine Controller.idles_finishDeploy henv h.alive h.staying ?_ ?_ fun k hk name s hs hlabels => ?_
  · rw [hresource]
    exact (sameIdentity_seenAfter ..).ns_eq
  · obtain ⟨_, _, _, _, _, hshared, -⟩ := shares_seenAfter hash
      (commonSHA hash (rewritten m finalizers' version status) files)
      (rewritten m finalizers' version status)
      (getNodeSpecsByOrder o.groups (rewritten m finalizers' version status))
    rw [hresource, hshared]
    exact h.keeps
  · have hgroup := groupKinds_of_collectedKinds k hk
    rw [hnames k hgroup, callObjects_rewritten, callObjects_names (m := m) hmakes hgroup]
    exact h.used k hk name s hs hlabels

/-- **A call in a settled cluster rests.** -/
theorem Settled.idles (h : Settled hash o m c) (henv : env.Calm) (hdrd : Bookkept m drd) :
    Idles env m c (deployDruidCluster hash o drd) := by
  have hstays : drd.metadata.deletionTimestamp = none := by
    obtain ⟨finalizers, version, status, rfl⟩ := hdrd
    exact h.staying
  rw [deployDruidCluster_eq_thenFinish, deployGroups]
  cases verifyDruidSpec o drd with
  | error e => exact Triple.ret fun _ hw => hw
  | ok u =>
      simp only [hstays, Option.isSome_none, Bool.false_eq_true, if_false]
      rw [bind_assoc]
      cases hdata : commonConfigData drd with
      | error e =>
          intro w hw
          have hnone := applyCommonConfig_no_data (serve env) hdata hash w
          rw [exec_bind_error (congrArg Outcome.res hnone), hnone]
          exact ⟨hw, by simp⟩
      | ok data =>
          have hstands : AllStand m c (callObjects hash o m
              (filesRead c drd.spec.extraCommonConfig data)) := by
            obtain ⟨finalizers, version, status, rfl⟩ := hdrd
            have hdata' : commonConfigData m = .ok data := hdata
            intro k hk obj hobj
            refine h.stands k hk obj ?_
            rw [generated, hdata']
            exact hobj
          have hcommon : Stands m c (plannedCommon hash drd
              (filesRead c drd.spec.extraCommonConfig data)) := by
            obtain ⟨finalizers, version, status, rfl⟩ := hdrd
            exact hstands .configMap (by decide) _ (List.mem_append_left _ List.mem_cons_self)
          refine (returns_applyCommonConfig henv h.alive h.staying hash hdata rfl
            hcommon).bindReturns (fun _ _ hw => hw) fun common hvalue => ?_
          subst hvalue
          refine ((h.idles_deployLoop henv hdrd hstands).ofYields (yields_deployLoop _)).bindReturns
            (fun _ _ hw => hw) fun x hx => ?_
          cases x with
          | none => exact Triple.ret fun _ hw => hw
          | some l =>
              obtain ⟨hmakes, finalizers, hvars⟩ := hx l rfl
              obtain ⟨hnames, hresource⟩ := loop_variables hmakes hvars
              exact h.idles_finishDeploy henv hdrd hmakes hnames hresource

end Settled

end DruidOperator.Controller
