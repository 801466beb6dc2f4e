import DruidOperator.FaultyCalls

/-!
# Calls that are served

Where no request of a call fails and nobody else writes, the only thing that keeps a call of
`deployDruidCluster` from its end is a rolling deploy: the loop stops at a workload that was just
updated, and at one that is not fully deployed. This file shows that a call which is stopped has
made a workload stand that did not stand before, if those that are stored are deployed when it
starts.

* `Advanced` — a workload that did not stand stands now.
* `GoesOn`, `LoopsOn` — what the workload of a group and the loop come to.
* `completes_or_stops` — a call gets to its end, or ends with the loop.
* `Deployable.advances` — it gets to its end or makes one more workload stand.
-/

namespace DruidOperator.Controller

open Interaction Prog Kube Runs

variable {k : Kind} {obj : Obj k} {hash : Hash} {drd : Druid} {l : Loop}

/-! ## Workloads that did not stand -/

/-- A wanted workload that did not stand in `c` stands in `c'`. -/
def Advanced {m : Druid} (D : Wanted m) (c c' : Cluster) : Prop :=
  ∃ k, (k = .statefulSet ∨ k = .deployment) ∧ ∃ obj ∈ D.objs k, ¬ Stands m c obj ∧ Stands m c' obj

theorem groupKinds_of_workload (hk : k = .statefulSet ∨ k = .deployment) : k ∈ groupKinds := by
  rcases hk with rfl | rfl <;> decide

/-! ## Calls that are served -/

/-- Every stored workload of the resource is fully deployed. -/
def Ready (m : Druid) (c : Cluster) : Prop :=
  ∀ g ∈ m.spec.nodes.items, ∀ obj,
    (c.store (workloadKind g.spec)).find? (m.ns, groupName m g) = some obj →
      (fullyDeployed (workloadKind g.spec) obj).1 = true

section Served

variable {m : Druid} {D : Wanted m} {c : Cluster} {env : Env} (henv : env.Calm)
  (hstays : m.metadata.deletionTimestamp = none)

/-- The object stands, in a cluster that is made from `c`. -/
def BuiltWith (D : Wanted m) (c : Cluster) {k : Kind} (obj : Obj k) (w : World) : Prop :=
  Building D c w ∧ Stands m w.cluster obj

include henv hstays

theorem builtWith_triple {α : Type} {p : Code α} (hk : k ∈ groupKinds) (hobj : obj ∈ D.objs k)
    (hp : p.Uses (Builds D)) :
    Triple (serve env) (BuiltWith D c obj) p (fun _ => BuiltWith D c obj) fun _ => True := by
  refine Triple.ofUses (hp.mono fun r hr w hw => ⟨⟨hw.1.serve henv.alone hstays hr, ?_⟩, trivial⟩)
  rw [serve_calm henv]
  exact hw.2.grown hk hobj (hr.grown env.clock hk (hw.1.alive k hk))

/-- **Applying a wanted object** succeeds, and it stands afterwards. It is updated only where it did
not stand from the start. -/
theorem applied_createOrUpdate (hk : k ∈ groupKinds) {isEqualFn : Obj k → Obj k → Bool}
    (hequal : ∀ a b, isEqualFn a b = true) (hobj : obj ∈ D.objs k) :
    Triple (serve env) (Building D c) (createOrUpdate isEqualFn (updaterOf k) obj)
      (fun x w => BuiltWith D c obj w ∧ ∃ status, x = .ok status ∧
        (status = .resourceUpdated → ¬ Stands m c obj)) fun _ => True := by
  intro w hw
  refine ⟨?_, fun _ _ => trivial⟩
  have hns := D.ns k hk obj hobj
  have hclass : k ≠ .storageClass := fun heq => absurd (heq ▸ hk) (by decide)
  have hafter := (Building.triple (c := c) henv.alone hstays
    (builds_createOrUpdate hk isEqualFn hobj) w hw).1
  obtain ⟨status, hres, happlied⟩ := createOrUpdate_applied (w := w) henv.alone hclass isEqualFn
    updaterOf_key updaterOf_version obj (henv.served _) (henv.served _)
  have hplaced := placed_of_applied hns (hw.alive k hk) happlied
  refine ⟨⟨hafter, hns, ?_⟩, status, hres, fun hupdated hstood => ?_⟩
  · generalize viewOf m.ns (exec (serve env) (createOrUpdate isEqualFn (updaterOf k) obj)
      w).state.cluster k = v' at hplaced
    cases hplaced with
    | sent => exact ⟨_, Function.update_self .., rfl⟩
    | kept s hs hhash => exact ⟨s, hs, hhash⟩
  · subst hupdated
    generalize (exec (serve env) (createOrUpdate isEqualFn (updaterOf k) obj) w).state.cluster = c'
      at happlied
    cases happlied with
    | updated prev hstored hhash =>
        obtain ⟨-, s, hs, hs'⟩ := hstood.grown hk hobj (hw.views k hk)
        have hview : viewOf m.ns w.cluster k obj.name = some (shown prev) := by
          rw [viewOf, ← hns]
          exact congrArg (Option.map shown) hstored
        obtain rfl : shown prev = s := Option.some.inj (hview.symm.trans hs)
        rcases hhash with hne | hfalse
        · exact hne hs'.symm
        · rw [hequal] at hfalse
          cases hfalse

theorem sure_applyObj (hk : k ∈ groupKinds) (hobj : obj ∈ D.objs k) :
    Triple (serve env) (Building D c) (applyObj (updaterOf k) obj)
      (fun x w => Building D c w ∧ ∃ a, x = .ok a) fun _ => True := by
  refine Triple.bindSure ((applied_createOrUpdate henv hstays hk (fun _ _ => rfl) hobj).conseq
    (fun _ hw => hw) (fun x w hx => ?_) fun _ he => he) fun _ => Triple.ret fun w hw => ⟨hw, _, rfl⟩
  obtain ⟨hw, status, rfl, -⟩ := hx
  exact ⟨hw.1, status, rfl⟩

theorem sure_applyOption (hk : k ∈ groupKinds) (hupdater : updaterOf k = noopUpdaterFn)
    {obj : Option (Obj k)} (hobj : ∀ o ∈ obj, o ∈ D.objs k) :
    Triple (serve env) (Building D c) (applyOption obj)
      (fun x w => Building D c w ∧ ∃ a, x = .ok a) fun _ => True := by
  cases obj with
  | none => exact Triple.ret fun w hw => ⟨hw, _, rfl⟩
  | some o =>
      rw [applyOption, ← hupdater]
      exact sure_applyObj henv hstays hk (hobj o rfl)

theorem sure_forEach (hk : k ∈ groupKinds) {updaterFn : Obj k → Obj k → Obj k}
    (hupdater : updaterOf k = updaterFn) {os : List (Obj k)} (hos : ∀ o ∈ os, o ∈ D.objs k) :
    Triple (serve env) (Building D c) (forEach (applyObj updaterFn) os)
      (fun x w => Building D c w ∧ ∃ a, x = .ok a) fun _ => True := by
  subst hupdater
  induction os with
  | nil => exact Triple.ret fun w hw => ⟨hw, _, rfl⟩
  | cons o os ih =>
      exact (sure_applyObj henv hstays hk (hos o List.mem_cons_self)).bindSure fun _ =>
        ih fun o' ho' => hos o' (List.mem_cons_of_mem _ ho')

theorem sure_applyRest {ls : StrMap} {g : ServiceGroup}
    (hobjs : D.Has (restObjects hash ls drd g)) :
    Triple (serve env) (Building D c) (applyRest hash ls drd g)
      (fun x w => Building D c w ∧ ∃ a, x = .ok a) fun _ => True := by
  refine (sure_applyOption henv hstays (by decide) rfl fun o ho => ?_).bindSure fun _ => ?_
  · exact hobjs .ingress (by decide) o (Option.mem_toList.2 ho)
  refine (sure_applyOption henv hstays (by decide) rfl fun o ho => ?_).bindSure fun _ => ?_
  · exact hobjs .podDisruptionBudget (by decide) o (Option.mem_toList.2 ho)
  refine (sure_applyOption henv hstays (by decide) rfl fun o ho => ?_).bindSure fun _ => ?_
  · exact hobjs .horizontalPodAutoscaler (by decide) o (Option.mem_toList.2 ho)
  · exact sure_forEach henv hstays (by decide) rfl
      fun pvc hpvc => hobjs .persistentVolumeClaim (by decide) pvc hpvc

/-! ### The workload of a group -/

/-- The loop goes on, or one more workload stands. -/
def GoesOn (D : Wanted m) (c : Cluster) (x : Except Exit Bool) (w : World) : Prop :=
  Building D c w ∧ (x = .ok true ∨ Advanced D c w.cluster)

omit henv hstays in
theorem BuiltWith.advanced (hk : k = .statefulSet ∨ k = .deployment) (hobj : obj ∈ D.objs k)
    {w : World} (hw : BuiltWith D c obj w) (hnot : ¬ Stands m c obj) (x : Except Exit Bool) :
    GoesOn D c x w :=
  ⟨hw.1, .inr ⟨k, hk, obj, hobj, hnot, hw.2⟩⟩

theorem sure_execCheckCrashStatus (hk : k ∈ groupKinds) (hobj : obj ∈ D.objs k)
    (nodeSpec : DruidNodeSpec) (drd : Druid) (uniqueStr : String) :
    Triple (serve env) (BuiltWith D c obj) (execCheckCrashStatus nodeSpec drd uniqueStr)
      (fun x w => BuiltWith D c obj w ∧ ∃ a, x = .ok a) fun _ => True := by
  intro w hw
  have huses : (execCheckCrashStatus nodeSpec drd uniqueStr).Uses (Builds D) := by
    refine builds_of_within (uses_execCheckCrashStatus _ _ _) ?_
    rintro v k key ⟨rfl, rfl⟩
    exact .inr ⟨rfl, by decide, by decide⟩
  refine ⟨⟨(builtWith_triple henv hstays hk hobj huses w hw).1, ?_⟩, fun _ _ => trivial⟩
  unfold execCheckCrashStatus
  split_ifs
  · have hreturns : ∃ x, (exec (serve env) ((checkCrashStatus nodeSpec drd uniqueStr).attempt :
        Code (Except Exit Unit)) w).res = .ok x := exec_attempt_returns _ _ _
    obtain ⟨x, hx⟩ := hreturns
    rw [exec_bind_ok hx]
    exact ⟨_, rfl⟩
  · exact ⟨_, rfl⟩

theorem goesOn_thenCheckCrash (hk : k ∈ groupKinds) (hobj : obj ∈ D.objs k)
    (nodeSpec : DruidNodeSpec) (uniqueStr : String) (drd : Druid) :
    Triple (serve env) (BuiltWith D c obj) (thenCheckCrash nodeSpec uniqueStr drd) (GoesOn D c)
      fun _ => True :=
  (sure_execCheckCrashStatus henv hstays hk hobj nodeSpec drd uniqueStr).bindSure fun _ =>
    Triple.ret fun _ hw => ⟨hw.1, .inl rfl⟩

omit hstays in
/-- A workload that is not deployed was not stored when the call started. -/
theorem goesOn_whenDeployed (hk : k = .statefulSet ∨ k = .deployment) (hobj : obj ∈ D.objs k)
    {uniqueStr : String} (hkey : obj.key = (drd.ns, uniqueStr))
    (hready : ∀ stored, (c.store k).find? obj.key = some stored → (fullyDeployed k stored).1 = true)
    {rest : Code Bool}
    (hrest : Triple (serve env) (BuiltWith D c obj) rest (GoesOn D c) fun _ => True) :
    Triple (serve env) (BuiltWith D c obj) (whenDeployed k uniqueStr drd rest) (GoesOn D c)
      fun _ => True := by
  intro w hw
  refine ⟨?_, fun _ _ => trivial⟩
  obtain ⟨hns, s, hs, hhash⟩ := hw.2
  obtain ⟨stored, hstored, -⟩ := Option.map_eq_some_iff.1 hs
  have hkey' : obj.key = (m.ns, obj.name) := by rw [← hns]
  rw [← hkey'] at hstored
  have hget : (perform env.clock (.get k drd.ns uniqueStr) w.cluster) =
      (.ok stored, w.cluster) := by
    have hfind : w.cluster.find? k drd.ns uniqueStr = some stored := by
      rw [Cluster.find?, Cluster.scope, if_neg (by rcases hk with rfl | rfl <;> decide), ← hkey]
      exact hstored
    simp only [perform, hfind]
  unfold whenDeployed isObjFullyDeployed getObj
  simp only [call_bind, ret_bind, exec_call, pure_eq]
  rw [serve_calm henv, hget]
  dsimp only
  have hw' : BuiltWith D c obj ⟨w.cluster, w.calls + 1⟩ := ⟨hw.1.recount _, hw.2⟩
  cases hdeployed : fullyDeployed k stored with
  | mk done err =>
      cases done with
      | true =>
          rw [ret_bind]
          exact (hrest _ hw').1
      | false =>
          suffices hnot : ¬ Stands m c obj by
            cases err <;> exact hw'.advanced hk hobj hnot _
          intro hstood
          obtain ⟨-, s₀, hs₀, -⟩ := hstood
          obtain ⟨stored₀, hstored₀, -⟩ := Option.map_eq_some_iff.1 hs₀
          rw [← hkey'] at hstored₀
          have hbefore : deployedIn c k obj.key = true :=
            deployedIn_eq_true.2 ⟨stored₀, hstored₀, hready stored₀ hstored₀⟩
          obtain ⟨stored', hstored', hnow⟩ := deployedIn_eq_true.1
            (hw.1.deployed k (groupKinds_of_workload hk) obj hobj hbefore)
          obtain rfl : stored = stored' := Option.some.inj (hstored.symm.trans hstored')
          rw [hdeployed] at hnow
          cases hnow

theorem goesOn_afterStatefulSet {obj : Obj .statefulSet} (hobj : obj ∈ D.objs .statefulSet)
    {uniqueStr : String} (hkey : obj.key = (drd.ns, uniqueStr))
    (hready : ∀ stored, (c.store .statefulSet).find? obj.key = some stored →
      (fullyDeployed .statefulSet stored).1 = true) (nodeSpec : DruidNodeSpec)
    {status : DruidNodeStatus} (hstatus : status = .resourceUpdated → ¬ Stands m c obj) :
    Triple (serve env) (BuiltWith D c obj) (afterStatefulSet nodeSpec uniqueStr drd status)
      (GoesOn D c) fun _ => True := by
  have hcrash := goesOn_thenCheckCrash (c := c) henv hstays (by decide) hobj nodeSpec uniqueStr drd
  unfold afterStatefulSet
  split_ifs with hroll hupdated hgeneration
  · exact Triple.ret fun w hw => hw.advanced (.inl rfl) hobj (hstatus hupdated) _
  · exact (sure_execCheckCrashStatus henv hstays (by decide) hobj nodeSpec drd uniqueStr).bindSure
      fun _ => goesOn_whenDeployed henv (.inl rfl) hobj hkey hready hcrash
  · exact (sure_execCheckCrashStatus henv hstays (by decide) hobj nodeSpec drd uniqueStr).bindSure
      fun _ => hcrash
  · exact hcrash

omit hstays in
theorem goesOn_afterDeployment {obj : Obj .deployment} (hobj : obj ∈ D.objs .deployment)
    {uniqueStr : String} (hkey : obj.key = (drd.ns, uniqueStr))
    (hready : ∀ stored, (c.store .deployment).find? obj.key = some stored →
      (fullyDeployed .deployment stored).1 = true) {status : DruidNodeStatus}
    (hstatus : status = .resourceUpdated → ¬ Stands m c obj) :
    Triple (serve env) (BuiltWith D c obj) (afterDeployment uniqueStr drd status)
      (GoesOn D c) fun _ => True := by
  have hgo : Triple (serve env) (BuiltWith D c obj) (.ret true : Code Bool) (GoesOn D c)
      fun _ => True :=
    Triple.ret fun w hw => ⟨hw.1, .inl rfl⟩
  unfold afterDeployment
  split_ifs with hroll hupdated hgeneration
  · exact Triple.ret fun w hw => hw.advanced (.inr rfl) hobj (hstatus hupdated) _
  · exact goesOn_whenDeployed henv (.inr rfl) hobj hkey hready hgo
  · exact hgo
  · exact hgo

/-- **The workload of a group.** -/
theorem goesOn_applyWorkload {commonConfigSHA : String} {g : ServiceGroup} (hsame : drd.key = m.key)
    (hsizes : drd.spec.scalePvcSts = false) (hmakes : MakesWorkload g)
    (hobjs : D.Has (workloadObjects hash commonConfigSHA drd g)) (hready : Ready m c)
    (hg : g ∈ m.spec.nodes.items) :
    Triple (serve env) (Building D c) (applyWorkload hash commonConfigSHA drd g) (GoesOn D c)
      fun _ => True := by
  have hns : drd.ns = m.ns := congrArg Prod.fst hsame
  have hname : groupName drd g = groupName m g := groupName_congr (congrArg Prod.snd hsame) g
  have hafter : (afterGroup hash commonConfigSHA drd g).ns = drd.ns :=
    (sameIdentity_afterGroup hash commonConfigSHA drd g).ns_eq
  -- the workload is the one that is looked for
  have hstored : ∀ {k : Kind} {obj : Obj k}, PlannedWorkload hash commonConfigSHA drd g k obj →
      ∀ stored, (c.store k).find? obj.key = some stored → (fullyDeployed k stored).1 = true := by
    intro k obj hplanned stored hfind
    obtain rfl := hplanned.kind_eq
    rw [hplanned.key_eq, hns, hname] at hfind
    exact hready g hg stored hfind
  have happly : ∀ {k : Kind} {isEqualFn : Obj k → Obj k → Bool} {obj : Obj k}
      {after : DruidNodeStatus → Code Bool}, (hk : k ∈ groupKinds) →
      (∀ a b, isEqualFn a b = true) → updaterOf k = noopUpdaterFn → obj ∈ D.objs k →
      (∀ status, (status = .resourceUpdated → ¬ Stands m c obj) →
        Triple (serve env) (BuiltWith D c obj) (after status) (GoesOn D c) fun _ => True) →
      Triple (serve env) (Building D c) (createOrUpdate isEqualFn noopUpdaterFn obj >>= after)
        (GoesOn D c) fun _ => True := by
    intro k isEqualFn obj after hk hequal hupdater hobj hrest
    rw [← hupdater]
    refine Triple.bind (M := fun status w => BuiltWith D c obj w ∧
      (status = .resourceUpdated → ¬ Stands m c obj)) ?_
      fun status w hw => hrest status hw.2 w hw.1
    refine (applied_createOrUpdate henv hstays hk hequal hobj).conseq (fun _ hw => hw)
      (fun x w hx => ?_) fun _ he => he
    obtain ⟨hw, status, rfl, hstatus⟩ := hx
    exact ⟨hw, hstatus⟩
  unfold applyWorkload
  by_cases hkind : g.spec.kind = "Deployment"
  · rw [if_pos hkind]
    cases hplanned : plannedDeployment hash commonConfigSHA drd g with
    | error e =>
        obtain ⟨ru, hru⟩ := (makesWorkload_iff hkind).1 hmakes
        simp [plannedDeployment, makeDeployment, makeDeploymentSpec, hru, Except.map] at hplanned
    | ok obj =>
        have hmem : obj ∈ workloadObjects hash commonConfigSHA drd g .deployment := by
          simp [workloadObjects, hkind, hplanned, Except.toOption]
        have hobj := hobjs .deployment (by decide) obj hmem
        have hwork := plannedWorkload_of_mem hmem
        refine happly (by decide) (fun _ _ => rfl) rfl hobj fun status hstatus => ?_
        exact goesOn_afterDeployment henv hobj (by rw [hafter]; exact hwork.key_eq) (hstored hwork)
          hstatus
  · rw [if_neg hkind, expandIfAsked_eq hsizes, ret_bind]
    have hmem : plannedStatefulSet hash commonConfigSHA drd g ∈
        workloadObjects hash commonConfigSHA drd g .statefulSet := by
      simp [workloadObjects, hkind]
    have hobj := hobjs .statefulSet (by decide) _ hmem
    have hwork := plannedWorkload_of_mem hmem
    refine happly (by decide) (fun _ _ => rfl) rfl hobj fun status hstatus => ?_
    exact goesOn_afterStatefulSet henv hstays hobj (by rw [hafter]; exact hwork.key_eq)
      (hstored hwork) _ hstatus

/-! ### The loop -/

/-- The loop gets to its end, or one more workload stands. -/
def LoopsOn (D : Wanted m) (c : Cluster) (x : Except Exit (Option Loop)) (w : World) : Prop :=
  Building D c w ∧ ((∃ l, x = .ok (some l)) ∨ Advanced D c w.cluster)

theorem loopsOn_applyGroup {ls : StrMap} {commonConfigSHA : String} {g : ServiceGroup}
    (hsame : l.m.key = m.key) (hsizes : l.m.spec.scalePvcSts = false) (hmakes : MakesWorkload g)
    (hobjs : D.Has (groupObjects hash commonConfigSHA ls l.m g)) (hready : Ready m c)
    (hg : g ∈ m.spec.nodes.items) :
    Triple (serve env) (Building D c) (applyGroup hash ls commonConfigSHA l g) (LoopsOn D c)
      fun _ => True := by
  refine (sure_applyObj henv hstays (k := .configMap) (by decide)
    (hobjs .configMap (by decide) _ List.mem_cons_self)).bindSure fun _ => ?_
  refine (sure_forEach henv hstays (k := .service) (by decide) rfl
    fun svc hsvc => hobjs .service (by decide) svc hsvc).bindSure fun _ => ?_
  refine Triple.bind (M := fun goOn => GoesOn D c (.ok goOn)) ?_ fun goOn => ?_
  · refine (goesOn_applyWorkload henv hstays hsame hsizes hmakes hobjs.workload hready hg).conseq
      (fun _ hw => hw) (fun x w hx => ?_) fun _ he => he
    cases x with
    | ok goOn => exact hx
    | error e => exact ⟨hx.1, .inr (hx.2.resolve_left (by simp))⟩
  · cases goOn with
    | true =>
        intro w hw
        refine (Triple.bindSure (sure_applyRest (c := c) henv hstays hobjs.rest)
          fun _ => Triple.ret fun w hw => ⟨hw, .inl ⟨_, rfl⟩⟩) w hw.1
    | false =>
        refine Triple.ret fun w hw => ⟨hw.1, .inr (hw.2.resolve_left ?_)⟩
        intro heq
        cases heq

theorem loopsOn_loop {ls : StrMap} {commonConfigSHA : String} {groups : List ServiceGroup}
    (hsame : l.m.key = m.key) (hsizes : l.m.spec.scalePvcSts = false)
    (hmakes : ∀ g ∈ groups, MakesWorkload g)
    (hobjs : D.Has (loopObjects hash commonConfigSHA ls l.m groups)) (hready : Ready m c)
    (hgroups : ∀ g ∈ groups, g ∈ m.spec.nodes.items) :
    Triple (serve env) (Building D c) (iterate (applyGroup hash ls commonConfigSHA) l groups)
      (LoopsOn D c) fun _ => True := by
  induction groups generalizing l with
  | nil => exact Triple.ret fun w hw => ⟨hw, .inl ⟨_, rfl⟩⟩
  | cons g groups ih =>
      have hturn := loopsOn_applyGroup (c := c) henv hstays hsame hsizes
        (hmakes g List.mem_cons_self) hobjs.cons.1 hready (hgroups g List.mem_cons_self)
      refine Triple.bind (M := fun x w => LoopsOn D c (.ok x) w ∧
        ∀ l', x = some l' → l' = nextLoop hash commonConfigSHA ls l g) ?_ fun x => ?_
      · intro w hw
        obtain ⟨hpost, hsteps⟩ := hturn w hw
        refine ⟨?_, hsteps⟩
        cases hres : (exec (serve env) (applyGroup hash ls commonConfigSHA l g) w).res with
        | ok x =>
            rw [hres] at hpost
            exact ⟨hpost, fun l' heq =>
              ((yields_applyGroup hash ls commonConfigSHA l g).result hres l' heq).2⟩
        | error e =>
            rw [hres] at hpost
            exact ⟨hpost.1, .inr (hpost.2.resolve_left (by simp))⟩
      · cases x with
        | none =>
            refine Triple.ret fun w hw => ⟨hw.1.1, .inr (hw.1.2.resolve_left ?_)⟩
            simp
        | some l' =>
            intro w hw
            obtain rfl := hw.2 l' rfl
            have hid := sameIdentity_afterGroup hash commonConfigSHA l.m g
            refine ih ?_ ?_ (fun g' hg' => hmakes g' (List.mem_cons_of_mem _ hg')) hobjs.cons.2
              (fun g' hg' => hgroups g' (List.mem_cons_of_mem _ hg')) w hw.1.1
            · exact (Prod.ext hid.ns_eq hid.name_eq).trans hsame
            · exact ((Shares.refl l.m).afterGroup hash commonConfigSHA g).scalePvcSts_eq.trans
                hsizes

theorem sure_updateFinalizers (hkey : drd.key = m.key) :
    Triple (serve env) (Building D c) (updateFinalizers drd)
      (fun x w => Building D c w ∧ ∃ finalizers, x = .ok (withFinalizers drd finalizers))
      fun _ => True := by
  intro w hw
  refine ⟨⟨(Building.triple henv.alone hstays (builds_updateFinalizers drd) w hw).1, ?_⟩,
    fun _ _ => trivial⟩
  unfold updateFinalizers
  split_ifs
  · obtain ⟨drd', hread, -⟩ := hw.resource
    have hstored : (w.cluster.store .druid).find? drd.key = some drd' := hkey ▸ hread
    refine ⟨desiredFinalizers drd, ?_⟩
    rw [patchFinalizers, call_bind, exec_call, serve_calm henv, perform,
      Cluster.answered_of_find? hstored, ret_bind]
    rfl
  · exact ⟨drd.metadata.finalizers, rfl⟩

end Served

/-! ## Whole calls -/

section Calls

variable {hash : Hash} {o o' : MapOrders} {m drd : Druid} {data files : StrMap} {env : Env}
  {w : World}

theorem Deployable.loopsOn_deployLoop (hm : Deployable hash o m data) (henv : env.Calm)
    (hdrd : Bookkept m drd) (ho : SameObjects o o' m) {c : Cluster} (hready : Ready m c) :
    Triple (serve env) (Building (hm.wanted files) c)
      (deployLoop hash o' drd (commonSHA hash drd files, commonConfigName drd))
      (LoopsOn (hm.wanted files) c) fun _ => True := by
  have hhas : (hm.wanted files).Has (callObjects hash o' drd files) := hm.has hdrd ho
  refine Triple.bind (M := fun updated w => Building (hm.wanted files) c w ∧
    ∃ finalizers, updated = withFinalizers drd finalizers) ?_ fun updated w hw => ?_
  · refine (sure_updateFinalizers henv hm.staying hdrd.key_eq).conseq (fun _ hw => hw)
      (fun x w hx => ?_) fun _ he => he
    obtain ⟨hw, finalizers, rfl⟩ := hx
    exact ⟨hw, finalizers, rfl⟩
  · obtain ⟨hw, finalizers, rfl⟩ := hw
    have hd := hm.bookkept hdrd o'
    refine loopsOn_loop henv hm.staying hdrd.key_eq hd.sizes hd.makes ?_ hready ?_ w hw
    · intro k hk obj hobj
      rw [Loop.named_m, loopObjects_withFinalizers] at hobj
      exact hhas k hk obj (List.mem_append_right _ hobj)
    · intro g hg
      rw [← hdrd.spec_eq]
      exact (mem_getNodeSpecsByOrder.1 hg).1

/-- What follows the loop does not fail where claims are kept. -/
theorem finishDeploy_returns (henv : env.Calm) (hkeeps : l.m.spec.deleteOrphanPvc = false)
    (ls : StrMap) (w : World) : (exec (serve env) (finishDeploy ls l) w).res = .ok () := by
  unfold finishDeploy collectOrphans
  rw [if_neg (by simp [hkeeps]), pure_eq, ret_bind]
  obtain ⟨w₁, -, steps, -, hexec⟩ := updateStatus_leads henv ls l w
  rw [hexec]
  unfold druidClusterStatusPatcher
  split_ifs <;> rfl

theorem keeps_of_loop {common : String × String}
    (hl : (exec (serve env) (deployLoop hash o m common) w).res = .ok (some l)) :
    l.m.spec.deleteOrphanPvc = m.spec.deleteOrphanPvc := by
  obtain ⟨-, finalizers, rfl⟩ := (yields_deployLoop common).result hl l rfl
  obtain ⟨_, _, _, _, _, hshared, -⟩ := shares_seenAfter hash common.1 m
    (getNodeSpecsByOrder o.groups m)
  rw [foldl_nextLoop_m, Loop.named_m, seenAfter_withFinalizers, hshared]
  rfl

/-- **A call that is served** gets to its end, or ends with the loop. -/
theorem completes_or_stops (henv : env.Calm) (hverify : verifyDruidSpec o m = .ok ())
    (hstays : m.metadata.deletionTimestamp = none) (hkeeps : m.spec.deleteOrphanPvc = false) :
    completes hash o m env w = true ∨
      afterCall hash o m env w = (exec (serve env) (deployGroups hash o m) w).state ∧
        ∀ l, (exec (serve env) (deployGroups hash o m) w).res ≠ .ok (some l) := by
  cases hres : (exec (serve env) (deployGroups hash o m) w).res with
  | error e =>
      refine .inr ⟨?_, by simp⟩
      rw [afterCall, deployDruidCluster_eq_thenFinish, exec_bind_error hres]
  | ok x =>
      cases x with
      | none =>
          refine .inr ⟨?_, by simp⟩
          rw [afterCall, deployDruidCluster_eq_thenFinish, exec_bind_ok hres]
          rfl
      | some l =>
          refine .inl ?_
          have hl := hres
          rw [deployGroups_eq hash hverify hstays] at hl
          obtain ⟨common, -, hl, -⟩ := exec_bind_returned hl
          have hfinish := finishDeploy_returns henv ((keeps_of_loop hl).trans hkeeps)
            (makeLabelsForDruid m) (afterLoop hash o m env w)
          rw [completes, exec_thenFinish hres, hres, hfinish]

/-- **A call that is served, where the workloads are deployed**, gets to its end or makes one more
workload stand. -/
theorem Deployable.advances (hm : Deployable hash o m data) (henv : env.Calm)
    (hdrd : Bookkept m drd)
    (ho : SameObjects o o' m) (hfiles : files = filesRead w.cluster m.spec.extraCommonConfig data)
    (hw : Building (hm.wanted files) w.cluster w) (hready : Ready m w.cluster) :
    completes hash o' drd env w = true ∨
      Advanced (hm.wanted files) w.cluster (afterCall hash o' drd env w).cluster := by
  have hd := hm.bookkept hdrd o'
  rcases completes_or_stops (w := w) henv hd.verified hd.staying hd.keeps with
    hdone | ⟨hafter, hnot⟩
  · exact .inl hdone
  refine .inr ?_
  rw [← hdrd.spec_eq] at hfiles
  obtain ⟨hmade, -⟩ := applyCommonConfig_calm hash henv hd.data (m := drd)
    (by rw [show drd.ns = m.ns from congrArg Prod.fst hdrd.key_eq]; exact hw.alive) hfiles
  -- the common ConfigMap is applied first
  have hcommon : Building (hm.wanted files) w.cluster
      (exec (serve env) (applyCommonConfig hash drd) w).state := by
    rw [(exec_applyCommonConfig_files henv.alone (.inl henv.served) hd.data hash hfiles).2]
    have huses : (applyMade hash drd files files).Uses (Builds (hm.wanted files)) := by
      refine (builds_createOrUpdate (k := .configMap) (by decide) _ ?_).bind fun _ => trivial
      exact hm.has hdrd ho .configMap (by decide) _ (List.mem_append_left _ List.mem_cons_self)
    exact (Building.triple henv.alone hm.staying huses _ (hw.recount _)).1
  obtain ⟨hloop, -⟩ := hm.loopsOn_deployLoop henv hdrd ho hready _ hcommon
  rw [hafter]
  rw [deployGroups_eq hash hd.verified hd.staying, exec_bind_ok hmade] at hnot ⊢
  exact hloop.2.resolve_left fun ⟨l, hl⟩ => hnot l hl

end Calls

end DruidOperator.Controller
