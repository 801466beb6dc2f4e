import DruidOperator.Footprint

/-!
# The rolling-deploy gate

With a rolling deploy of a resource that is not new, the loop over the node groups gets past a
group only if the workload of the group was not updated and was found fully deployed. The results
of this file hold for every handler, that is for every state of the cluster and every outcome of
every call, as long as the resource in hand keeps its rolling deploy: the patch of the finalizers
decodes what is stored by then into it.
-/

namespace DruidOperator.Controller

open Interaction Prog Kube

variable {σ : Type} {h : Handler sig σ}

variable {α : Type} {p : Code α} {k : Kind} {s : σ} {m : Druid} {hash : Hash}
    {commonConfigSHA : String} {g : ServiceGroup} {l : Loop} {groups : List ServiceGroup}

/-- The request updates a StatefulSet or a Deployment. -/
def updatesWorkload (r : Request) : Bool :=
  match r.write with
  | some (.update, .statefulSet, _) => true
  | some (.update, .deployment, _) => true
  | _ => false

/-- The number of updates of workloads among the steps. -/
def workloadUpdates (steps : List (Step sig σ)) : ℕ := steps.countP fun e => updatesWorkload e.req

@[simp] theorem workloadUpdates_nil : workloadUpdates ([] : List (Step sig σ)) = 0 := rfl

@[simp] theorem workloadUpdates_append (es es' : List (Step sig σ)) :
    workloadUpdates (es ++ es') = workloadUpdates es + workloadUpdates es' := List.countP_append

theorem workloadUpdates_eq_zero {A : Verb → Kind → String × String → Prop}
    (hp : p.Uses (Request.Within A))
    (hA : ∀ k key, A .update k key → k ≠ .statefulSet ∧ k ≠ .deployment) (s : σ) :
    workloadUpdates (exec h p s).steps = 0 := by
  rw [workloadUpdates, List.countP_eq_zero]
  intro e he hup
  have hw := hp.steps he
  unfold updatesWorkload at hup
  split at hup
  · next hwrite => exact (hA _ _ (hw _ _ _ hwrite)).1 rfl
  · next hwrite => exact (hA _ _ (hw _ _ _ hwrite)).2 rfl
  · cases hup

/-- `isObjFullyDeployed` was called on the workload of the group and returned true. -/
def ReportedDeployed (h : Handler sig σ) (m : Druid) (g : ServiceGroup)
    (steps : List (Step sig σ)) : Prop :=
  ∃ s err, (exec h (isObjFullyDeployed (workloadKind g.spec) (groupName m g) m) s).res =
      .ok (true, err) ∧
    (exec h (isObjFullyDeployed (workloadKind g.spec) (groupName m g) m) s).steps <:+: steps

/-- The workload of the group was not updated, and was found fully deployed. -/
structure Passed (h : Handler sig σ) (m : Druid) (g : ServiceGroup) (steps : List (Step sig σ)) :
    Prop where
  notUpdated : workloadUpdates steps = 0
  deployed : ReportedDeployed h m g steps

/-! ## One workload -/

theorem createOrUpdate_updates (isEqualFn : Obj k → Obj k → Bool)
    (updaterFn : Obj k → Obj k → Obj k) (obj : Obj k) (s : σ) :
    workloadUpdates (exec h (createOrUpdate isEqualFn updaterFn obj) s).steps ≤ 1 ∧
      ∀ status, (exec h (createOrUpdate isEqualFn updaterFn obj) s).res = .ok status →
        status ≠ .resourceUpdated →
        workloadUpdates (exec h (createOrUpdate isEqualFn updaterFn obj) s).steps = 0 := by
  have hcourse := exec_createOrUpdate (h := h) isEqualFn updaterFn obj s
  generalize exec h (createOrUpdate isEqualFn updaterFn obj) s = o at hcourse
  cases hcourse with
  | getFailed err hget hfound msg => simp [workloadUpdates, updatesWorkload, Request.write]
  | created err hget hfound t ht answer hcreate =>
      simp [workloadUpdates, updatesWorkload, Request.write]
  | unchanged prev hget hhash => simp [workloadUpdates, updatesWorkload, Request.write]
  | updated prev hget hhash t ht answer hupdate =>
      refine ⟨?_, fun status hstatus hne => ?_⟩
      · exact (List.countP_cons_of_neg (by simp [updatesWorkload, Request.write])).trans_le
          List.countP_le_length
      · cases answer with
        | ok u => cases hstatus; exact absurd rfl hne
        | error e => cases hstatus

theorem whenDeployed_true {uniqueStr : String} {drd : Druid} {rest : Code Bool}
    (hres : (exec h (whenDeployed k uniqueStr drd rest) s).res = .ok true) :
    (∃ err, (exec h (isObjFullyDeployed k uniqueStr drd) s).res = .ok (true, err)) ∧
      (exec h (isObjFullyDeployed k uniqueStr drd) s).steps <+:
        (exec h (whenDeployed k uniqueStr drd rest) s).steps := by
  unfold whenDeployed at hres ⊢
  cases hdone : (exec h (isObjFullyDeployed k uniqueStr drd) s).res with
  | error e => simp [exec_bind_error hdone] at hres
  | ok done =>
      rw [exec_bind_ok hdone] at hres ⊢
      obtain ⟨done, err⟩ := done
      cases done with
      | true => exact ⟨⟨err, rfl⟩, List.prefix_append _ _⟩
      | false => cases err <;> cases hres

/-- The gate after a workload that was just applied: it opens only for one that was not updated
and is fully deployed. -/
theorem afterDeployment_true {uniqueStr : String} {status : DruidNodeStatus}
    (hroll : m.spec.rollingDeploy = true) (hgen : 1 < m.metadata.generation)
    (hres : (exec h (afterDeployment uniqueStr m status) s).res = .ok true) :
    status ≠ .resourceUpdated ∧
      ∃ t err, (exec h (isObjFullyDeployed .deployment uniqueStr m) t).res = .ok (true, err) ∧
        (exec h (isObjFullyDeployed .deployment uniqueStr m) t).steps <:+:
          (exec h (afterDeployment uniqueStr m status) s).steps := by
  unfold afterDeployment at hres ⊢
  rw [if_pos hroll] at hres ⊢
  split_ifs at hres ⊢ with hstatus
  · cases hres
  · obtain ⟨⟨err, hdone⟩, hsteps⟩ := whenDeployed_true hres
    exact ⟨hstatus, s, err, hdone, hsteps.isInfix⟩

theorem afterStatefulSet_true {nodeSpec : DruidNodeSpec} {uniqueStr : String}
    {status : DruidNodeStatus} (hroll : m.spec.rollingDeploy = true)
    (hgen : 1 < m.metadata.generation)
    (hres : (exec h (afterStatefulSet nodeSpec uniqueStr m status) s).res = .ok true) :
    status ≠ .resourceUpdated ∧
      ∃ t err, (exec h (isObjFullyDeployed .statefulSet uniqueStr m) t).res = .ok (true, err) ∧
        (exec h (isObjFullyDeployed .statefulSet uniqueStr m) t).steps <:+:
          (exec h (afterStatefulSet nodeSpec uniqueStr m status) s).steps := by
  unfold afterStatefulSet at hres ⊢
  rw [if_pos hroll] at hres ⊢
  split_ifs at hres ⊢ with hstatus
  · cases hres
  · cases hcheck : (exec h (execCheckCrashStatus nodeSpec m uniqueStr) s).res with
    | error e => simp [exec_bind_error hcheck] at hres
    | ok u =>
        rw [exec_bind_ok hcheck] at hres ⊢
        obtain ⟨⟨err, hdone⟩, hsteps⟩ := whenDeployed_true hres
        exact ⟨hstatus, _, err, hdone, hsteps.isInfix.trans (List.suffix_append _ _).isInfix⟩

theorem workloadUpdates_of_notUpdate {A : Verb → Kind → String × String → Prop}
    (hp : p.Uses (Request.Within A)) (hA : ∀ k key, ¬ A .update k key) (s : σ) :
    workloadUpdates (exec h p s).steps = 0 :=
  workloadUpdates_eq_zero hp (fun k key hup => absurd hup (hA k key)) s

theorem not_expands_update (k : Kind) (key : String × String) : ¬ expands .update k key := by
  simp [expands]

theorem not_deletesKind_update (k k' : Kind) (key : String × String) :
    ¬ deletesKind k .update k' key := by
  simp [deletesKind]

/-- Apply a workload and decide whether to go on: at most one update, and none where the loop
goes on past a gate that does not open for updated workloads. -/
theorem apply_then_gate {isEqualFn : Obj k → Obj k → Bool} {updaterFn : Obj k → Obj k → Obj k}
    {obj : Obj k} {gate : DruidNodeStatus → Code Bool}
    (hgate : ∀ status, (gate status).Uses (Request.Within (deletesKind .pod))) (s : σ) :
    workloadUpdates (exec h (createOrUpdate isEqualFn updaterFn obj >>= gate) s).steps ≤ 1 ∧
      ((exec h (createOrUpdate isEqualFn updaterFn obj >>= gate) s).res = .ok true →
        ∃ status t, (exec h (gate status) t).res = .ok true ∧
          (exec h (gate status) t).steps <:+
            (exec h (createOrUpdate isEqualFn updaterFn obj >>= gate) s).steps ∧
          (status ≠ .resourceUpdated →
            workloadUpdates (exec h (createOrUpdate isEqualFn updaterFn obj >>= gate) s).steps =
              0)) := by
  obtain ⟨hle, hzero⟩ := createOrUpdate_updates (h := h) isEqualFn updaterFn obj s
  cases hres : (exec h (createOrUpdate isEqualFn updaterFn obj) s).res with
  | error e =>
      rw [exec_bind_error hres]
      exact ⟨hle, fun hok => by cases hok⟩
  | ok status =>
      rw [exec_bind_ok hres]
      have hnone := workloadUpdates_of_notUpdate (h := h) (hgate status)
        (not_deletesKind_update .pod) (exec h (createOrUpdate isEqualFn updaterFn obj) s).state
      rw [workloadUpdates_append, hnone]
      refine ⟨by simpa using hle, fun hok => ⟨status, _, hok, List.suffix_append _ _,
        fun hne => ?_⟩⟩
      simpa using hzero status hres hne

theorem isObjFullyDeployed_congr {drd drd' : Druid} (hns : drd.ns = drd'.ns) (k : Kind)
    (uniqueStr : String) :
    isObjFullyDeployed k uniqueStr drd = isObjFullyDeployed k uniqueStr drd' := by
  unfold isObjFullyDeployed
  rw [hns]

theorem afterGroup_rollingDeploy (hash : Hash) (commonConfigSHA : String) (m : Druid)
    (g : ServiceGroup) :
    (afterGroup hash commonConfigSHA m g).spec.rollingDeploy = m.spec.rollingDeploy := by
  unfold afterGroup druidAfterWorkload afterServices druidAfterServices
  split_ifs <;> rfl

theorem applyWorkload_updates (hash : Hash) (commonConfigSHA : String) (m : Druid)
    (g : ServiceGroup) (s : σ) :
    workloadUpdates (exec h (applyWorkload hash commonConfigSHA m g) s).steps ≤ 1 := by
  unfold applyWorkload
  split_ifs
  · split
    · simp
    · exact (apply_then_gate (fun status => uses_afterDeployment _ _ _) s).1
  · have hexp := fun t => workloadUpdates_of_notUpdate (h := h)
      (uses_expandIfAsked (withDruidPort g.spec) (groupName m g) (afterServices hash m g))
      not_expands_update t
    cases hres : (exec h (expandIfAsked (withDruidPort g.spec) (groupName m g)
        (afterServices hash m g)) s).res with
    | error e =>
        rw [exec_bind_error hres, hexp]
        exact Nat.zero_le 1
    | ok u =>
        rw [exec_bind_ok hres, workloadUpdates_append, hexp, Nat.zero_add]
        exact (apply_then_gate (fun status => uses_afterStatefulSet _ _ _ _) _).1

theorem applyWorkload_passed (hroll : m.spec.rollingDeploy = true)
    (hgen : 1 < m.metadata.generation)
    (hres : (exec h (applyWorkload hash commonConfigSHA m g) s).res = .ok true) :
    Passed h m g (exec h (applyWorkload hash commonConfigSHA m g) s).steps := by
  have hid := sameIdentity_afterGroup hash commonConfigSHA m g
  have hroll' : (afterGroup hash commonConfigSHA m g).spec.rollingDeploy = true :=
    (afterGroup_rollingDeploy ..).trans hroll
  have hgen' : 1 < (afterGroup hash commonConfigSHA m g).metadata.generation := by
    rwa [hid.metadata]
  unfold applyWorkload at hres ⊢
  by_cases hkind : g.spec.kind = "Deployment"
  · have hk : workloadKind g.spec = .deployment := if_pos hkind
    rw [if_pos hkind] at hres ⊢
    cases hplan : plannedDeployment hash commonConfigSHA m g with
    | error e => simp [hplan] at hres
    | ok obj =>
        rw [hplan] at hres
        obtain ⟨status, t, hok, hsuffix, hzero⟩ :=
          (apply_then_gate (fun status => uses_afterDeployment _ _ _) s).2 hres
        obtain ⟨hne, t', err, hdone, hwithin⟩ := afterDeployment_true hroll' hgen' hok
        rw [isObjFullyDeployed_congr hid.ns_eq] at hdone hwithin
        exact ⟨hzero hne, t', err, by rw [hk]; exact hdone,
          by rw [hk]; exact hwithin.trans hsuffix.isInfix⟩
  · have hk : workloadKind g.spec = .statefulSet := if_neg hkind
    rw [if_neg hkind] at hres ⊢
    cases hexp : (exec h (expandIfAsked (withDruidPort g.spec) (groupName m g)
        (afterServices hash m g)) s).res with
    | error e => simp [exec_bind_error hexp] at hres
    | ok u =>
        rw [exec_bind_ok hexp] at hres ⊢
        obtain ⟨status, t, hok, hsuffix, hzero⟩ :=
          (apply_then_gate (fun status => uses_afterStatefulSet _ _ _ _) _).2 hres
        obtain ⟨hne, t', err, hdone, hwithin⟩ := afterStatefulSet_true hroll' hgen' hok
        rw [isObjFullyDeployed_congr hid.ns_eq] at hdone hwithin
        refine ⟨?_, t', err, by rw [hk]; exact hdone, ?_⟩
        · rw [workloadUpdates_append, workloadUpdates_of_notUpdate (h := h)
            (uses_expandIfAsked _ _ _) not_expands_update, hzero hne]
        · rw [hk]
          exact (hwithin.trans hsuffix.isInfix).trans (List.suffix_append _ _).isInfix

/-! ## One group -/

theorem workloadUpdates_applyObj {updaterFn : Obj k → Obj k → Obj k}
    (hkey : ∀ prev curr, (updaterFn prev curr).key = curr.key) (obj : Obj k)
    (hk : k ≠ .statefulSet ∧ k ≠ .deployment) :
    (applyObj updaterFn obj).Uses (Request.Within fun v k' _ =>
      v = .update → k' ≠ .statefulSet ∧ k' ≠ .deployment) :=
  (uses_applyObj hkey obj).mono fun r hr => hr.mono (by
    rintro v k' key' ⟨-, rfl, -⟩ -
    exact hk)

/-- What comes before the workload of a group. -/
def applyBefore (hash : Hash) (m : Druid) (g : ServiceGroup) : Code Unit :=
  applyObj noopUpdaterFn (plannedConfig hash m g) >>= fun _ =>
    forEach (applyObj keepClusterIP) (plannedServices hash m g)

theorem applyGroup_eq (hash : Hash) (ls : StrMap) (commonConfigSHA : String) (l : Loop)
    (g : ServiceGroup) :
    applyGroup hash ls commonConfigSHA l g =
      applyBefore hash l.m g >>= fun _ =>
        applyWorkload hash commonConfigSHA l.m g >>= fun goOn =>
          if goOn then
            applyRest hash ls l.m g >>= fun _ => .ret (some (nextLoop hash commonConfigSHA ls l g))
          else .ret none := by
  rw [applyBefore, bind_assoc]
  rfl

theorem applyBefore_updates (hash : Hash) (m : Druid) (g : ServiceGroup) (s : σ) :
    workloadUpdates (exec h (applyBefore hash m g) s).steps = 0 := by
  have hconfig := workloadUpdates_applyObj (fun _ _ => rfl) (plannedConfig hash m g) (by decide)
  refine workloadUpdates_eq_zero (hconfig.bind fun _ => ?_) (fun k key hup => hup rfl) s
  exact Uses.forEach fun svc _ => workloadUpdates_applyObj keepClusterIP_key svc (by decide)

theorem applyRest_updates (hash : Hash) (ls : StrMap) (m : Druid) (g : ServiceGroup) (s : σ) :
    workloadUpdates (exec h (applyRest hash ls m g) s).steps = 0 := by
  refine workloadUpdates_eq_zero (uses_applyRest hash ls m g) ?_ s
  rintro k key ⟨-, rfl | rfl | rfl | rfl⟩ <;> decide

/-- The part after the workload adds no update, and keeps an early end an early end. -/
theorem afterWorkload_exec (hash : Hash) (ls : StrMap) (m : Druid) (g : ServiceGroup) (l' : Loop)
    (goOn : Bool) (s : σ) :
    workloadUpdates (exec h (if goOn then applyRest hash ls m g >>= fun _ => .ret (some l')
        else .ret none : Code (Option Loop)) s).steps = 0 ∧
      ∀ x, (exec h (if goOn then applyRest hash ls m g >>= fun _ => .ret (some l')
        else .ret none : Code (Option Loop)) s).res = .ok (some x) → goOn = true ∧ x = l' := by
  cases goOn with
  | false => simp
  | true =>
      have hzero := applyRest_updates (h := h) hash ls m g s
      cases hres : (exec h (applyRest hash ls m g) s).res with
      | error e => simp [exec_bind_error hres, hzero]
      | ok u =>
          simp only [if_true, exec_bind_ok hres, exec_ret, List.append_nil, hzero, true_and]
          rintro x hx
          cases hx
          rfl

theorem applyGroup_updates (hash : Hash) (ls : StrMap) (commonConfigSHA : String) (l : Loop)
    (g : ServiceGroup) (s : σ) :
    workloadUpdates (exec h (applyGroup hash ls commonConfigSHA l g) s).steps ≤ 1 := by
  rw [applyGroup_eq]
  cases hbefore : (exec h (applyBefore hash l.m g) s).res with
  | error e =>
      rw [exec_bind_error hbefore, applyBefore_updates]
      exact Nat.zero_le 1
  | ok u =>
      rw [exec_bind_ok hbefore, workloadUpdates_append, applyBefore_updates, Nat.zero_add]
      generalize (exec h (applyBefore hash l.m g) s).state = t
      have hle := applyWorkload_updates (h := h) hash commonConfigSHA l.m g t
      cases hwork : (exec h (applyWorkload hash commonConfigSHA l.m g) t).res with
      | error e => rwa [exec_bind_error hwork]
      | ok goOn =>
          rw [exec_bind_ok hwork, workloadUpdates_append, (afterWorkload_exec ..).1]
          exact hle

theorem ReportedDeployed.mono {es es' : List (Step sig σ)} (hd : ReportedDeployed h m g es)
    (hsub : es <:+: es') : ReportedDeployed h m g es' :=
  have ⟨s, err, hres, hwithin⟩ := hd
  ⟨s, err, hres, hwithin.trans hsub⟩

theorem applyGroup_passed {ls : StrMap} {l' : Loop} (hroll : l.m.spec.rollingDeploy = true)
    (hgen : 1 < l.m.metadata.generation)
    (hres : (exec h (applyGroup hash ls commonConfigSHA l g) s).res = .ok (some l')) :
    l' = nextLoop hash commonConfigSHA ls l g ∧
      Passed h l.m g (exec h (applyGroup hash ls commonConfigSHA l g) s).steps := by
  rw [applyGroup_eq] at hres ⊢
  cases hbefore : (exec h (applyBefore hash l.m g) s).res with
  | error e => simp [exec_bind_error hbefore] at hres
  | ok u =>
      rw [exec_bind_ok hbefore] at hres ⊢
      have hzero := applyBefore_updates (h := h) hash l.m g s
      generalize (exec h (applyBefore hash l.m g) s).state = t at hres ⊢
      cases hwork : (exec h (applyWorkload hash commonConfigSHA l.m g) t).res with
      | error e => simp [exec_bind_error hwork] at hres
      | ok goOn =>
          rw [exec_bind_ok hwork] at hres ⊢
          obtain ⟨hzero', hgo⟩ := afterWorkload_exec (h := h) hash ls l.m g
            (nextLoop hash commonConfigSHA ls l g) goOn
            (exec h (applyWorkload hash commonConfigSHA l.m g) t).state
          obtain ⟨rfl, hl'⟩ := hgo l' hres
          have hpassed := applyWorkload_passed hroll hgen hwork
          refine ⟨hl', ?_, hpassed.deployed.mono ?_⟩
          · show workloadUpdates (_ ++ (_ ++ _)) = 0
            rw [workloadUpdates_append, workloadUpdates_append, hzero, hzero', hpassed.notUpdated]
          · exact ((List.prefix_append _ _).isInfix).trans (List.suffix_append _ _).isInfix

/-! ## The whole call -/

/-- The loop over the node groups, applying the plan. -/
theorem iterate_deployNode (hash : Hash) (ls : StrMap) (commonConfigSHA : String) :
    deployNode hash ls commonConfigSHA = applyGroup hash ls commonConfigSHA :=
  funext fun l => funext fun g => deployNode_eq hash ls commonConfigSHA l g

/-- What the loop never changes in the resource. -/
structure Rolls (m : Druid) (l : Loop) : Prop where
  ns : l.m.ns = m.ns
  name : l.m.name = m.name
  rollingDeploy : l.m.spec.rollingDeploy = true
  generation : 1 < l.m.metadata.generation

theorem Rolls.next {ls : StrMap} (hl : Rolls m l) (g : ServiceGroup) :
    Rolls m (nextLoop hash commonConfigSHA ls l g) := by
  have hid := sameIdentity_afterGroup hash commonConfigSHA l.m g
  refine ⟨hid.ns_eq.trans hl.ns, hid.name_eq.trans hl.name, ?_, ?_⟩
  · exact (afterGroup_rollingDeploy ..).trans hl.rollingDeploy
  · show 1 < (afterGroup hash commonConfigSHA l.m g).metadata.generation
    rw [hid.metadata]
    exact hl.generation

theorem Passed.congr {m' : Druid} {es : List (Step sig σ)} (hp : Passed h m g es)
    (hns : m.ns = m'.ns) (hname : m.name = m'.name) : Passed h m' g es := by
  obtain ⟨hzero, s, err, hres, hwithin⟩ := hp
  rw [isObjFullyDeployed_congr hns, groupName_congr hname] at hres hwithin
  exact ⟨hzero, s, err, hres, hwithin⟩

/-- A turn of the loop is a run of its body on the group. -/
def IsTurn (h : Handler sig σ) (hash : Hash) (m : Druid) (g : ServiceGroup)
    (steps : List (Step sig σ)) : Prop :=
  ∃ commonConfigSHA l s, l.m.ns = m.ns ∧ l.m.name = m.name ∧
    steps = (exec h (deployNode hash (makeLabelsForDruid m) commonConfigSHA l g) s).steps

/-- What may be written before the loop. -/
def writtenBefore (m : Druid) : Verb → Kind → String × String → Prop :=
  fun v k key => (k = .configMap ∧ key = (m.ns, commonConfigName m)) ∨ k = .druid ∨
    (m.metadata.deletionTimestamp.isSome ∧ v = .delete)

/-- What one reconcile with a gate looks like: the steps before the loop, one run of steps for
every group the loop got to, and the steps after it. -/
structure Gated (h : Handler sig σ) (hash : Hash) (m : Druid) (groups : List ServiceGroup)
    (steps before : List (Step sig σ)) (turns : List (List (Step sig σ)))
    (after : List (Step sig σ)) : Prop where
  steps_eq : steps = before ++ turns.flatten ++ after
  /-- Before the loop nothing is written but the common ConfigMap and the resource, unless the
  resource is being deleted; then there is no loop. -/
  before_writes : ∀ e ∈ before, e.req.Within (writtenBefore m)
  deleting : m.metadata.deletionTimestamp.isSome → turns = [] ∧ after = []
  /-- The turns are those of the first groups, in their order. -/
  turn : ∀ (k : ℕ) (hk : k < turns.length), ∃ g, groups[k]? = some g ∧ IsTurn h hash m g turns[k]
  /-- A group has a turn only if all groups before it were passed. -/
  gate : ∀ (j k : ℕ) (hk : k < turns.length) (hj : j < k), ∃ g, groups[j]? = some g ∧
    Passed h m g turns[j]
  /-- What comes after the loop comes only if no workload was updated and all groups were
  passed. -/
  finish : after ≠ [] → workloadUpdates steps = 0 ∧ turns.length = groups.length ∧
    ∀ (j : ℕ) (hj : j < turns.length), ∃ g, groups[j]? = some g ∧ Passed h m g turns[j]
  after_eq : after = [] ∨ ∃ l s, after = (exec h (finishDeploy (makeLabelsForDruid m) l) s).steps
  /-- At most one workload is updated. -/
  updates : workloadUpdates steps ≤ 1

theorem finishDeploy_updates (ls : StrMap) (l : Loop) (s : σ) :
    workloadUpdates (exec h (finishDeploy ls l) s).steps = 0 := by
  have hclaims : (collectOrphans l.m).Uses (Request.Within fun v k _ =>
      v = .update → k ≠ .statefulSet ∧ k ≠ .deployment) := by
    refine (uses_collectOrphans l.m).mono fun r hr => hr.mono ?_
    rintro v k key ⟨-, rfl⟩ -
    decide
  have hstatus : (updateStatus ls l).Uses (Request.Within fun v k _ =>
      v = .update → k ≠ .statefulSet ∧ k ≠ .deployment) := by
    refine (uses_updateStatus ls l).mono fun r hr => hr.mono ?_
    rintro v k key (⟨rfl, -⟩ | ⟨rfl, -⟩) hv <;> cases hv
  exact workloadUpdates_eq_zero (hclaims.bind fun _ => hstatus) (fun k key hup => hup rfl) s

theorem workloadUpdates_flatten_eq_zero {turns : List (List (Step sig σ))}
    (hzero : ∀ (i : ℕ) (hi : i < turns.length), workloadUpdates turns[i] = 0) :
    workloadUpdates turns.flatten = 0 := by
  induction turns with
  | nil => rfl
  | cons es turns ih =>
      have hes : workloadUpdates es = 0 := hzero 0 (by simp)
      rw [List.flatten_cons, workloadUpdates_append, hes, Nat.zero_add]
      exact ih fun i hi => hzero (i + 1) (by simpa using hi)

theorem workloadUpdates_flatten {turns : List (List (Step sig σ))}
    (hle : ∀ (i : ℕ) (hi : i < turns.length), workloadUpdates turns[i] ≤ 1)
    (hzero : ∀ (i : ℕ) (hi : i + 1 < turns.length), workloadUpdates turns[i] = 0) :
    workloadUpdates turns.flatten ≤ 1 := by
  induction turns with
  | nil => exact Nat.zero_le 1
  | cons es turns ih =>
      rw [List.flatten_cons, workloadUpdates_append]
      cases turns with
      | nil => simpa using hle 0 (by simp)
      | cons es' turns =>
          have hes : workloadUpdates es = 0 := hzero 0 (by simp)
          rw [hes, Nat.zero_add]
          exact ih (fun i hi => hle (i + 1) (by simpa using hi))
            (fun i hi => hzero (i + 1) (by simpa using hi))

/-- The loop and what follows it. -/
def loopThenFinish (hash : Hash) (ls : StrMap) (commonConfigSHA : String) (l : Loop)
    (groups : List ServiceGroup) : Code Unit := do
  match ← iterate (deployNode hash ls commonConfigSHA) l groups with
  | none => return ()
  | some l => finishDeploy ls l

theorem loop_turn (hl : Rolls m l) {i : ℕ}
    (hi : i < (turns h (deployNode hash (makeLabelsForDruid m) commonConfigSHA) l groups
      s).length) :
    ∃ g, groups[i]? = some g ∧
      IsTurn h hash m g
        (turns h (deployNode hash (makeLabelsForDruid m) commonConfigSHA) l groups s)[i].steps ∧
      workloadUpdates
        (turns h (deployNode hash (makeLabelsForDruid m) commonConfigSHA) l groups s)[i].steps ≤ 1 ∧
      ∀ l', (turns h (deployNode hash (makeLabelsForDruid m) commonConfigSHA) l groups s)[i].res =
          .ok (some l') → Passed h m g
        (turns h (deployNode hash (makeLabelsForDruid m) commonConfigSHA) l groups s)[i].steps := by
  refine turns_forall (I := Rolls m) (R := fun g o => IsTurn h hash m g o.steps ∧
    workloadUpdates o.steps ≤ 1 ∧ ∀ l', o.res = .ok (some l') → Passed h m g o.steps) ?_ ?_ hl hi
  · intro l g s hl
    refine ⟨⟨commonConfigSHA, l, s, hl.ns, hl.name, rfl⟩, ?_, fun l' hres => ?_⟩
    · rw [deployNode_eq]
      exact applyGroup_updates ..
    · rw [deployNode_eq] at hres ⊢
      exact (applyGroup_passed hl.rollingDeploy hl.generation hres).2.congr hl.ns hl.name
  · intro l g s l' hl hres
    rw [deployNode_eq] at hres
    rw [(applyGroup_passed hl.rollingDeploy hl.generation hres).1]
    exact hl.next g

theorem gated_loop (hash : Hash) (commonConfigSHA : String) (groups : List ServiceGroup)
    (hl : Rolls m l) (hdel : m.metadata.deletionTimestamp.isSome = false) (s : σ) :
    ∃ turns after, Gated h hash m groups
      (exec h (loopThenFinish hash (makeLabelsForDruid m) commonConfigSHA l groups) s).steps
      [] turns after := by
  set f := deployNode hash (makeLabelsForDruid m) commonConfigSHA with hf
  have hturn := fun i (hi : i < (turns h f l groups s).length) => loop_turn hl hi
  -- A turn that is followed by another one let the loop go on.
  have hpassed : ∀ i, ∀ hi : i + 1 < (turns h f l groups s).length, ∃ g, groups[i]? = some g ∧
      Passed h m g (turns h f l groups s)[i].steps := by
    intro i hi
    obtain ⟨g, hg, -, -, hpass⟩ := hturn i (Nat.lt_of_succ_lt hi)
    obtain ⟨l', hl'⟩ := turns_continued hi
    exact ⟨g, hg, hpass l' hl'⟩
  have hupdates : workloadUpdates ((turns h f l groups s).map Outcome.steps).flatten ≤ 1 := by
    refine workloadUpdates_flatten (fun i hi => ?_) (fun i hi => ?_)
    · rw [List.getElem_map]
      obtain ⟨g, -, -, hle, -⟩ := hturn i (by simpa using hi)
      exact hle
    · rw [List.getElem_map]
      obtain ⟨g, -, hpass⟩ := hpassed i (by simpa using hi)
      exact hpass.notUpdated
  -- Whatever follows the loop, it comes only after a loop that passed every group.
  have hall : ∀ after : List (Step sig σ), workloadUpdates after = 0 →
      (after ≠ [] → ∃ l', (exec h (iterate f l groups) s).res = .ok (some l')) →
      (after = [] ∨ ∃ l s, after = (exec h (finishDeploy (makeLabelsForDruid m) l) s).steps) →
      (exec h (loopThenFinish hash (makeLabelsForDruid m) commonConfigSHA l groups) s).steps =
        ((turns h f l groups s).map Outcome.steps).flatten ++ after →
      Gated h hash m groups
        (exec h (loopThenFinish hash (makeLabelsForDruid m) commonConfigSHA l groups) s).steps
        [] ((turns h f l groups s).map Outcome.steps) after := by
    intro after hzero hdone hafter hsteps
    refine ⟨by simpa using hsteps, fun e he => (by cases he), by simp [hdel], ?_, ?_,
      ?_, hafter, ?_⟩
    · intro k hk
      obtain ⟨g, hg, hrun, -, -⟩ := hturn k (by simpa using hk)
      exact ⟨g, hg, by simpa using hrun⟩
    · intro j k hk hj
      obtain ⟨g, hg, hpass⟩ := hpassed j (Nat.lt_of_le_of_lt hj (by simpa using hk))
      exact ⟨g, hg, by simpa using hpass⟩
    · intro hne
      obtain ⟨l', hl'⟩ := hdone hne
      obtain ⟨hlength, hgone⟩ := turns_of_done hl'
      have hgate : ∀ j, ∀ hj : j < (turns h f l groups s).length, ∃ g, groups[j]? = some g ∧
          Passed h m g (turns h f l groups s)[j].steps := by
        intro j hj
        obtain ⟨g, hg, -, -, hpass⟩ := hturn j hj
        obtain ⟨c, hc⟩ := hgone _ (List.getElem_mem hj)
        exact ⟨g, hg, hpass c hc⟩
      refine ⟨?_, by simpa using hlength, fun j hj => ?_⟩
      · rw [hsteps, workloadUpdates_append, hzero, workloadUpdates_flatten_eq_zero]
        intro i hi
        obtain ⟨g, -, hpass⟩ := hgate i (by simpa using hi)
        simpa using hpass.notUpdated
      · obtain ⟨g, hg, hpass⟩ := hgate j (by simpa using hj)
        exact ⟨g, hg, by simpa using hpass⟩
    · rw [hsteps, workloadUpdates_append, hzero]
      exact hupdates
  have hiter := exec_iterate_steps (h := h) (f := f) l groups s
  cases hres : (exec h (iterate f l groups) s).res with
  | error e =>
      refine ⟨_, [], hall [] rfl (fun hne => absurd rfl hne) (.inl rfl) ?_⟩
      rw [loopThenFinish, exec_bind_error hres, hiter, List.append_nil]
  | ok x =>
      cases x with
      | none =>
          refine ⟨_, [], hall [] rfl (fun hne => absurd rfl hne) (.inl rfl) ?_⟩
          rw [loopThenFinish, exec_bind_ok hres, ← hiter]
          rfl
      | some l' =>
          have hfinish : (exec h (loopThenFinish hash (makeLabelsForDruid m) commonConfigSHA l
              groups) s).steps = ((turns h f l groups s).map Outcome.steps).flatten ++
              (exec h (finishDeploy (makeLabelsForDruid m) l')
                (exec h (iterate f l groups) s).state).steps := by
            rw [loopThenFinish, exec_bind_ok hres, ← hiter]
          exact ⟨_, _, hall _ (finishDeploy_updates ..) (fun _ => ⟨l', hres⟩)
            (.inr ⟨l', _, rfl⟩) hfinish⟩

theorem Gated.prepend {steps before after : List (Step sig σ)} {turns : List (List (Step sig σ))}
    (hg : Gated h hash m groups steps before turns after) {es : List (Step sig σ)}
    (hes : ∀ e ∈ es, e.req.Within (writtenBefore m)) (hzero : workloadUpdates es = 0) :
    Gated h hash m groups (es ++ steps) (es ++ before) turns after where
  steps_eq := by rw [hg.steps_eq]; simp only [List.append_assoc]
  before_writes e he := (List.mem_append.1 he).elim (hes e) (hg.before_writes e)
  deleting := hg.deleting
  turn := hg.turn
  gate := hg.gate
  finish hne := by
    rw [workloadUpdates_append, hzero, Nat.zero_add]
    exact hg.finish hne
  after_eq := hg.after_eq
  updates := by rw [workloadUpdates_append, hzero, Nat.zero_add]; exact hg.updates

theorem not_writtenBefore_workload (k : Kind) (key : String × String)
    (hw : writtenBefore m .update k key) : k ≠ .statefulSet ∧ k ≠ .deployment := by
  rcases hw with ⟨rfl, -⟩ | rfl | ⟨-, hv⟩
  · decide
  · decide
  · cases hv

theorem gated_before (hp : p.Uses (Request.Within (writtenBefore m))) (s : σ) :
    Gated h hash m groups (exec h p s).steps (exec h p s).steps [] [] where
  steps_eq := by simp
  before_writes := fun e he => hp.steps he
  deleting := fun _ => ⟨rfl, rfl⟩
  turn := fun k hk => absurd hk (Nat.not_lt_zero k)
  gate := fun j k hk => absurd hk (Nat.not_lt_zero k)
  finish := fun hne => absurd rfl hne
  after_eq := .inl rfl
  updates := by
    rw [workloadUpdates_eq_zero hp not_writtenBefore_workload]
    exact Nat.zero_le 1

theorem gated_bind {f : α → Code Unit} (hp : p.Uses (Request.Within (writtenBefore m)))
    (hf : ∀ a, (exec h p s).res = .ok a → ∃ before turns after,
      Gated h hash m groups (exec h (f a) (exec h p s).state).steps before turns after) :
    ∃ before turns after, Gated h hash m groups (exec h (p >>= f) s).steps before turns after := by
  cases hres : (exec h p s).res with
  | error e =>
      rw [exec_bind_error hres]
      exact ⟨_, _, _, gated_before hp s⟩
  | ok a =>
      rw [exec_bind_ok hres]
      obtain ⟨before, turns, after, hg⟩ := hf a hres
      exact ⟨_, turns, after, hg.prepend (fun e he => hp.steps he)
        (workloadUpdates_eq_zero hp not_writtenBefore_workload s)⟩

theorem deployNodes_eq (hash : Hash) (o : MapOrders) (ls : StrMap)
    (commonConfigSHA commonName : String) (m : Druid) (decoding : Decoding) :
    deployNodes hash o ls commonConfigSHA commonName m decoding =
      updateFinalizers m decoding >>= fun updated => loopThenFinish hash ls commonConfigSHA
        (Loop.named ⟨updated, fun _ => []⟩ .configMap [commonName])
        (getNodeSpecsByOrder o.groups m) := rfl

theorem yields_updateFinalizers (m : Druid) :
    (updateFinalizers m).Yields fun updated => ∃ finalizers, updated =
      withFinalizers m finalizers := by
  unfold updateFinalizers
  split_ifs
  · exact (yields_true _).bind fun _ _ => (yields_true _).bind fun _ _ => ⟨_, rfl⟩
  · exact ⟨m.metadata.finalizers, rfl⟩

/-- Whatever is decoded, the resource in hand is the one that was read. -/
theorem yields_updateFinalizers_key (m : Druid) (decoding : Decoding) :
    (updateFinalizers m decoding).Yields fun updated => updated.key = m.key := by
  unfold updateFinalizers
  split_ifs
  · exact (yields_true _).bind fun _ _ => (yields_true _).bind fun _ _ => decoding.key_eq _ _
  · rfl

/-- A rolling deploy of a resource that is not new. -/
def Rolling (m : Druid) : Prop := m.spec.rollingDeploy = true ∧ 1 < m.metadata.generation

/-- What the API server answers to the patch of the finalizers leaves a rolling deploy in hand. -/
def StillRolling (m : Druid) (decoding : Decoding) : (r : Request) → Response r → Prop
  | .patchFinalizers _ finalizers, .ok answer =>
      Rolling (decoding.into (withFinalizers m finalizers) answer)
  | _, _ => True

theorem rolling_updateFinalizers {updated : Druid} {decoding : Decoding} (hm : Rolling m)
    (hanswer : ∀ e ∈ (exec h (updateFinalizers m decoding) s).steps,
      StillRolling m decoding e.req e.resp)
    (hres : (exec h (updateFinalizers m decoding) s).res = .ok updated) : Rolling updated := by
  unfold updateFinalizers patchFinalizers at hanswer hres
  split_ifs at hanswer hres
  · simp only [call_bind, ret_bind, exec_call] at hanswer hres
    have hstill := hanswer _ List.mem_cons_self
    cases hpatch : (h (.patchFinalizers m (desiredFinalizers m)) s).1 with
    | error e =>
        rw [hpatch] at hres
        cases hres
    | ok answer =>
        rw [hpatch] at hres
        cases hres
        simpa only [hpatch, StillRolling] using hstill
  · cases hres
    exact hm

theorem stillRolling_same (hm : Rolling m) (r : Request) (resp : Response r) :
    StillRolling m .same r resp := by
  cases r with
  | patchFinalizers cr finalizers =>
      cases resp with
      | ok answer => exact hm
      | error err => trivial
  | _ => trivial

theorem gated_deployDruidCluster (hash : Hash) (o : MapOrders) {decoding : Decoding}
    (hm : Rolling m) (s : σ)
    (hanswer : ∀ e ∈ (exec h (deployDruidCluster hash o m decoding) s).steps,
      StillRolling m decoding e.req e.resp) :
    ∃ before turns after, Gated h hash m (getNodeSpecsByOrder o.groups m)
      (exec h (deployDruidCluster hash o m decoding) s).steps before turns after := by
  rw [deployDruidCluster_eq] at hanswer ⊢
  split at hanswer
  · exact ⟨_, _, _, gated_before (p := .ret ()) trivial s⟩
  · refine gated_bind ((uses_applyCommonConfig hash m).mono fun r hr => hr.mono ?_)
      fun common hcommon => ?_
    · exact fun v k key hw => .inl hw.2
    rw [exec_bind_ok hcommon] at hanswer
    generalize (exec h (applyCommonConfig hash m) s).state = t at hanswer
    by_cases hdel : m.metadata.deletionTimestamp.isSome
    · rw [if_pos hdel]
      have huses : (executeFinalizers m).Uses (Request.Within (writtenBefore m)) := by
        refine (uses_executeFinalizers m).mono fun r hr => hr.mono ?_
        rintro v k key (⟨hv, -⟩ | ⟨-, hk, -⟩)
        · exact .inr (.inr ⟨hdel, hv⟩)
        · exact .inr (.inl hk)
      exact ⟨_, _, _, gated_before huses t⟩
    · rw [if_neg hdel, deployNodes_eq] at hanswer ⊢
      refine gated_bind ((uses_updateFinalizers m decoding).mono fun r hr => hr.mono ?_)
        fun updated hupdated => ?_
      · exact fun v k key hw => .inr (.inl hw.2.1)
      have hkey := (yields_updateFinalizers_key m decoding).result hupdated
      have hrolling : Rolling updated := by
        refine rolling_updateFinalizers hm (fun e he => hanswer e ?_) hupdated
        exact List.mem_append_right _ ((exec_bind_begins _ _ t).subset he)
      have hl : Rolls m (Loop.named ⟨updated, fun _ => []⟩ .configMap [common.2]) :=
        ⟨congrArg Prod.fst hkey, congrArg Prod.snd hkey, hrolling.1, hrolling.2⟩
      obtain ⟨turns, after, hg⟩ := gated_loop hash common.1 (getNodeSpecsByOrder o.groups m) hl
        (by simpa using hdel) (exec h (updateFinalizers m decoding) t).state
      exact ⟨[], turns, after, hg⟩

/-- **The gate of one reconcile.** Whatever else the API server answers, a resource with a rolling
deploy and a generation above one, in which the patch of the finalizers changes neither, gets past a
node group only if the workload of the group was not updated and `isObjFullyDeployed` returned true
for it. At most one workload is updated, and the cleanup and the status patch come only if none was
and all were reported fully deployed. -/
theorem rolling_gate (h : Handler sig σ) (hash : Hash) (o : MapOrders) (m : Druid)
    (decoding : Decoding) (hroll : m.spec.rollingDeploy = true) (hgen : 1 < m.metadata.generation)
    (s : σ) (hanswer : ∀ e ∈ (exec h (deployDruidCluster hash o m decoding) s).steps,
      StillRolling m decoding e.req e.resp) :
    ∃ before turns after, Gated h hash m (getNodeSpecsByOrder o.groups m)
      (exec h (deployDruidCluster hash o m decoding) s).steps before turns after :=
  gated_deployDruidCluster hash o ⟨hroll, hgen⟩ s hanswer

/-! ## Two tiers -/

/-- A hash of the images of a workload, for concrete runs. -/
def imageHash : Hash
  | .statefulSet, obj => String.join (obj.body.spec.template.spec.containers.map (·.image))
  | .deployment, obj => String.join (obj.body.spec.template.spec.containers.map (·.image))
  | _, _ => ""

/-- Two tiers of historicals, one node each. -/
def tieredCluster (image : String) : Druid where
  metadata := { name := "c", ns := "d", generation := 2 }
  body := {
    spec := {
      image := image
      rollingDeploy := true
      nodes := ⟨[⟨"hot", { nodeType := .historical, druidPort := 8083, replicas := 1 }⟩,
        ⟨"cold", { nodeType := .historical, druidPort := 8083, replicas := 1 }⟩], by decide⟩ } }

/-- The state after a first reconcile of the tiers, with the image `v1`. -/
def tieredWorld : World :=
  (exec (serve {}) (deployDruidCluster imageHash {} (tieredCluster "v1"))
    (storedAlone (tieredCluster "v1"))).state

/-- A new image: the first tier is updated and the loop ends there. -/
theorem rolling_gate_tiers :
    workloadUpdates (exec (serve {}) (deployDruidCluster imageHash {} (tieredCluster "v2"))
        tieredWorld).steps = 1 ∧
      ∃ before turns after, Gated (serve {}) imageHash (tieredCluster "v2")
        (getNodeSpecsByOrder ({} : MapOrders).groups (tieredCluster "v2"))
        (exec (serve {}) (deployDruidCluster imageHash {} (tieredCluster "v2")) tieredWorld).steps
        before turns after :=
  ⟨by decide +kernel, rolling_gate (serve {}) imageHash {} (tieredCluster "v2") .same rfl
    (by decide) tieredWorld fun e _ => stillRolling_same ⟨rfl, by decide⟩ e.req e.resp⟩

/-- The answer takes the place of what was read. -/
def replacingRead : Decoding where
  into inHand answer := { answer with
    metadata := { answer.metadata with name := inHand.metadata.name, ns := inHand.metadata.ns } }
  key_eq _ _ := rfl

/-- The tiers without a rolling deploy. -/
def hurriedCluster : Druid :=
  { tieredCluster "v2" with body := { (tieredCluster "v2").body with
    spec := { (tieredCluster "v2").spec with rollingDeploy := false } } }

/-- The rolling deploy is given up after the resource was read. -/
def hurriedWorld : World where
  cluster := { tieredWorld.cluster with
    store := Function.update tieredWorld.cluster.store .druid (Table.insert .empty hurriedCluster) }

/-- A resource that was read with a rolling deploy, and is stored without one when its finalizers
are patched: both tiers are updated in one call. -/
theorem rolling_gate_reread :
    (tieredCluster "v2").spec.rollingDeploy = true ∧ 1 < (tieredCluster "v2").metadata.generation ∧
    workloadUpdates (exec (serve {}) (deployDruidCluster imageHash {} (tieredCluster "v2")
      replacingRead) hurriedWorld).steps = 2 ∧
    ¬ ∃ before turns after, Gated (serve {}) imageHash (tieredCluster "v2")
      (getNodeSpecsByOrder ({} : MapOrders).groups (tieredCluster "v2"))
      (exec (serve {}) (deployDruidCluster imageHash {} (tieredCluster "v2") replacingRead)
        hurriedWorld).steps before turns after := by
  have hupdates : workloadUpdates (exec (serve {}) (deployDruidCluster imageHash {}
      (tieredCluster "v2") replacingRead) hurriedWorld).steps = 2 := by decide +kernel
  refine ⟨rfl, by decide, hupdates, ?_⟩
  rintro ⟨before, turns, after, hgated⟩
  have hle := hgated.updates
  omega

end DruidOperator.Controller
