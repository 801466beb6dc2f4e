import DruidOperator.Placement

/-!
# What a complete call leaves in the cluster

Where no request fails and nobody else writes, a call of `deployDruidCluster` that gets to its end
has placed every object it generates, in the order of the plan.

* `groupObjects`, `loopObjects`, `callObjects` — the objects of a group, of all groups and of a
  call.
* `completes` — the call gets to the end of its loop and returns without an error.
* `completes_placed` — a complete call places these objects.
-/

namespace DruidOperator.Controller

open Interaction Prog Kube Runs

/-! ## One group -/

section Group

variable (hash : Hash) (commonConfigSHA : String) (ls : StrMap) (m : Druid) (g : ServiceGroup)

/-- The workload of a group. -/
def workloadObjects : (k : Kind) → List (Obj k)
  | .statefulSet => if g.spec.kind = "Deployment" then [] else
      [plannedStatefulSet hash commonConfigSHA m g]
  | .deployment => if g.spec.kind = "Deployment" then
      (plannedDeployment hash commonConfigSHA m g).toOption.toList else []
  | _ => []

/-- What comes after the workload. -/
def restObjects : (k : Kind) → List (Obj k)
  | .ingress => (plannedIngress hash ls m g).toList
  | .podDisruptionBudget => (plannedBudget hash m g).toList
  | .horizontalPodAutoscaler => (plannedAutoscaler hash ls m g).toList
  | .persistentVolumeClaim => plannedClaims hash m g
  | _ => []

/-- The objects of a group, by kind and in order. -/
def groupObjects : (k : Kind) → List (Obj k)
  | .configMap => [plannedConfig hash m g]
  | .service => plannedServices hash m g
  | .statefulSet => workloadObjects hash commonConfigSHA m g .statefulSet
  | .deployment => workloadObjects hash commonConfigSHA m g .deployment
  | k => restObjects hash ls m g k

variable {hash commonConfigSHA m g} in
theorem plannedWorkload_of_mem {k : Kind} {obj : Obj k}
    (hobj : obj ∈ workloadObjects hash commonConfigSHA m g k) :
    PlannedWorkload hash commonConfigSHA m g k obj := by
  cases k with
  | statefulSet =>
      rw [workloadObjects] at hobj
      split_ifs at hobj with hkind
      · cases hobj
      · rw [List.mem_singleton.1 hobj]
        exact .statefulSet hkind
  | deployment =>
      rw [workloadObjects] at hobj
      split_ifs at hobj with hkind
      · refine .deployment hkind obj ?_
        cases hmade : plannedDeployment hash commonConfigSHA m g with
        | error e => simp [hmade, Except.toOption] at hobj
        | ok made =>
            simp only [hmade, Except.toOption, Option.toList_some, List.mem_singleton] at hobj
            rw [hobj]
      · cases hobj
  | _ => cases hobj

variable {env : Env} (henv : env.Calm)

include henv

theorem applies_applyWorkload :
    Applies env m.ns (fun _ => True) (applyWorkload hash commonConfigSHA m g)
      (workloadObjects hash commonConfigSHA m g) := by
  unfold applyWorkload
  by_cases hkind : g.spec.kind = "Deployment"
  · rw [if_pos hkind]
    cases hobj : plannedDeployment hash commonConfigSHA m g with
    | error e => exact Applies.exit e
    | ok obj =>
        have hns : obj.ns = m.ns := congrArg Prod.fst (plannedDeployment_key hobj)
        refine ((applies_createOrUpdate henv (k := .deployment) (by decide) deploymentIsEquals
          hns).bind fun status => applies_of_within henv.alone (A := fun _ _ _ => False)
          (uses_afterDeployment _ _ status) fun _ _ _ _ h => h).congr fun k hk => ?_
        cases k <;> simp [only, workloadObjects, hkind, hobj, Except.toOption, Function.update]
  · rw [if_neg hkind]
    intro w goOn halive hres _ k hk
    have hexp := expandIfAsked_expands henv halive (withDruidPort g.spec) (groupName m g)
      (sameIdentity_afterServices hash m g).ns_eq (w := w) rfl
    obtain ⟨u, hfirst, hres, -⟩ := exec_bind_returned hres
    rw [exec_bind_ok hfirst]
    generalize (exec (serve env) (expandIfAsked (withDruidPort g.spec) (groupName m g)
      (afterServices hash m g)) w).state = w₁ at hexp hres ⊢
    have hname : (plannedStatefulSet hash commonConfigSHA m g).key = (m.ns, groupName m g) :=
      plannedStatefulSet_key ..
    have halive₁ : ∀ k ∈ groupKinds, Alive (viewOf m.ns w₁.cluster k) := by
      intro k' hk'
      by_cases hset : k' = .statefulSet
      · subst hset
        rcases hexp.sets with hsets | hsets <;> rw [hsets]
        · exact halive _ hk'
        · intro n s hs
          by_cases hn : n = groupName m g
          · rw [hn, Function.update_self] at hs
            cases hs
          · rw [Function.update_of_ne hn] at hs
            exact halive _ hk' n s hs
      · rw [hexp.others k' hk' hset]
        exact halive k' hk'
    have hrest := ((applies_createOrUpdate henv (k := .statefulSet) (by decide)
      statefulSetIsEquals (congrArg Prod.fst hname)).bind (Q := fun _ => True) fun status =>
      applies_of_within henv.alone (uses_afterStatefulSet (withDruidPort g.spec) (groupName m g)
        (afterGroup hash commonConfigSHA m g) status) fun v key k hk h => ?_) w₁ goOn halive₁
      hres trivial k hk
    · simp only [List.append_nil] at hrest
      by_cases hset : k = .statefulSet
      · subst hset
        rw [only, Function.update_self] at hrest
        simp only [workloadObjects, if_neg hkind]
        rcases hexp.sets with hsets | hsets
        · rwa [hsets] at hrest
        · rw [hsets] at hrest
          cases hrest with
          | cons hstep hnil =>
              cases hnil
              refine .single (Placed.of_removed ?_)
              rwa [show (plannedStatefulSet hash commonConfigSHA m g).name = groupName m g from
                congrArg Prod.snd hname]
      · rw [only, Function.update_of_ne hset, hexp.others k hk hset] at hrest
        have hnone : workloadObjects hash commonConfigSHA m g k = [] := by
          cases k <;> simp_all [workloadObjects]
        rwa [hnone]
    · rw [h.2] at hk
      simp [groupKinds] at hk

omit henv in
/-- Of a claim with a name, the name and the body become those of the last claim of the spec. -/
theorem foldl_claims (claims : List (Object PersistentVolumeClaim))
    (start : Obj .persistentVolumeClaim) :
    claims.foldl (fun pvc p =>
      { pvc with metadata := { pvc.metadata with name := p.name }, body := p.body }) start =
    match claims.getLast? with
    | none => start
    | some p =>
        { start with metadata := { start.metadata with name := p.name }, body := p.body } := by
  induction claims generalizing start with
  | nil => rfl
  | cons p claims ih =>
      rw [List.foldl_cons, ih, List.getLast?_cons]
      cases claims.getLast? <;> rfl

omit henv in
theorem makePersistentVolumeClaim_ns (pvc : Object PersistentVolumeClaim) (nodeSpec : DruidNodeSpec)
    (labels : StrMap) (uniqueStr : String) :
    (makePersistentVolumeClaim pvc nodeSpec m labels uniqueStr).ns = m.ns := by
  unfold makePersistentVolumeClaim
  dsimp only
  split_ifs
  · rfl
  · rw [foldl_claims]
    split <;> rfl

omit henv in
theorem groupObjects_ns {k : Kind} {obj : Obj k}
    (hobj : obj ∈ groupObjects hash commonConfigSHA ls m g k) : obj.ns = m.ns := by
  have hoption : ∀ {α : Type} {k : Kind} {spec : Option α} {make : α → Obj k},
      (∀ a, (make a).ns = m.ns) → ∀ o ∈ (spec.map make).toList, o.ns = m.ns := by
    intro α k spec make hmake o ho
    obtain ⟨a, -, rfl⟩ := Option.map_eq_some_iff.1 (Option.mem_toList.1 ho)
    exact hmake a
  cases k with
  | configMap =>
      rw [List.mem_singleton.1 hobj]
      rfl
  | service =>
      obtain ⟨svc, -, rfl⟩ := List.mem_map.1 hobj
      rfl
  | statefulSet => exact congrArg Prod.fst (plannedWorkload_of_mem hobj).key_eq
  | deployment => exact congrArg Prod.fst (plannedWorkload_of_mem hobj).key_eq
  | ingress => exact hoption (fun _ => rfl) obj hobj
  | podDisruptionBudget => exact hoption (fun _ => rfl) obj hobj
  | horizontalPodAutoscaler => exact hoption (fun _ => rfl) obj hobj
  | persistentVolumeClaim =>
      obtain ⟨pvc, -, rfl⟩ := List.mem_map.1 hobj
      exact makePersistentVolumeClaim_ns m pvc _ _ _
  | _ => cases hobj

theorem applies_applyRest :
    Applies env m.ns (fun _ => True) (applyRest hash ls m g) (restObjects hash ls m g) := by
  -- the hash of the common ConfigMap is in workloads only
  have hns : ∀ {k : Kind} {o : Obj k}, o ∈ groupObjects hash "" ls m g k → o.ns = m.ns :=
    fun ho => groupObjects_ns hash "" ls m g ho
  have hingress : ∀ o ∈ plannedIngress hash ls m g, o.ns = m.ns :=
    fun o ho => hns (k := .ingress) (Option.mem_toList.2 ho)
  have hbudget : ∀ o ∈ plannedBudget hash m g, o.ns = m.ns :=
    fun o ho => hns (k := .podDisruptionBudget) (Option.mem_toList.2 ho)
  have hautoscaler : ∀ o ∈ plannedAutoscaler hash ls m g, o.ns = m.ns :=
    fun o ho => hns (k := .horizontalPodAutoscaler) (Option.mem_toList.2 ho)
  have hclaims : ∀ o ∈ plannedClaims hash m g, o.ns = m.ns :=
    fun o ho => hns (k := .persistentVolumeClaim) ho
  refine ((applies_applyOption henv (by decide) rfl hingress).bind fun _ =>
    (applies_applyOption henv (by decide) rfl hbudget).bind fun _ =>
      (applies_applyOption henv (by decide) rfl hautoscaler).bind fun _ =>
        applies_forEach henv (by decide) rfl hclaims).congr fun k hk => ?_
  cases k <;> simp [Function.update, restObjects]

/-- **A turn of the loop places the objects of its group.** -/
theorem applies_applyGroup (l : Loop) :
    Applies env l.m.ns (fun x => x.isSome = true) (applyGroup hash ls commonConfigSHA l g)
      (groupObjects hash commonConfigSHA ls l.m g) := by
  have hservices : ∀ o ∈ plannedServices hash l.m g, o.ns = l.m.ns :=
    fun o ho => groupObjects_ns hash commonConfigSHA ls l.m g (k := .service) ho
  have hrest : ∀ goOn : Bool, Applies env l.m.ns (fun x => x.isSome = true)
      (if goOn then
          applyRest hash ls l.m g >>= fun _ => .ret (some (nextLoop hash commonConfigSHA ls l g))
        else .ret none) (restObjects hash ls l.m g) := by
    intro goOn
    by_cases hgoOn : goOn
    · rw [if_pos hgoOn]
      refine ((applies_applyRest hash ls l.m g henv).bind fun _ => .ret _).congr fun k _ => ?_
      exact List.append_nil _
    · rw [if_neg hgoOn]
      rintro w a halive ⟨⟩ hsome
      cases hsome
  have hconfig : (plannedConfig hash l.m g).ns = l.m.ns := rfl
  refine ((applies_applyObj henv (by decide) hconfig).bind fun _ =>
    (applies_forEach henv (by decide) rfl hservices).bind fun _ =>
      (applies_applyWorkload hash commonConfigSHA l.m g henv).bind hrest).congr fun k hk => ?_
  cases k <;> simp [only, Function.update, groupObjects, workloadObjects, restObjects]

end Group

/-! ## The loop -/

section Loop

variable (hash : Hash) (commonConfigSHA : String) (ls : StrMap)

/-- The objects of the groups, by kind and in order. -/
def loopObjects : Druid → List ServiceGroup → (k : Kind) → List (Obj k)
  | _, [] => fun _ => []
  | m, g :: groups => fun k => groupObjects hash commonConfigSHA ls m g k ++
      loopObjects (afterGroup hash commonConfigSHA m g) groups k

theorem mem_loopObjects {m : Druid} {groups : List ServiceGroup} {k : Kind} {obj : Obj k} :
    obj ∈ loopObjects hash commonConfigSHA ls m groups k ↔
      ∃ done g rest, groups = done ++ g :: rest ∧
        obj ∈ groupObjects hash commonConfigSHA ls (seenAfter hash commonConfigSHA m done) g k := by
  induction groups generalizing m with
  | nil => simp [loopObjects]
  | cons g groups ih =>
      rw [loopObjects, List.mem_append, ih]
      constructor
      · rintro (hobj | ⟨done, g', rest, rfl, hobj⟩)
        · exact ⟨[], g, groups, rfl, hobj⟩
        · exact ⟨g :: done, g', rest, rfl, hobj⟩
      · rintro ⟨done, g', rest, hgroups, hobj⟩
        cases done with
        | nil =>
            obtain ⟨rfl, rfl⟩ := List.cons.inj hgroups
            exact .inl hobj
        | cons d done =>
            obtain ⟨rfl, hrest⟩ := List.cons.inj hgroups
            exact .inr ⟨done, g', rest, hrest, hobj⟩

/-- The bookkeeping makes no difference to what is generated. -/
theorem groupObjects_rewritten (m : Druid) (finalizers : List String) (version : ℕ)
    (status : DruidClusterStatus) (g : ServiceGroup) (k : Kind) :
    groupObjects hash commonConfigSHA ls (rewritten m finalizers version status) g k =
      groupObjects hash commonConfigSHA ls m g k := by
  cases k <;> simp only [groupObjects, workloadObjects, restObjects, plannedStatefulSet_rewritten,
    plannedDeployment_rewritten] <;> rfl

theorem loopObjects_rewritten (m : Druid) (finalizers : List String) (version : ℕ)
    (status : DruidClusterStatus) (groups : List ServiceGroup) (k : Kind) :
    loopObjects hash commonConfigSHA ls (rewritten m finalizers version status) groups k =
      loopObjects hash commonConfigSHA ls m groups k := by
  induction groups generalizing m with
  | nil => rfl
  | cons g groups ih => simp only [loopObjects, groupObjects_rewritten, afterGroup_rewritten, ih]

theorem loopObjects_withFinalizers (m : Druid) (finalizers : List String)
    (groups : List ServiceGroup) (k : Kind) :
    loopObjects hash commonConfigSHA ls (withFinalizers m finalizers) groups k =
      loopObjects hash commonConfigSHA ls m groups k := by
  rw [withFinalizers_eq_rewritten rfl rfl, loopObjects_rewritten]

theorem groupNames_eq {m : Druid} {g : ServiceGroup} (hmakes : MakesWorkload g) {k : Kind}
    (hk : k ∈ groupKinds) :
    groupNames hash ls m g k = (groupObjects hash commonConfigSHA ls m g k).map Object.name := by
  have hset : (plannedStatefulSet hash commonConfigSHA m g).name = groupName m g :=
    congrArg Prod.snd (plannedStatefulSet_key hash commonConfigSHA m g)
  have hdeployment : g.spec.kind = "Deployment" → ∃ obj,
      plannedDeployment hash commonConfigSHA m g = .ok obj ∧ obj.name = groupName m g := by
    intro hkind
    obtain ⟨ru, hru⟩ := (makesWorkload_iff hkind).1 hmakes
    cases hobj : plannedDeployment hash commonConfigSHA m g with
    | error e =>
        unfold plannedDeployment makeDeployment at hobj
        rw [hru] at hobj
        cases hobj
    | ok obj => exact ⟨obj, rfl, congrArg Prod.snd (plannedDeployment_key hobj)⟩
  by_cases hkind : g.spec.kind = "Deployment"
  · obtain ⟨obj, hobj, hname⟩ := hdeployment hkind
    cases k with
    | configMap => rfl
    | _ => simp_all [groupNames, groupObjects, workloadObjects, restObjects, groupKinds,
        Except.toOption]
  · cases k with
    | configMap => rfl
    | _ => simp_all [groupNames, groupObjects, workloadObjects, restObjects, groupKinds]

theorem yields_loop (l : Loop) (groups : List ServiceGroup) :
    (iterate (applyGroup hash ls commonConfigSHA) l groups).Yields fun x =>
      ∀ l', x = some l' → (∀ g ∈ groups, MakesWorkload g) ∧
        l' = groups.foldl (nextLoop hash commonConfigSHA ls) l := by
  induction groups generalizing l with
  | nil =>
      intro l' heq
      cases heq
      exact ⟨by simp, rfl⟩
  | cons g groups ih =>
      refine (yields_applyGroup hash ls commonConfigSHA l g).bind fun x hx => ?_
      cases x with
      | none =>
          intro l' heq
          cases heq
      | some l₁ =>
          obtain ⟨hmakes, rfl⟩ := hx l₁ rfl
          refine (ih _).mono fun x hx l' heq => ?_
          obtain ⟨hall, hl'⟩ := hx l' heq
          exact ⟨List.forall_mem_cons.2 ⟨hmakes, hall⟩, hl'⟩

theorem foldl_nextLoop_m (l : Loop) (groups : List ServiceGroup) :
    (groups.foldl (nextLoop hash commonConfigSHA ls) l).m =
      seenAfter hash commonConfigSHA l.m groups := by
  induction groups generalizing l with
  | nil => rfl
  | cons g groups ih => exact ih _

theorem foldl_nextLoop_names (l : Loop) {groups : List ServiceGroup}
    (hmakes : ∀ g ∈ groups, MakesWorkload g) {k : Kind} (hk : k ∈ groupKinds) :
    (groups.foldl (nextLoop hash commonConfigSHA ls) l).names k =
      l.names k ++ (loopObjects hash commonConfigSHA ls l.m groups k).map Object.name := by
  induction groups generalizing l with
  | nil => simp [loopObjects]
  | cons g groups ih =>
      rw [List.foldl_cons, ih _ fun g' hg' => hmakes g' (List.mem_cons_of_mem _ hg')]
      simp only [nextLoop, loopObjects, List.map_append, List.append_assoc,
        groupNames_eq hash commonConfigSHA ls (hmakes g List.mem_cons_self) hk]

variable {env : Env} (henv : env.Calm)

include henv

/-- **A loop that gets to its end places the objects of its groups.** -/
theorem applies_loop (l : Loop) (groups : List ServiceGroup) :
    Applies env l.m.ns (fun x => x.isSome = true)
      (iterate (applyGroup hash ls commonConfigSHA) l groups)
      (loopObjects hash commonConfigSHA ls l.m groups) := by
  induction groups generalizing l with
  | nil => exact Applies.ret _
  | cons g groups ih =>
      intro w x halive hres hx k hk
      rw [iterate] at hres ⊢
      obtain ⟨y, hturn, hres, -⟩ := exec_bind_returned hres
      cases y with
      | none =>
          cases hres
          cases hx
      | some l₁ =>
          obtain ⟨-, rfl⟩ := (yields_applyGroup hash ls commonConfigSHA l g).result hturn l₁ rfl
          have hfirst := applies_applyGroup hash commonConfigSHA ls g henv l w _ halive hturn rfl
          have hns : (nextLoop hash commonConfigSHA ls l g).m.ns = l.m.ns :=
            (sameIdentity_afterGroup hash commonConfigSHA l.m g).ns_eq
          rw [exec_bind_ok hturn]
          refine (hfirst k hk).append ?_
          have hrest := ih (nextLoop hash commonConfigSHA ls l g)
          rw [hns] at hrest
          exact hrest _ x (fun k' hk' => alive_of_path (hfirst k' hk') (halive k' hk')) hres hx
            k hk

end Loop

/-! ## The whole call -/

/-- The files once the references are read, where every request is served. -/
def filesRead (c : Cluster) (refs : List ObjectReference) (data : StrMap) : StrMap :=
  refs.foldl (fun data ref =>
    match storedConfig c ref with
    | some cm => data.overlay cm.body
    | none => data) data

theorem extraData_served {env : Env} (hserved : ∀ n, env.fault n = none) (c : Cluster) (n : ℕ)
    (refs : List ObjectReference) (data : StrMap) :
    extraData env c n refs data = filesRead c refs data := by
  induction refs generalizing n data with
  | nil => rfl
  | cons ref refs ih =>
      rw [extraData, ih, readConfig, if_neg (by simp [hserved])]
      rfl

/-- The hash of the common ConfigMap, which every pod template carries. -/
def commonSHA (hash : Hash) (m : Druid) (files : StrMap) : String :=
  hash .configMap (makeConfigMap (commonConfigName m) m.ns (makeLabelsForDruid m) files)

/-- The objects a call generates, by kind and in order. -/
def callObjects (hash : Hash) (o : MapOrders) (m : Druid) (files : StrMap) (k : Kind) :
    List (Obj k) :=
  only .configMap (plannedCommon hash m files) k ++
    loopObjects hash (commonSHA hash m files) (makeLabelsForDruid m) m
      (getNodeSpecsByOrder o.groups m) k

theorem callObjects_rewritten (hash : Hash) (o : MapOrders) (m : Druid) (finalizers : List String)
    (version : ℕ) (status : DruidClusterStatus) (files : StrMap) (k : Kind) :
    callObjects hash o (rewritten m finalizers version status) files k =
      callObjects hash o m files k :=
  congrArg _ (loopObjects_rewritten ..)

/-- The finalizers and the loop. -/
def deployLoop (hash : Hash) (o : MapOrders) (m : Druid) (common : String × String) :
    Code (Option Loop) :=
  updateFinalizers m >>= fun updated =>
    iterate (applyGroup hash (makeLabelsForDruid m) common.1)
      (Loop.named ⟨updated, fun _ => []⟩ .configMap [common.2]) (getNodeSpecsByOrder o.groups m)

/-- The call up to the end of its loop; `none` where it does not get there. -/
def deployGroups (hash : Hash) (o : MapOrders) (m : Druid) : Code (Option Loop) :=
  match verifyDruidSpec o m with
  | .error _ => .ret none
  | .ok () => applyCommonConfig hash m >>= fun common =>
      if m.metadata.deletionTimestamp.isSome then executeFinalizers m >>= fun _ => .ret none
      else deployLoop hash o m common

/-- For a resource that is accepted and stays: the common ConfigMap, and then the loop. -/
theorem deployGroups_eq (hash : Hash) {o : MapOrders} {m : Druid}
    (hverify : verifyDruidSpec o m = .ok ()) (hdel : m.metadata.deletionTimestamp = none) :
    deployGroups hash o m = applyCommonConfig hash m >>= deployLoop hash o m := by
  rw [deployGroups, hverify]
  simp only [hdel, Option.isSome_none, Bool.false_eq_true, if_false]

/-- What follows the loop. -/
def thenFinish (m : Druid) : Option Loop → Code Unit
  | none => .ret ()
  | some l => finishDeploy (makeLabelsForDruid m) l

theorem deployDruidCluster_eq_thenFinish (hash : Hash) (o : MapOrders) (m : Druid) :
    deployDruidCluster hash o m = deployGroups hash o m >>= thenFinish m := by
  rw [deployDruidCluster_eq, deployGroups]
  cases verifyDruidSpec o m with
  | error e => rfl
  | ok u =>
      dsimp only
      rw [bind_assoc]
      refine bind_congr fun common => ?_
      split_ifs
      · rw [bind_assoc]
        exact (bind_ret _).symm
      · rw [deployNodes, deployLoop, bind_assoc, iterate_deployNode]
        refine bind_congr fun updated => bind_congr fun x => ?_
        cases x <;> rfl

/-- The call gets to the end of its loop, and returns without an error. -/
def completes (hash : Hash) (o : MapOrders) (m : Druid) (env : Env) (w : World) : Bool :=
  match (exec (serve env) (deployGroups hash o m) w).res,
    (exec (serve env) (deployDruidCluster hash o m) w).res with
  | .ok (some _), .ok () => true
  | _, _ => false

/-- The state at the end of the loop. -/
def afterLoop (hash : Hash) (o : MapOrders) (m : Druid) (env : Env) (w : World) : World :=
  (exec (serve env) (deployGroups hash o m) w).state

/-- What a complete call has done at the end of its loop. -/
structure Deployed (hash : Hash) (o : MapOrders) (m : Druid) (env : Env) (w : World)
    (files : StrMap) (l : Loop) : Prop where
  verified : verifyDruidSpec o m = .ok ()
  staying : m.metadata.deletionTimestamp = none
  data : ∃ data, commonConfigData m = .ok data ∧
    files = filesRead w.cluster m.spec.extraCommonConfig data
  makes : ∀ g ∈ getNodeSpecsByOrder o.groups m, MakesWorkload g
  looped : (exec (serve env) (deployGroups hash o m) w).res = .ok (some l)
  path : ∀ k ∈ groupKinds, Path Placed (callObjects hash o m files k) (viewOf m.ns w.cluster k)
    (viewOf m.ns (afterLoop hash o m env w).cluster k)
  names : ∀ k ∈ groupKinds, l.names k = (callObjects hash o m files k).map Object.name
  resource : ∃ finalizers, l.m = withFinalizers (seenAfter hash (commonSHA hash m files) m
    (getNodeSpecsByOrder o.groups m)) finalizers
  finished : (exec (serve env) (finishDeploy (makeLabelsForDruid m) l)
    (afterLoop hash o m env w)).res = .ok ()

section Call

variable {hash : Hash} {o : MapOrders} {m : Druid} {env : Env} {w : World}

theorem loop_of_completes (h : completes hash o m env w = true) :
    ∃ l, (exec (serve env) (deployGroups hash o m) w).res = .ok (some l) ∧
      (exec (serve env) (deployDruidCluster hash o m) w).res = .ok () := by
  unfold completes at h
  split at h
  · next l hl hres => exact ⟨l, hl, hres⟩
  · cases h

theorem exec_thenFinish {l : Loop}
    (hl : (exec (serve env) (deployGroups hash o m) w).res = .ok (some l)) :
    exec (serve env) (deployDruidCluster hash o m) w =
      ⟨(exec (serve env) (finishDeploy (makeLabelsForDruid m) l) (afterLoop hash o m env w)).res,
        (exec (serve env) (finishDeploy (makeLabelsForDruid m) l) (afterLoop hash o m env w)).state,
        (exec (serve env) (deployGroups hash o m) w).steps ++
          (exec (serve env) (finishDeploy (makeLabelsForDruid m) l)
            (afterLoop hash o m env w)).steps⟩ := by
  rw [deployDruidCluster_eq_thenFinish, exec_bind_ok hl]
  rfl

/-- A call gets to the end of its loop only for a resource that is accepted and stays. -/
theorem accepted_of_loop {l : Loop}
    (hl : (exec (serve env) (deployGroups hash o m) w).res = .ok (some l)) :
    verifyDruidSpec o m = .ok () ∧ m.metadata.deletionTimestamp = none ∧
      ∃ data, commonConfigData m = .ok data := by
  unfold deployGroups at hl
  cases hverify : verifyDruidSpec o m with
  | error e =>
      rw [hverify] at hl
      cases hl
  | ok u =>
      rw [hverify] at hl
      dsimp only at hl
      refine ⟨rfl, ?_, ?_⟩
      · by_contra hdel
        rw [← Ne, Option.ne_none_iff_isSome] at hdel
        simp only [hdel, if_true] at hl
        have hnone : (applyCommonConfig hash m >>= fun _ => executeFinalizers m >>= fun _ =>
            (.ret none : Code (Option Loop))).Yields fun x => x = none :=
          (yields_true _).bind fun _ _ => (yields_true _).bind fun _ _ => rfl
        cases hnone.result hl
      · cases hdata : commonConfigData m with
        | ok data => exact ⟨data, rfl⟩
        | error e =>
            rw [exec_bind_error (congrArg Outcome.res
              (applyCommonConfig_no_data (serve env) hdata hash w))] at hl
            cases hl

theorem applyCommonConfig_calm (hash : Hash) (henv : env.Calm) {data : StrMap}
    (hdata : commonConfigData m = .ok data)
    (halive : ∀ k ∈ groupKinds, Alive (viewOf m.ns w.cluster k)) {files : StrMap}
    (hfiles : files = filesRead w.cluster m.spec.extraCommonConfig data) :
    (exec (serve env) (applyCommonConfig hash m) w).res =
        .ok (commonSHA hash m files, commonConfigName m) ∧
      ∀ k ∈ groupKinds, Path Placed (only .configMap (plannedCommon hash m files) k)
        (viewOf m.ns w.cluster k)
        (viewOf m.ns (exec (serve env) (applyCommonConfig hash m) w).state.cluster k) := by
  obtain ⟨reads, -, hcommon⟩ := exec_applyCommonConfig henv.alone hash hdata w
  have hhashed : hashedData env m w data = files := by
    rw [hfiles, ← extraData_served henv.served]
    rfl
  have hwritten : writtenData env m w data = files := by
    rw [hfiles, ← extraData_served henv.served]
    rfl
  rw [hhashed, hwritten] at hcommon
  obtain ⟨status, hstatus, -⟩ := createOrUpdate_applied (w := ⟨w.cluster, commonCall m w⟩)
    henv.alone (k := .configMap) (by decide) alwaysTrueIsEqualsFn noopUpdaterFn_key
    noopUpdaterFn_version (plannedCommon hash m files) (henv.served _) (henv.served _)
  rw [hcommon, applyMade, exec_bind_ok hstatus]
  refine ⟨rfl, fun k hk => ?_⟩
  exact applies_createOrUpdate henv (k := .configMap) (by decide) alwaysTrueIsEqualsFn rfl
    ⟨w.cluster, commonCall m w⟩ status halive hstatus trivial k hk

theorem applies_deployLoop (henv : env.Calm) (common : String × String) :
    Applies env m.ns (fun x => x.isSome = true) (deployLoop hash o m common)
      (loopObjects hash common.1 (makeLabelsForDruid m) m (getNodeSpecsByOrder o.groups m)) := by
  refine (Applies.bindYields (applies_of_within henv.alone (uses_updateFinalizers m) ?_)
    (yields_updateFinalizers m) fun updated hupdated => ?_).congr fun k _ => List.nil_append _
  · rintro v key k hk ⟨-, rfl, -⟩
    simp [groupKinds] at hk
  · obtain ⟨finalizers, rfl⟩ := hupdated
    refine (applies_loop hash common.1 (makeLabelsForDruid m) henv
      (Loop.named ⟨withFinalizers m finalizers, fun _ => []⟩ .configMap [common.2]) _).congr
      fun k _ => loopObjects_withFinalizers ..

theorem yields_deployLoop (common : String × String) :
    (deployLoop hash o m common).Yields fun x => ∀ l, x = some l →
      (∀ g ∈ getNodeSpecsByOrder o.groups m, MakesWorkload g) ∧ ∃ finalizers,
        l = (getNodeSpecsByOrder o.groups m).foldl (nextLoop hash common.1 (makeLabelsForDruid m))
          (Loop.named ⟨withFinalizers m finalizers, fun _ => []⟩ .configMap [common.2]) := by
  refine (yields_updateFinalizers m).bind fun updated hupdated => ?_
  obtain ⟨finalizers, rfl⟩ := hupdated
  exact (yields_loop ..).mono fun x hx l heq => ⟨(hx l heq).1, finalizers, (hx l heq).2⟩

/-- The names that are noted are those of the objects, and only the finalizers of the resource are
not as the groups leave it. -/
theorem loop_variables {files : StrMap} {l : Loop} {finalizers : List String}
    (hmakes : ∀ g ∈ getNodeSpecsByOrder o.groups m, MakesWorkload g)
    (hvars : l = (getNodeSpecsByOrder o.groups m).foldl
      (nextLoop hash (commonSHA hash m files) (makeLabelsForDruid m))
      (Loop.named ⟨withFinalizers m finalizers, fun _ => []⟩ .configMap [commonConfigName m])) :
    (∀ k ∈ groupKinds, l.names k = (callObjects hash o m files k).map Object.name) ∧
      l.m = withFinalizers (seenAfter hash (commonSHA hash m files) m
        (getNodeSpecsByOrder o.groups m)) finalizers := by
  refine ⟨fun k hk => ?_, ?_⟩
  · rw [hvars, foldl_nextLoop_names _ _ _ _ hmakes hk, callObjects, List.map_append, Loop.named_m,
      loopObjects_withFinalizers]
    congr 1
    by_cases hconfig : k = .configMap
    · subst hconfig
      simp only [Loop.named, only, Function.update_self]
      rfl
    · simp [Loop.named, only, Function.update_of_ne hconfig]
  · rw [hvars, foldl_nextLoop_m, Loop.named_m, seenAfter_withFinalizers]

/-- **A complete call places what it generates.** -/
theorem completes_placed (henv : env.Calm)
    (halive : ∀ k ∈ groupKinds, Alive (viewOf m.ns w.cluster k))
    (h : completes hash o m env w = true) : ∃ files l, Deployed hash o m env w files l := by
  obtain ⟨l, hl, hres⟩ := loop_of_completes h
  rw [exec_thenFinish hl] at hres
  obtain ⟨hverify, hdel, data, hdata⟩ := accepted_of_loop hl
  obtain ⟨hmade, hcommon⟩ := applyCommonConfig_calm hash henv hdata halive rfl
  generalize hfiles : filesRead w.cluster m.spec.extraCommonConfig data = files at hmade hcommon
  have hrun := deployGroups_eq hash hverify hdel
  have hl' := hl
  rw [hrun, exec_bind_ok hmade] at hl'
  obtain ⟨hmakes, finalizers, hvars⟩ := (yields_deployLoop _).result hl' l rfl
  obtain ⟨hnames, hresource⟩ := loop_variables hmakes hvars
  refine ⟨files, l, hverify, hdel, ⟨data, hdata, hfiles.symm⟩, hmakes, hl, fun k hk => ?_, hnames,
    ⟨finalizers, hresource⟩, hres⟩
  unfold afterLoop callObjects
  rw [hrun, exec_bind_ok hmade]
  refine (hcommon k hk).append ?_
  exact applies_deployLoop henv _ _ (some l)
    (fun k' hk' => alive_of_path (hcommon k' hk') (halive k' hk')) hl' rfl k hk

end Call

end DruidOperator.Controller
