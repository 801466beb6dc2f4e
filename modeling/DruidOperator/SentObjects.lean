import DruidOperator.WorkloadWrites

/-!
# What one call sends

Every object that `deployDruidCluster` creates or updates, claims and the resource itself apart, is
the common ConfigMap or one of the objects planned for a node group, made from the resource as the
groups before it leave it. This holds whatever the API server answers.

* `PlannedObject` — the objects planned for one group, of every kind.
* `SentObject` — the objects of a whole call.
* `sends_deployDruidCluster` — nothing else is sent.
-/

namespace DruidOperator.Controller

open Interaction Prog Kube

/-- What an update of an object of this kind keeps of the stored one. -/
def updaterOf : (k : Kind) → Obj k → Obj k → Obj k
  | .service => keepClusterIP
  | _ => noopUpdaterFn

/-- Claims and the resource itself are also updated for other reasons than the plan. -/
def Generated (k : Kind) : Prop := k ≠ .druid ∧ k ≠ .persistentVolumeClaim

/-- What the request creates or updates meets `P`, apart from what an update keeps. -/
def Sends (P : (k : Kind) → Obj k → Prop) : Request → Prop
  | .create k obj => Generated k → P k obj
  | .update k obj => Generated k →
      ∃ planned prev, P k planned ∧ obj = sent (updaterOf k) planned prev
  | _ => True

theorem Sends.mono {P Q : (k : Kind) → Obj k → Prop}
    (hPQ : ∀ k obj, Generated k → P k obj → Q k obj)
    {r : Request} (hr : Sends P r) : Sends Q r := by
  cases r with
  | create k obj => exact fun hk => hPQ k obj hk (hr hk)
  | update k obj =>
      intro hk
      obtain ⟨planned, prev, hplanned, heq⟩ := hr hk
      exact ⟨planned, prev, hPQ k planned hk hplanned, heq⟩
  | _ => trivial

section Parts

variable {P : (k : Kind) → Obj k → Prop}

theorem sends_of_within {α : Type} {p : Code α} {A : Verb → Kind → String × String → Prop}
    (hp : p.Uses (Request.Within A))
    (hA : ∀ v k key, A v k key → v = .create ∨ v = .update → ¬ Generated k) : p.Uses (Sends P) := by
  refine hp.mono fun r hr => ?_
  cases r with
  | create k obj => exact fun hk => absurd hk (hA _ _ _ (hr _ _ _ rfl) (.inl rfl))
  | update k obj => exact fun hk => absurd hk (hA _ _ _ (hr _ _ _ rfl) (.inr rfl))
  | _ => trivial

theorem sends_createOrUpdate {k : Kind} (isEqualFn : Obj k → Obj k → Bool) {obj : Obj k}
    (hobj : Generated k → P k obj) :
    (createOrUpdate isEqualFn (updaterOf k) obj).Uses (Sends P) := by
  unfold createOrUpdate
  refine (uses_getObj _ _ _ trivial).bind fun answer => ?_
  cases answer with
  | error err =>
      dsimp only
      split_ifs
      · exact Uses.bind
          (by simpa [Sends] using hobj) fun answer => Uses.bind (by simp) fun _ => trivial
      · simp
  | ok prev =>
      dsimp only
      split_ifs
      · refine Uses.bind ?_ fun answer => Uses.bind (by simp) fun _ => trivial
        rw [uses_updateObj]
        exact fun hk => ⟨obj, prev, hobj hk, rfl⟩
      · trivial

theorem sends_applyObj {k : Kind} {obj : Obj k} (hobj : Generated k → P k obj) :
    (applyObj (updaterOf k) obj).Uses (Sends P) :=
  (sends_createOrUpdate _ hobj).bind fun _ => trivial

theorem sends_applyOption {k : Kind} (hk : updaterOf k = noopUpdaterFn) {obj : Option (Obj k)}
    (hobj : ∀ o, obj = some o → P k o) : (applyOption obj).Uses (Sends P) := by
  cases obj with
  | none => trivial
  | some o =>
      rw [applyOption, ← hk]
      exact sends_applyObj fun _ => hobj o rfl

end Parts

/-! ## One group -/

/-- The objects planned for a group, but for its claims. -/
inductive PlannedObject (hash : Hash) (commonConfigSHA : String) (ls : StrMap) (m : Druid)
    (g : ServiceGroup) : (k : Kind) → Obj k → Prop where
  | config : PlannedObject hash commonConfigSHA ls m g .configMap (plannedConfig hash m g)
  | service (svc : Object Service) (hsvc : svc ∈ serviceTemplates m g) :
      PlannedObject hash commonConfigSHA ls m g .service (plannedService hash m g svc)
  | workload (k : Kind) (obj : Obj k) (hobj : PlannedWorkload hash commonConfigSHA m g k obj) :
      PlannedObject hash commonConfigSHA ls m g k obj
  | ingress (obj : Obj .ingress) (hobj : plannedIngress hash ls m g = some obj) :
      PlannedObject hash commonConfigSHA ls m g .ingress obj
  | budget (obj : Obj .podDisruptionBudget) (hobj : plannedBudget hash m g = some obj) :
      PlannedObject hash commonConfigSHA ls m g .podDisruptionBudget obj
  | autoscaler (obj : Obj .horizontalPodAutoscaler)
      (hobj : plannedAutoscaler hash ls m g = some obj) :
      PlannedObject hash commonConfigSHA ls m g .horizontalPodAutoscaler obj

section Group

variable (hash : Hash) (commonConfigSHA : String) (ls : StrMap) (m : Druid) (g : ServiceGroup)

theorem sends_applyWorkload :
    (applyWorkload hash commonConfigSHA m g).Uses
      (Sends (PlannedObject hash commonConfigSHA ls m g)) := by
  unfold applyWorkload
  split_ifs with hkind
  · split
    · trivial
    · next obj hobj =>
        refine Uses.bind (sends_createOrUpdate (k := .deployment) _ fun _ =>
          .workload _ _ (.deployment hkind obj hobj)) fun status => ?_
        exact sends_of_within (A := fun _ _ _ => False) (uses_afterDeployment _ _ _)
          fun _ _ _ hw => hw.elim
  · refine Uses.bind (sends_of_within (uses_expandIfAsked _ _ _) ?_) fun _ =>
      Uses.bind (sends_createOrUpdate (k := .statefulSet) _ fun _ =>
        .workload _ _ (.statefulSet hkind)) fun status => ?_
    · rintro v k key hw (rfl | rfl) <;> simp [expands] at hw
    · refine sends_of_within (uses_afterStatefulSet _ _ _ _) ?_
      rintro v k key ⟨rfl, -⟩ (hv | hv) <;> cases hv

theorem sends_applyRest :
    (applyRest hash ls m g).Uses (Sends (PlannedObject hash commonConfigSHA ls m g)) := by
  refine (sends_applyOption rfl fun obj hobj => .ingress obj hobj).bind fun _ => ?_
  refine (sends_applyOption rfl fun obj hobj => .budget obj hobj).bind fun _ => ?_
  refine (sends_applyOption rfl fun obj hobj => .autoscaler obj hobj).bind fun _ => ?_
  exact Uses.forEach fun pvc _ => sends_applyObj (k := .persistentVolumeClaim) fun hk =>
    absurd rfl hk.2

theorem sends_applyGroup (l : Loop) :
    (applyGroup hash ls commonConfigSHA l g).Uses
      (Sends (PlannedObject hash commonConfigSHA ls l.m g)) := by
  refine (sends_applyObj (k := .configMap) fun _ => .config).bind fun _ => ?_
  refine Uses.bind (Uses.forEach fun obj hobj => ?_) fun _ => ?_
  · obtain ⟨svc, hsvc, rfl⟩ := List.mem_map.1 hobj
    exact sends_applyObj (k := .service) fun _ => .service svc hsvc
  · refine (sends_applyWorkload hash commonConfigSHA ls l.m g).bind fun goOn => ?_
    split_ifs
    · exact (sends_applyRest hash commonConfigSHA ls l.m g).bind fun _ => trivial
    · trivial

variable {hash commonConfigSHA ls m g}

theorem PlannedObject.of_withFinalizers {finalizers : List String} {k : Kind} {obj : Obj k}
    (hp : PlannedObject hash commonConfigSHA ls (withFinalizers m finalizers) g k obj) :
    PlannedObject hash commonConfigSHA ls m g k obj := by
  cases hp with
  | config => exact .config
  | service svc hsvc => exact .service svc hsvc
  | workload k obj hobj => exact .workload _ _ hobj.of_withFinalizers
  | ingress obj hobj => exact .ingress obj hobj
  | budget obj hobj => exact .budget obj hobj
  | autoscaler obj hobj => exact .autoscaler obj hobj

end Group

/-! ## The whole call -/

/-- The objects a call sends for its groups: each is planned after the groups in `done`. -/
inductive SentForGroup (hash : Hash) (o : MapOrders) (m : Druid) : (k : Kind) → Obj k → Prop where
  | intro (commonConfigSHA : String) (done rest : List ServiceGroup) (g : ServiceGroup)
      (hgroups : getNodeSpecsByOrder o.groups m = done ++ g :: rest)
      (hdone : ∀ g' ∈ done, MakesWorkload g') (k : Kind) (obj : Obj k)
      (hobj : PlannedObject hash commonConfigSHA (makeLabelsForDruid m)
        (seenAfter hash commonConfigSHA m done) g k obj) : SentForGroup hash o m k obj

/-- The objects of a call: the common ConfigMap, and those of the groups. -/
inductive SentObject (hash : Hash) (o : MapOrders) (m : Druid) : (k : Kind) → Obj k → Prop where
  | common (data : StrMap) : SentObject hash o m .configMap
      (prepare hash m (makeConfigMap (commonConfigName m) m.ns (makeLabelsForDruid m) data))
  | ofGroup (k : Kind) (obj : Obj k)
      (hobj : SentForGroup hash o m k obj) : SentObject hash o m k obj

section Call

variable (hash : Hash) (o : MapOrders) (m : Druid)

/-- The loop over the groups, from the turn after those in `done`. -/
theorem sends_loop (commonConfigSHA : String) (finalizers : List String)
    {rest : List ServiceGroup} :
    ∀ (done : List ServiceGroup) {l : Loop}, getNodeSpecsByOrder o.groups m = done ++ rest →
      (∀ g' ∈ done, MakesWorkload g') →
      l.m = withFinalizers (seenAfter hash commonConfigSHA m done) finalizers →
      (iterate (applyGroup hash (makeLabelsForDruid m) commonConfigSHA) l rest).Uses
        (Sends (SentForGroup hash o m)) := by
  induction rest with
  | nil => exact fun _ _ _ _ _ => trivial
  | cons g rest ih =>
      intro done l hgroups hdone hl
      refine Uses.bindYields ((sends_applyGroup hash commonConfigSHA _ g l).mono
        fun r hr => hr.mono ?_)
        (yields_applyGroup hash (makeLabelsForDruid m) commonConfigSHA l g) fun x hx => ?_
      · intro k obj _ hobj
        rw [hl] at hobj
        exact .intro commonConfigSHA done rest g hgroups hdone k obj hobj.of_withFinalizers
      · cases x with
        | none => trivial
        | some l' =>
            obtain ⟨hmakes, rfl⟩ := hx l' rfl
            refine ih (done ++ [g]) (by simpa using hgroups) ?_ ?_
            · intro g' hg'
              rcases List.mem_append.1 hg' with hg' | hg'
              · exact hdone g' hg'
              · rwa [List.mem_singleton.1 hg']
            · rw [seenAfter_append_singleton, ← afterGroup_withFinalizers, ← hl]
              rfl

theorem sends_finishDeploy {P : (k : Kind) → Obj k → Prop} (ls : StrMap) (l : Loop) :
    (finishDeploy ls l).Uses (Sends P) := by
  refine (sends_of_within (uses_collectOrphans l.m) ?_).bind fun _ =>
    sends_of_within (uses_updateStatus ls l) ?_
  · rintro v k key ⟨-, rfl⟩ - hk
    exact hk.2 rfl
  · rintro v k key (⟨rfl, -⟩ | ⟨rfl, -⟩) (hv | hv) <;> cases hv

theorem yields_makeCommonConfigMap_data (ls : StrMap) :
    (makeCommonConfigMap m ls).Yields fun obj =>
      ∃ data, obj = makeConfigMap (commonConfigName m) m.ns ls data :=
  (yields_true _).bind fun _ _ => (yields_true _).bind fun data _ => ⟨data, rfl⟩

theorem sends_applyCommonConfig :
    (applyCommonConfig hash m).Uses (Sends (SentObject hash o m)) := by
  have hmake : (makeCommonConfigMap m (makeLabelsForDruid m)).Uses (Sends (SentObject hash o m)) :=
    sends_of_within (A := fun _ _ _ => False) (uses_makeCommonConfigMap m _)
      fun _ _ _ hw => hw.elim
  refine hmake.bind fun _ => hmake.bindYields (yields_makeCommonConfigMap_data m _) ?_
  rintro obj ⟨data, rfl⟩
  exact (sends_createOrUpdate (k := .configMap) _ fun _ => .common data).bind fun _ => trivial

/-- From the finalizers on, only objects of the groups are sent. -/
theorem sends_deployNodes (commonConfigSHA commonName : String) :
    (deployNodes hash o (makeLabelsForDruid m) commonConfigSHA commonName m).Uses
      (Sends (SentForGroup hash o m)) := by
  rw [deployNodes_eq]
  refine Uses.bindYields (sends_of_within (uses_updateFinalizers m) ?_)
    (yields_updateFinalizers m) ?_
  · rintro v k key ⟨rfl, -⟩ (hv | hv) <;> cases hv
  · rintro updated ⟨finalizers, rfl⟩
    have hloop := sends_loop hash o m commonConfigSHA finalizers []
      (l := Loop.named ⟨withFinalizers m finalizers, fun _ => []⟩ .configMap [commonName]) rfl
      (by simp) rfl
    rw [loopThenFinish, iterate_deployNode]
    refine hloop.bind fun x => ?_
    cases x with
    | none => trivial
    | some l => exact sends_finishDeploy _ l

theorem sends_executeFinalizers {P : (k : Kind) → Obj k → Prop} :
    (executeFinalizers m).Uses (Sends P) := by
  refine sends_of_within (uses_executeFinalizers m) ?_
  rintro v k key (⟨rfl, -⟩ | ⟨-, rfl, -⟩) hv hk
  · rcases hv with hv | hv <;> cases hv
  · exact hk.1 rfl

/-- **Nothing but the plan is sent.** -/
theorem sends_deployDruidCluster :
    (deployDruidCluster hash o m).Uses (Sends (SentObject hash o m)) := by
  rw [deployDruidCluster_eq]
  split
  · trivial
  · refine (sends_applyCommonConfig hash o m).bind fun common => ?_
    split_ifs
    · exact sends_executeFinalizers m
    · refine (sends_deployNodes hash o m common.1 common.2).mono fun r hr => hr.mono ?_
      exact fun k obj _ hobj => .ofGroup k obj hobj

end Call

end DruidOperator.Controller
