import DruidOperator.RollingDeploy

/-!
# What is sent for a workload

Every StatefulSet and every Deployment that one `deployDruidCluster` call creates or updates is the
workload planned for one of its node groups, and it was looked up just before it was written. What
is planned for a group depends on the groups before it through the maps they share with the
resource, and on nothing else of the loop.

`workload_sent` says this for every handler. It carries along whatever the rest of the call cannot
change about the workload, so a caller learns in which state the workload was looked up.
-/

namespace DruidOperator.Controller

open Interaction Prog Kube

variable {g : ServiceGroup} {commonConfigSHA : String} {m : Druid}

/-- The resource as the groups in `done` leave it to the next one. -/
def seenAfter (hash : Hash) (commonConfigSHA : String) (m : Druid) (done : List ServiceGroup) :
    Druid :=
  done.foldl (afterGroup hash commonConfigSHA) m

theorem seenAfter_append_singleton (hash : Hash) (commonConfigSHA : String) (m : Druid)
    (done : List ServiceGroup) (g : ServiceGroup) :
    seenAfter hash commonConfigSHA m (done ++ [g]) =
      afterGroup hash commonConfigSHA (seenAfter hash commonConfigSHA m done) g := by
  simp [seenAfter]

theorem sameIdentity_seenAfter (hash : Hash) (commonConfigSHA : String) (m : Druid)
    (done : List ServiceGroup) : SameIdentity m (seenAfter hash commonConfigSHA m done) := by
  induction done generalizing m with
  | nil => exact .refl m
  | cons g done ih => exact (sameIdentity_afterGroup hash commonConfigSHA m g).trans (ih _)

/-- Both bounds of a Deployment are set or none of them is; otherwise making it panics. -/
def MakesWorkload (g : ServiceGroup) : Prop :=
  g.spec.kind = "Deployment" → g.spec.maxUnavailable.isSome = g.spec.maxSurge.isSome

theorem makesWorkload_iff (hkind : g.spec.kind = "Deployment") :
    MakesWorkload g ↔ ∃ ru, getRollingUpdateStrategy (withDruidPort g.spec) = .ok ru := by
  show MakesWorkload g ↔ ∃ ru, getRollingUpdateStrategy g.spec = .ok ru
  unfold MakesWorkload getRollingUpdateStrategy
  cases g.spec.maxUnavailable <;> cases g.spec.maxSurge <;> simp [hkind]

theorem makesWorkload_of_planned {hash : Hash} {obj : Obj .deployment}
    (hobj : plannedDeployment hash commonConfigSHA m g = .ok obj) : MakesWorkload g := by
  intro hkind
  refine (makesWorkload_iff hkind).2 ?_ hkind
  obtain ⟨made, hmade, -⟩ := plannedDeployment_made hobj
  obtain ⟨ru, hru, -⟩ := makeDeployment_made hmade
  exact ⟨ru, hru⟩

/-- The workload planned for a group, of whichever kind. -/
inductive PlannedWorkload (hash : Hash) (commonConfigSHA : String) (m : Druid) (g : ServiceGroup) :
    (k : Kind) → Obj k → Prop where
  | statefulSet (hkind : g.spec.kind ≠ "Deployment") :
      PlannedWorkload hash commonConfigSHA m g .statefulSet
        (plannedStatefulSet hash commonConfigSHA m g)
  | deployment (hkind : g.spec.kind = "Deployment") (obj : Obj .deployment)
      (hobj : plannedDeployment hash commonConfigSHA m g = .ok obj) :
      PlannedWorkload hash commonConfigSHA m g .deployment obj

namespace PlannedWorkload

variable {hash : Hash} {commonConfigSHA : String} {m : Druid} {g : ServiceGroup} {k : Kind}
  {obj : Obj k}

theorem kind_eq (hp : PlannedWorkload hash commonConfigSHA m g k obj) :
    workloadKind g.spec = k := by
  cases hp with
  | statefulSet hkind => exact if_neg hkind
  | deployment hkind obj hobj => exact if_pos hkind

theorem key_eq (hp : PlannedWorkload hash commonConfigSHA m g k obj) :
    obj.key = (m.ns, groupName m g) := by
  cases hp with
  | statefulSet hkind => exact plannedStatefulSet_key ..
  | deployment hkind obj hobj => exact plannedDeployment_key hobj

theorem labels_eq (hp : PlannedWorkload hash commonConfigSHA m g k obj) :
    obj.metadata.labels = some (groupLabels m g) := by
  cases hp with
  | statefulSet hkind => rfl
  | deployment hkind obj hobj =>
      obtain ⟨made, hmade, rfl⟩ := plannedDeployment_made hobj
      obtain ⟨ru, -, rfl⟩ := makeDeployment_made hmade
      rfl

theorem annotations_eq (hp : PlannedWorkload hash commonConfigSHA m g k obj) :
    obj.metadata.annotations = plannedAnnotations hash commonConfigSHA m g := by
  unfold plannedAnnotations
  cases hp with
  | statefulSet hkind => rw [if_neg hkind]
  | deployment hkind obj hobj => rw [if_pos hkind, hobj]

theorem makes (hp : PlannedWorkload hash commonConfigSHA m g k obj) : MakesWorkload g := by
  cases hp with
  | statefulSet hkind => exact fun hkind' => absurd hkind' hkind
  | deployment hkind obj hobj => exact makesWorkload_of_planned hobj

end PlannedWorkload

/-! ## The bookkeeping makes no difference -/

/-- The resource with other bookkeeping: what the controller and the API server write into it. -/
def rewritten (m : Druid) (finalizers : List String) (version : ℕ) (status : DruidClusterStatus) :
    Druid :=
  { m with
    metadata := { m.metadata with finalizers := finalizers, resourceVersion := version }
    body := { m.body with status := status } }

theorem withFinalizers_eq_rewritten {m' : Druid} (hmeta : m'.metadata = m.metadata)
    (hstatus : m'.body.status = m.body.status) (finalizers : List String) :
    withFinalizers m' finalizers =
      rewritten m' finalizers m.metadata.resourceVersion m.body.status := by
  rw [← hmeta, ← hstatus]
  rfl

section Bookkeeping

variable (hash : Hash) (commonConfigSHA : String) (m : Druid) (g : ServiceGroup)

theorem status_afterGroup : (afterGroup hash commonConfigSHA m g).body.status = m.body.status := by
  show (afterServices hash m g).body.status = m.body.status
  unfold afterServices druidAfterServices
  split_ifs <;> rfl

theorem status_seenAfter (done : List ServiceGroup) :
    (seenAfter hash commonConfigSHA m done).body.status = m.body.status := by
  induction done generalizing m with
  | nil => rfl
  | cons g done ih => exact (ih _).trans (status_afterGroup hash commonConfigSHA m g)

variable (finalizers : List String) (version : ℕ) (status : DruidClusterStatus)

theorem afterServices_rewritten :
    afterServices hash (rewritten m finalizers version status) g =
      rewritten (afterServices hash m g) finalizers version status := by
  show druidAfterServices (rewritten m finalizers version status) g.spec _ =
    rewritten (druidAfterServices m g.spec _) finalizers version status
  unfold druidAfterServices
  split_ifs <;> rfl

theorem plannedStatefulSet_rewritten :
    plannedStatefulSet hash commonConfigSHA (rewritten m finalizers version status) g =
      plannedStatefulSet hash commonConfigSHA m g := by
  unfold plannedStatefulSet
  rw [afterServices_rewritten]
  rfl

theorem plannedDeployment_rewritten :
    plannedDeployment hash commonConfigSHA (rewritten m finalizers version status) g =
      plannedDeployment hash commonConfigSHA m g := by
  unfold plannedDeployment
  rw [afterServices_rewritten]
  rfl

theorem afterGroup_rewritten :
    afterGroup hash commonConfigSHA (rewritten m finalizers version status) g =
      rewritten (afterGroup hash commonConfigSHA m g) finalizers version status := by
  unfold afterGroup plannedAnnotations
  rw [afterServices_rewritten, plannedStatefulSet_rewritten, plannedDeployment_rewritten]
  rfl

theorem afterGroup_withFinalizers :
    afterGroup hash commonConfigSHA (withFinalizers m finalizers) g =
      withFinalizers (afterGroup hash commonConfigSHA m g) finalizers := by
  rw [withFinalizers_eq_rewritten rfl rfl, afterGroup_rewritten,
    withFinalizers_eq_rewritten (sameIdentity_afterGroup hash commonConfigSHA m g).metadata
      (status_afterGroup hash commonConfigSHA m g)]

theorem seenAfter_withFinalizers (done : List ServiceGroup) :
    seenAfter hash commonConfigSHA (withFinalizers m finalizers) done =
      withFinalizers (seenAfter hash commonConfigSHA m done) finalizers := by
  induction done generalizing m with
  | nil => rfl
  | cons g done ih =>
      show seenAfter hash commonConfigSHA (afterGroup ..) done = _
      rw [afterGroup_withFinalizers, ih]
      rfl

variable {hash commonConfigSHA m g finalizers}

theorem PlannedWorkload.of_withFinalizers {k : Kind} {obj : Obj k}
    (hp : PlannedWorkload hash commonConfigSHA (withFinalizers m finalizers) g k obj) :
    PlannedWorkload hash commonConfigSHA m g k obj := by
  rw [withFinalizers_eq_rewritten rfl rfl] at hp
  cases hp with
  | statefulSet hkind =>
      rw [plannedStatefulSet_rewritten]
      exact .statefulSet hkind
  | deployment hkind obj hobj =>
      rw [plannedDeployment_rewritten] at hobj
      exact .deployment hkind obj hobj

end Bookkeeping

/-! ## Every workload that is written was planned -/

section Sent

variable {σ : Type} {h : Handler sig σ} {hash : Hash} {m : Druid} {I : σ → Prop} {k : Kind}
  {key : String × String}

/-- The step writes a workload of the kind `k` as planned, in a call that started in `start`. The
workload was looked up in a state that meets `I`, and was missing or had another hash. -/
inductive Sent (h : Handler sig σ) (hash : Hash) (m : Druid) (groups : List ServiceGroup)
    (start : σ) (I : σ → Prop) (k : Kind) : Step sig σ → Prop where
  | created (common : Obj .configMap)
      (hcommon : (exec h (makeCommonConfigMap m (makeLabelsForDruid m)) start).res = .ok common)
      (done rest : List ServiceGroup) (g : ServiceGroup) (hgroups : groups = done ++ g :: rest)
      (hdone : ∀ g' ∈ done, MakesWorkload g')
      (obj : Obj k) (hobj : PlannedWorkload hash (hash .configMap common)
        (seenAfter hash (hash .configMap common) m done) g k obj)
      (t : σ) (ht : I t) (err : Error) (hget : (h (.get k obj.ns obj.name) t).1 = .error err)
      (answer : Except Error Unit) :
      Sent h hash m groups start I k ⟨(h (.get k obj.ns obj.name) t).2, .create k obj, answer⟩
  | updated (common : Obj .configMap)
      (hcommon : (exec h (makeCommonConfigMap m (makeLabelsForDruid m)) start).res = .ok common)
      (done rest : List ServiceGroup) (g : ServiceGroup) (hgroups : groups = done ++ g :: rest)
      (hdone : ∀ g' ∈ done, MakesWorkload g')
      (obj : Obj k) (hobj : PlannedWorkload hash (hash .configMap common)
        (seenAfter hash (hash .configMap common) m done) g k obj)
      (t : σ) (ht : I t) (prev : Obj k) (hget : (h (.get k obj.ns obj.name) t).1 = .ok prev)
      (hhash : hashOf obj ≠ hashOf prev) (answer : Except Error Unit) :
      Sent h hash m groups start I k
        ⟨(h (.get k obj.ns obj.name) t).2, .update k (sent noopUpdaterFn obj prev), answer⟩

/-- A step that writes the object `key` meets `R`. -/
def WritesMeet (k : Kind) (key : String × String) (R : Step sig σ → Prop) (e : Step sig σ) : Prop :=
  ∀ v, (v = .create ∨ v = .update) → e.req.write = some (v, k, key) → R e

theorem triple_of_spares {α : Type} {p : Code α} {A : Verb → Kind → String × String → Prop}
    {R : Step sig σ → Prop} (hp : p.Uses (Request.Within A))
    (hA : ∀ v k' key', A v k' key' → ¬ applies k key v k' key')
    (hI : ∀ r, r.Within (fun v k' key' => ¬ applies k key v k' key') → ∀ s, I s → I (h r s).2) :
    Triple h I p (fun _ => I) (WritesMeet k key R) := by
  refine Triple.ofUses (hp.mono fun r hr s hs => ⟨hI r (hr.mono hA) s hs, ?_⟩)
  intro v hv hwrite
  exact absurd ⟨hv, rfl, rfl⟩ (hA _ _ _ (hr _ _ _ hwrite))

/-- Applying the workload of a group: what is written is the planned workload. -/
theorem triple_createOrUpdate {isEqualFn : Obj k → Obj k → Bool}
    (hequal : ∀ prev obj, isEqualFn prev obj = true) {obj : Obj k} {R : Step sig σ → Prop}
    (hcreated : ∀ t, I t → ∀ err, (h (.get k obj.ns obj.name) t).1 = .error err → ∀ answer,
      R ⟨(h (.get k obj.ns obj.name) t).2, .create k obj, answer⟩)
    (hupdated : ∀ t, I t → ∀ prev, (h (.get k obj.ns obj.name) t).1 = .ok prev →
      hashOf obj ≠ hashOf prev → ∀ answer,
      R ⟨(h (.get k obj.ns obj.name) t).2, .update k (sent noopUpdaterFn obj prev), answer⟩) :
    Triple h I (createOrUpdate isEqualFn noopUpdaterFn obj) (fun _ _ => True)
      (WritesMeet k key R) := by
  intro s hs
  refine ⟨trivial, fun e he v hv hwrite => ?_⟩
  have hcourse := exec_createOrUpdate (h := h) isEqualFn noopUpdaterFn obj s
  generalize exec h (createOrUpdate isEqualFn noopUpdaterFn obj) s = o at hcourse he
  -- the look-up itself writes nothing
  have hreads : ∀ answer, e ≠ ⟨s, .get k obj.ns obj.name, answer⟩ := by
    rintro answer rfl
    cases hwrite
  cases hcourse with
  | getFailed err hget hfound msg => exact absurd (List.mem_singleton.1 he) (hreads _)
  | unchanged prev hget hhash => exact absurd (List.mem_singleton.1 he) (hreads _)
  | created err hget hfound t ht answer hanswer =>
      rcases List.mem_cons.1 he with he | he
      · exact absurd he (hreads _)
      · rw [List.mem_singleton.1 he, ← ht]
        exact hcreated s hs err hget answer
  | updated prev hget hhash t ht answer hanswer =>
      rcases List.mem_cons.1 he with he | he
      · exact absurd he (hreads _)
      · rw [List.mem_singleton.1 he, ← ht]
        refine hupdated s hs prev hget ?_ answer
        exact hhash.resolve_right (by simp [hequal])

theorem spares_expands (v : Verb) (k' : Kind) (key' : String × String) (hw : expands v k' key') :
    ¬ applies k key v k' key' := by
  rintro ⟨rfl | rfl, -⟩ <;> simp [expands] at hw

theorem spares_deletesKind (kd : Kind) (v : Verb) (k' : Kind) (key' : String × String)
    (hw : deletesKind kd v k' key') : ¬ applies k key v k' key' := by
  rintro ⟨rfl | rfl, -⟩ <;> simp [deletesKind] at hw

theorem triple_applyWorkload {R : Step sig σ → Prop}
    (hI : ∀ r, r.Within (fun v k' key' => ¬ applies k key v k' key') → ∀ s, I s → I (h r s).2)
    (hk : workloadKind g.spec = k)
    (hcreated : ∀ obj, PlannedWorkload hash commonConfigSHA m g k obj → ∀ t, I t → ∀ err,
      (h (.get k obj.ns obj.name) t).1 = .error err → ∀ answer,
      R ⟨(h (.get k obj.ns obj.name) t).2, .create k obj, answer⟩)
    (hupdated : ∀ obj, PlannedWorkload hash commonConfigSHA m g k obj → ∀ t, I t → ∀ prev,
      (h (.get k obj.ns obj.name) t).1 = .ok prev → hashOf obj ≠ hashOf prev → ∀ answer,
      R ⟨(h (.get k obj.ns obj.name) t).2, .update k (sent noopUpdaterFn obj prev), answer⟩) :
    Triple h I (applyWorkload hash commonConfigSHA m g) (fun _ _ => True)
      (WritesMeet k key R) := by
  unfold applyWorkload
  by_cases hkind : g.spec.kind = "Deployment"
  · obtain rfl : Kind.deployment = k := (if_pos hkind).symm.trans hk
    rw [if_pos hkind]
    cases hobj : plannedDeployment hash commonConfigSHA m g with
    | error e => exact .exit fun _ _ => trivial
    | ok obj =>
        have hplan := PlannedWorkload.deployment hkind obj hobj
        refine Triple.bind (M := fun _ _ => True) ?_ fun status => ?_
        · refine (triple_createOrUpdate (fun _ _ => rfl) (hcreated obj hplan)
            (hupdated obj hplan)).conseq (fun _ hs => hs) (fun x _ _ => ?_) (fun _ he => he)
          cases x <;> trivial
        · exact triple_of_spares (uses_afterDeployment _ _ _) (spares_deletesKind .pod)
            (fun _ _ _ _ => trivial)
  · obtain rfl : Kind.statefulSet = k := (if_neg hkind).symm.trans hk
    have hplan : PlannedWorkload hash commonConfigSHA m g .statefulSet _ := .statefulSet hkind
    rw [if_neg hkind]
    refine Triple.bind (M := fun _ => I) ?_ fun _ => ?_
    · refine (triple_of_spares (uses_expandIfAsked _ _ _) spares_expands hI).conseq
        (fun _ hs => hs) (fun x _ hx => ?_) (fun _ he => he)
      cases x
      · trivial
      · exact hx
    · refine Triple.bind (M := fun _ _ => True) ?_ fun status => ?_
      · refine (triple_createOrUpdate (fun _ _ => rfl) (hcreated _ hplan)
          (hupdated _ hplan)).conseq (fun _ hs => hs) (fun x _ _ => ?_) (fun _ he => he)
        cases x <;> trivial
      · exact triple_of_spares (uses_afterStatefulSet _ _ _ _) (spares_deletesKind .pod)
          (fun _ _ _ _ => trivial)

theorem groupName_inj {g' : ServiceGroup} (hname : groupName m g = groupName m g') :
    g.key = g'.key :=
  String.append_right_inj _ |>.1 hname

/-- The object is the workload of the group. -/
def IsWorkloadOf (m : Druid) (k : Kind) (key : String × String) (g : ServiceGroup) : Prop :=
  workloadKind g.spec = k ∧ (m.ns, groupName m g) = key

theorem PlannedWorkload.isWorkloadOf {m' : Druid} {obj : Obj k}
    (hp : PlannedWorkload hash commonConfigSHA m' g k obj) (hid : SameIdentity m m') :
    IsWorkloadOf m k obj.key g := by
  refine ⟨hp.kind_eq, ?_⟩
  rw [hp.key_eq, hid.ns_eq, groupName_congr hid.name_eq]

/-- A turn for a group writes no other workload than that of the group. -/
theorem spares_deploysNode (hk : k = .statefulSet ∨ k = .deployment) (hg : ¬ IsWorkloadOf m k key g)
    (v : Verb) (k' : Kind) (key' : String × String)
    (hw : deploysNode (workloadKind g.spec) (m.ns, groupName m g) v k' key') :
    ¬ applies k key v k' key' := by
  rintro ⟨hv, rfl, rfl⟩
  rcases hw with (⟨-, hk', hkey⟩ | hw | hw) | ⟨-, rfl⟩ | ⟨-, rfl⟩ | ⟨-, hk'⟩
  · exact hg ⟨hk'.symm, hkey.symm⟩
  · exact spares_expands _ _ _ hw ⟨hv, rfl, rfl⟩
  · exact spares_deletesKind _ _ _ _ hw ⟨hv, rfl, rfl⟩
  · rcases hk with hk | hk <;> cases hk
  · rcases hk with hk | hk <;> cases hk
  · rcases hk' with rfl | rfl | rfl | rfl <;> rcases hk with hk | hk <;> cases hk

theorem uses_applyBefore (hash : Hash) (m : Druid) (g : ServiceGroup) :
    (applyBefore hash m g).Uses (Request.Within fun v k' key' =>
      appliesKind .configMap v k' key' ∨ appliesKind .service v k' key') := by
  refine ((uses_applyObj (fun _ _ => rfl) _).mono fun r hr => hr.mono ?_).bind fun _ => ?_
  · exact fun v k key hw => .inl (appliesKind_of_applies v k key hw)
  · refine Uses.forEach fun svc _ => (uses_applyObj keepClusterIP_key svc).mono
      fun r hr => hr.mono ?_
    exact fun v k key hw => .inr (appliesKind_of_applies v k key hw)

theorem triple_turn {ls : StrMap} {l : Loop} {R : Step sig σ → Prop}
    (hk : k = .statefulSet ∨ k = .deployment)
    (hI : ∀ r, r.Within (fun v k' key' => ¬ applies k key v k' key') → ∀ s, I s → I (h r s).2)
    (hkind : workloadKind g.spec = k)
    (hcreated : ∀ obj, PlannedWorkload hash commonConfigSHA l.m g k obj → ∀ t, I t → ∀ err,
      (h (.get k obj.ns obj.name) t).1 = .error err → ∀ answer,
      R ⟨(h (.get k obj.ns obj.name) t).2, .create k obj, answer⟩)
    (hupdated : ∀ obj, PlannedWorkload hash commonConfigSHA l.m g k obj → ∀ t, I t → ∀ prev,
      (h (.get k obj.ns obj.name) t).1 = .ok prev → hashOf obj ≠ hashOf prev → ∀ answer,
      R ⟨(h (.get k obj.ns obj.name) t).2, .update k (sent noopUpdaterFn obj prev), answer⟩) :
    Triple h I (applyGroup hash ls commonConfigSHA l g) (fun _ _ => True) (WritesMeet k key R) := by
  rw [applyGroup_eq]
  refine Triple.bind (M := fun _ => I) ?_ fun _ => Triple.bind (M := fun _ _ => True) ?_
    fun goOn => ?_
  · refine (triple_of_spares (uses_applyBefore hash l.m g) ?_ hI).conseq (fun _ hs => hs)
      (fun x _ hx => ?_) (fun _ he => he)
    · rintro v k' key' (⟨-, rfl⟩ | ⟨-, rfl⟩) ⟨-, rfl, -⟩ <;> rcases hk with hk | hk <;> cases hk
    · cases x
      · trivial
      · exact hx
  · refine (triple_applyWorkload hI hkind hcreated hupdated).conseq (fun _ hs => hs)
      (fun x _ _ => ?_) (fun _ he => he)
    cases x <;> trivial
  · have hrest : (if goOn = true then applyRest hash ls l.m g >>= fun _ =>
        .ret (some (nextLoop hash commonConfigSHA ls l g)) else .ret none :
        Code (Option Loop)).Uses (Request.Within appliesRest) := by
      split_ifs
      · exact (uses_applyRest hash ls l.m g).bind fun _ => trivial
      · trivial
    refine triple_of_spares hrest ?_ (fun _ _ _ _ => trivial)
    rintro v k' key' ⟨-, hk'⟩ ⟨-, rfl, -⟩
    rcases hk' with rfl | rfl | rfl | rfl <;> rcases hk with hk | hk <;> cases hk

theorem yields_applyWorkload (hash : Hash) (commonConfigSHA : String) (m : Druid)
    (g : ServiceGroup) :
    (applyWorkload hash commonConfigSHA m g).Yields fun _ => MakesWorkload g := by
  unfold applyWorkload
  split_ifs with hkind
  · split
    · trivial
    · next obj hobj => exact (yields_true _).mono fun _ _ => makesWorkload_of_planned hobj
  · exact (yields_true _).mono fun _ _ hkind' => absurd hkind' hkind

/-- A turn that goes on made the workload, and leaves the variables as planned. -/
theorem yields_applyGroup (hash : Hash) (ls : StrMap) (commonConfigSHA : String) (l : Loop)
    (g : ServiceGroup) :
    (applyGroup hash ls commonConfigSHA l g).Yields fun x =>
      ∀ l', x = some l' → MakesWorkload g ∧ l' = nextLoop hash commonConfigSHA ls l g := by
  refine (yields_true _).bind fun _ _ => (yields_true _).bind fun _ _ =>
    (yields_applyWorkload hash commonConfigSHA l.m g).bind fun goOn hmakes => ?_
  split_ifs
  · refine (yields_true _).bind fun _ _ l' h => ?_
    cases h
    exact ⟨hmakes, rfl⟩
  · intro l' h
    cases h

/-- The loop over the groups. Until the turn of the group whose workload it is, the invariant
holds. -/
theorem triple_loop {ls : StrMap} {groups : List ServiceGroup} {R : Step sig σ → Prop}
    (hk : k = .statefulSet ∨ k = .deployment)
    (hI : ∀ r, r.Within (fun v k' key' => ¬ applies k key v k' key') → ∀ s, I s → I (h r s).2)
    (hnodup : (groups.map ServiceGroup.key).Nodup)
    (hcreated : ∀ done g rest, groups = done ++ g :: rest →
      (∀ g' ∈ done, MakesWorkload g') → ∀ obj, PlannedWorkload hash
      commonConfigSHA (seenAfter hash commonConfigSHA m done) g k obj → ∀ t, I t → ∀ err,
      (h (.get k obj.ns obj.name) t).1 = .error err → ∀ answer,
      R ⟨(h (.get k obj.ns obj.name) t).2, .create k obj, answer⟩)
    (hupdated : ∀ done g rest, groups = done ++ g :: rest →
      (∀ g' ∈ done, MakesWorkload g') → ∀ obj, PlannedWorkload hash
      commonConfigSHA (seenAfter hash commonConfigSHA m done) g k obj → ∀ t, I t → ∀ prev,
      (h (.get k obj.ns obj.name) t).1 = .ok prev → hashOf obj ≠ hashOf prev → ∀ answer,
      R ⟨(h (.get k obj.ns obj.name) t).2, .update k (sent noopUpdaterFn obj prev), answer⟩)
    {l : Loop} {finalizers : List String} (hl : l.m = withFinalizers m finalizers) :
    Triple h I (iterate (deployNode hash ls commonConfigSHA) l groups) (fun _ _ => True)
      (WritesMeet k key R) := by
  rw [iterate_deployNode]
  refine (Triple.iterate (I := fun l rest s => ∃ done, groups = done ++ rest ∧
    (∀ g' ∈ done, MakesWorkload g') ∧
    l.m = withFinalizers (seenAfter hash commonConfigSHA m done) finalizers ∧
    ((∃ g ∈ rest, IsWorkloadOf m k key g) → I s)) (fun l g rest => ?_)
      (fun _ _ _ => trivial) l).conseq
    (fun s hs => ⟨[], rfl, by simp, hl, fun _ => hs⟩) (fun _ _ hx => hx) (fun _ he => he)
  rintro s ⟨done, hgroups, hdone, hm, hs⟩
  have hid := sameIdentity_seenAfter hash commonConfigSHA m done
  have hns : l.m.ns = m.ns := by rw [hm]; exact hid.ns_eq
  have hname : l.m.name = m.name := by rw [hm]; exact hid.name_eq
  -- the variables after the turn
  have hnext : ∀ l', MakesWorkload g ∧ l' = nextLoop hash commonConfigSHA ls l g →
      groups = (done ++ [g]) ++ rest ∧ (∀ g' ∈ done ++ [g], MakesWorkload g') ∧
      l'.m = withFinalizers (seenAfter hash commonConfigSHA m (done ++ [g])) finalizers := by
    rintro l' ⟨hmakes, rfl⟩
    refine ⟨by rw [hgroups, List.append_assoc, List.singleton_append], ?_, ?_⟩
    · intro g' hg'
      rcases List.mem_append.1 hg' with hg' | hg'
      · exact hdone g' hg'
      · rwa [List.mem_singleton.1 hg']
    rw [seenAfter_append_singleton, ← afterGroup_withFinalizers, ← hm]
    rfl
  by_cases hg : IsWorkloadOf m k key g
  · have hplan : ∀ obj, PlannedWorkload hash commonConfigSHA l.m g k obj →
        PlannedWorkload hash commonConfigSHA (seenAfter hash commonConfigSHA m done) g k obj := by
      intro obj hobj
      rw [hm] at hobj
      exact hobj.of_withFinalizers
    have hturn : Triple h I (applyGroup hash ls commonConfigSHA l g) (fun _ _ => True)
        (WritesMeet k key R) :=
      triple_turn hk hI hg.1 (fun obj hobj => hcreated done g rest hgroups hdone obj
        (hplan obj hobj))
        (fun obj hobj => hupdated done g rest hgroups hdone obj (hplan obj hobj))
    refine ⟨?_, (hturn s (hs ⟨g, List.mem_cons_self, hg⟩)).2⟩
    cases hres : (exec h (applyGroup hash ls commonConfigSHA l g) s).res with
    | error e => trivial
    | ok x =>
        cases x with
        | none => trivial
        | some l' =>
            obtain ⟨hgroups', hdone', hm'⟩ :=
              hnext l' ((yields_applyGroup hash ls commonConfigSHA l g).result hres l' rfl)
            refine ⟨done ++ [g], hgroups', hdone', hm', ?_⟩
            rintro ⟨g', hg', -, hkey⟩
            -- no other group has the workload
            rw [hgroups, List.map_append, List.map_cons] at hnodup
            have hsame : g'.key = g.key := groupName_inj
              (congrArg Prod.snd (hkey.trans hg.2.symm))
            have hnot := (List.nodup_cons.1 (List.nodup_append.1 hnodup).2.1).1
            exact absurd (hsame ▸ List.mem_map_of_mem hg') hnot
  · have hspares : (applyGroup hash ls commonConfigSHA l g).Uses (Request.Within
        (deploysNode (workloadKind g.spec) (m.ns, groupName m g))) := by
      rw [← hns, ← groupName_congr hname]
      exact uses_applyGroup hash ls commonConfigSHA l g
    have hI' : ∀ r, r.Within (fun v k' key' => ¬ applies k key v k' key') → ∀ s,
        ((∃ g ∈ rest, IsWorkloadOf m k key g) → I s) →
        ((∃ g ∈ rest, IsWorkloadOf m k key g) → I (h r s).2) :=
      fun r hr s hs hex => hI r hr s (hs hex)
    have hfinal := triple_of_spares (R := R) hspares (spares_deploysNode hk hg) hI' s
      (fun ⟨g', hg', hw⟩ => hs ⟨g', List.mem_cons_of_mem g hg', hw⟩)
    refine ⟨?_, hfinal.2⟩
    cases hres : (exec h (applyGroup hash ls commonConfigSHA l g) s).res with
    | error e => trivial
    | ok x =>
        cases x with
        | none => trivial
        | some l' =>
            obtain ⟨hgroups', hdone', hm'⟩ :=
              hnext l' ((yields_applyGroup hash ls commonConfigSHA l g).result hres l' rfl)
            exact ⟨done ++ [g], hgroups', hdone', hm', hfinal.1⟩

theorem applyCommonConfig_common {s : σ} {common : String × String}
    (hres : (exec h (applyCommonConfig hash m) s).res = .ok common) :
    ∃ obj, (exec h (makeCommonConfigMap m (makeLabelsForDruid m)) s).res = .ok obj ∧
      common.1 = hash .configMap obj := by
  unfold applyCommonConfig at hres
  cases hobj : (exec h (makeCommonConfigMap m (makeLabelsForDruid m)) s).res with
  | error e => simp [exec_bind_error hobj] at hres
  | ok obj =>
      rw [exec_bind_ok hobj] at hres
      have hyields : (do
          let obj' ← makeCommonConfigMap m (makeLabelsForDruid m)
          let _ ← createOrUpdate alwaysTrueIsEqualsFn noopUpdaterFn (prepare hash m obj')
          return (hash .configMap obj, obj'.name) : Code (String × String)).Yields
          fun common => common.1 = hash .configMap obj :=
        (yields_true _).bind fun _ _ => (yields_true _).bind fun _ _ => rfl
      exact ⟨obj, rfl, hyields.result hres⟩

theorem triple_of_noWorkload {α : Type} {p : Code α} {A : Verb → Kind → String × String → Prop}
    {R : Step sig σ → Prop} (hk : k = .statefulSet ∨ k = .deployment)
    (hp : p.Uses (Request.Within A)) (hA : ∀ v k' key', A v k' key' → v = .create ∨ v = .update →
      k' ≠ .statefulSet ∧ k' ≠ .deployment)
    (hI : ∀ r, r.Within (fun v k' key' => ¬ applies k key v k' key') → ∀ s, I s → I (h r s).2) :
    Triple h I p (fun _ => I) (WritesMeet k key R) := by
  refine triple_of_spares hp ?_ hI
  rintro v k' key' hw ⟨hv, rfl, rfl⟩
  rcases hk with rfl | rfl
  · exact (hA _ _ _ hw hv).1 rfl
  · exact (hA _ _ _ hw hv).2 rfl

theorem noWorkload_finishDeploy (ls : StrMap) (l : Loop) :
    (finishDeploy ls l).Uses (Request.Within fun v k' _ => v = .create ∨ v = .update →
      k' ≠ .statefulSet ∧ k' ≠ .deployment) := by
  refine ((uses_collectOrphans l.m).mono fun r hr => hr.mono ?_).bind fun _ =>
    (uses_updateStatus ls l).mono fun r hr => hr.mono ?_
  · rintro v k' key' ⟨-, rfl⟩ -
    decide
  · rintro v k' key' (⟨rfl, -⟩ | ⟨rfl, -⟩) (hv | hv) <;> cases hv

theorem triple_deployNodes {commonName : String} {o : MapOrders} {R : Step sig σ → Prop}
    (hk : k = .statefulSet ∨ k = .deployment)
    (hI : ∀ r, r.Within (fun v k' key' => ¬ applies k key v k' key') → ∀ s, I s → I (h r s).2)
    (hcreated : ∀ done g rest, getNodeSpecsByOrder o.groups m = done ++ g :: rest →
      (∀ g' ∈ done, MakesWorkload g') → ∀ obj,
      PlannedWorkload hash commonConfigSHA (seenAfter hash commonConfigSHA m done) g k obj → ∀ t,
      I t → ∀ err, (h (.get k obj.ns obj.name) t).1 = .error err → ∀ answer,
      R ⟨(h (.get k obj.ns obj.name) t).2, .create k obj, answer⟩)
    (hupdated : ∀ done g rest, getNodeSpecsByOrder o.groups m = done ++ g :: rest →
      (∀ g' ∈ done, MakesWorkload g') → ∀ obj,
      PlannedWorkload hash commonConfigSHA (seenAfter hash commonConfigSHA m done) g k obj → ∀ t,
      I t → ∀ prev, (h (.get k obj.ns obj.name) t).1 = .ok prev → hashOf obj ≠ hashOf prev →
      ∀ answer, R ⟨(h (.get k obj.ns obj.name) t).2, .update k (sent noopUpdaterFn obj prev),
        answer⟩) :
    Triple h I (deployNodes hash o (makeLabelsForDruid m) commonConfigSHA commonName m)
      (fun _ _ => True) (WritesMeet k key R) := by
  rw [deployNodes_eq]
  refine Triple.bind (M := fun updated s => (∃ finalizers,
    updated = withFinalizers m finalizers) ∧ I s) ?_ fun updated => ?_
  · intro t ht
    have hpatch := triple_of_noWorkload (R := R) hk (uses_updateFinalizers m)
      (by rintro v k' key' ⟨rfl, -⟩ (hv | hv) <;> cases hv) hI t ht
    refine ⟨?_, hpatch.2⟩
    cases hupd : (exec h (updateFinalizers m) t).res with
    | error err => trivial
    | ok updated => exact ⟨(yields_updateFinalizers m).result hupd, hpatch.1⟩
  · rintro t ⟨⟨finalizers, rfl⟩, ht⟩
    have hfinish : ∀ l, Triple h (fun _ => True) (finishDeploy (makeLabelsForDruid m) l)
        (fun _ _ => True) (WritesMeet k key R) := fun l =>
      triple_of_noWorkload hk (noWorkload_finishDeploy _ l) (fun _ _ _ hw => hw)
        (fun _ _ _ _ => trivial)
    refine (Triple.bind (M := fun _ _ => True) (Q := fun _ _ => True) ?_ fun x => ?_ :
      Triple h I (loopThenFinish hash (makeLabelsForDruid m) commonConfigSHA _ _) _ _) t ht
    · refine (triple_loop hk hI (nodup_getNodeSpecsByOrder o.groups m) hcreated hupdated
        rfl).conseq (fun _ hs => hs) (fun x _ _ => ?_) (fun _ he => he)
      cases x <;> trivial
    · cases x with
      | none => exact .ret fun _ _ => trivial
      | some l => exact hfinish l

/-- **Every workload that is written was planned.** In one call, whatever is answered, a workload
that is created or updated is the one planned for its group, and was looked up just before in a
state that still meets any `I` the call keeps until it writes that workload. -/
theorem workload_sent (h : Handler sig σ) (hash : Hash) (o : MapOrders) (m : Druid)
    (hk : k = .statefulSet ∨ k = .deployment)
    (hI : ∀ r, r.Within (fun v k' key' => ¬ applies k key v k' key') → ∀ s, I s → I (h r s).2)
    {s : σ} (hs : I s) {e : Step sig σ} (he : e ∈ (exec h (deployDruidCluster hash o m) s).steps)
    {v : Verb} (hv : v = .create ∨ v = .update) (hwrite : e.req.write = some (v, k, key)) :
    Sent h hash m (getNodeSpecsByOrder o.groups m) s I k e := by
  rw [deployDruidCluster_eq] at he
  cases hverify : verifyDruidSpec o m with
  | error err =>
      rw [hverify] at he
      cases he
  | ok u =>
      rw [hverify] at he
      have hcommon :=
        triple_of_noWorkload (R := Sent h hash m (getNodeSpecsByOrder o.groups m) s I k)
        hk (uses_applyCommonConfig hash m) (by rintro v k' key' ⟨-, rfl, -⟩ -; decide) hI s hs
      cases hres : (exec h (applyCommonConfig hash m) s).res with
      | error err =>
          rw [exec_bind_error hres] at he
          exact hcommon.2 e he v hv hwrite
      | ok common =>
          rw [exec_bind_ok hres] at he
          obtain ⟨obj, hobj, hsha⟩ := applyCommonConfig_common hres
          rcases List.mem_append.1 he with he | he
          · exact hcommon.2 e he v hv hwrite
          · by_cases hdel : m.metadata.deletionTimestamp.isSome
            · rw [if_pos hdel] at he
              refine (triple_of_noWorkload hk (uses_executeFinalizers m) ?_ hI _ hcommon.1).2 e he v
                hv hwrite
              rintro v k' key' (⟨rfl, -⟩ | ⟨-, rfl, -⟩) hv
              · rcases hv with hv | hv <;> cases hv
              · decide
            · rw [if_neg hdel, hsha] at he
              refine (triple_deployNodes hk hI ?_ ?_ _ hcommon.1).2 e he v hv hwrite
              · intro done g rest hgroups hdone planned hplan t ht err hget answer
                exact .created obj hobj done rest g hgroups hdone planned hplan t ht err hget answer
              · intro done g rest hgroups hdone planned hplan t ht prev hget hhash answer
                exact .updated obj hobj done rest g hgroups hdone planned hplan t ht prev hget
                  hhash answer

/-- Apart from its version, a workload that is written is the one planned for its group. The common
ConfigMap that its hash is taken of is the one made first. -/
theorem workload_planned (h : Handler sig σ) (hash : Hash) (o : MapOrders) (m : Druid)
    (hk : k = .statefulSet ∨ k = .deployment) {s : σ} {e : Step sig σ}
    (he : e ∈ (exec h (deployDruidCluster hash o m) s).steps) {obj : Obj k}
    (hreq : e.req = .create k obj ∨ e.req = .update k obj) :
    ∃ common done g rest planned version,
      (exec h (makeCommonConfigMap m (makeLabelsForDruid m)) s).res = .ok common ∧
      getNodeSpecsByOrder o.groups m = done ++ g :: rest ∧ (∀ g' ∈ done, MakesWorkload g') ∧
      PlannedWorkload hash (hash .configMap common) (seenAfter hash (hash .configMap common) m done)
        g k planned ∧
      obj = planned.withResourceVersion version := by
  obtain ⟨v, hv, hwrite⟩ : ∃ v, (v = .create ∨ v = .update) ∧
      e.req.write = some (v, k, obj.key) := by
    rcases hreq with hreq | hreq
    · exact ⟨.create, .inl rfl, by rw [hreq]; rfl⟩
    · exact ⟨.update, .inr rfl, by rw [hreq]; rfl⟩
  have hsent := workload_sent (I := fun _ => True) h hash o m hk (fun _ _ _ _ => trivial)
    trivial he hv hwrite
  cases hsent with
  | created common hcommon done rest g hgroups hdone planned hplanned t ht err hget answer =>
      obtain rfl : planned = obj := by simpa using hreq
      exact ⟨common, done, g, rest, planned, _, hcommon, hgroups, hdone, hplanned, rfl⟩
  | updated common hcommon done rest g hgroups hdone planned hplanned t ht prev hget hhash answer =>
      obtain rfl : sent noopUpdaterFn planned prev = obj := by simpa using hreq
      exact ⟨common, done, g, rest, planned, _, hcommon, hgroups, hdone, hplanned, rfl⟩

end Sent

/-! ## What is updated was stored -/

section Stored

variable {env : Env} {k : Kind} {key : String × String} {R : Obj k → Obj k → Prop}

/-- The object `key`, if it is stored in `c'`, was stored in `c`, and is related to what it was. -/
def StoredSince (R : Obj k → Obj k → Prop) (key : String × String) (c c' : Cluster) : Prop :=
  ∀ obj, (c'.store k).find? key = some obj →
    ∃ obj₀, (c.store k).find? key = some obj₀ ∧ R obj₀ obj

theorem StoredSince.refl (hR : ∀ obj, R obj obj) (c : Cluster) : StoredSince R key c c :=
  fun obj hobj => ⟨obj, hobj, hR obj⟩

theorem StoredSince.trans (hR : ∀ a b c, R a b → R b c → R a c) {c c' c'' : Cluster}
    (h : StoredSince R key c c') (h' : StoredSince R key c' c'') : StoredSince R key c c'' := by
  intro obj hobj
  obtain ⟨obj', hobj', hrel'⟩ := h' obj hobj
  obtain ⟨obj₀, hobj₀, hrel⟩ := h obj' hobj'
  exact ⟨obj₀, hobj₀, hR _ _ _ hrel hrel'⟩

theorem storedSince_perform (hR : ∀ obj, R obj obj) (hk : k = .statefulSet ∨ k = .deployment)
    {r : Request} (hr : r.Within fun v k' key' => ¬ applies k key v k' key') (clock : Int)
    (c : Cluster) : StoredSince R key c (perform clock r c).2 := by
  by_cases hwrite : ∃ v, r.write = some (v, k, key)
  · obtain ⟨v, hwrite⟩ := hwrite
    have hnot := hr _ _ _ hwrite
    cases r with
    | delete k' obj orphan =>
        obtain ⟨-, rfl, rfl⟩ : Verb.delete = v ∧ k' = k ∧ obj.key = key := by
          simpa [Request.write] using hwrite
        intro o ho
        simp only [perform] at ho
        split at ho
        · next hnone => exact absurd (hnone.symm.trans ho) (by simp)
        · dsimp only at ho
          rw [Cluster.modify_store_self, Table.find?_erase, if_pos rfl] at ho
          cases ho
    | create k' obj =>
        obtain ⟨rfl, rfl, rfl⟩ : Verb.create = v ∧ k' = k ∧ obj.key = key := by
          simpa [Request.write] using hwrite
        exact absurd ⟨.inl rfl, rfl, rfl⟩ hnot
    | update k' obj =>
        obtain ⟨rfl, rfl, rfl⟩ : Verb.update = v ∧ k' = k ∧ obj.key = key := by
          simpa [Request.write] using hwrite
        exact absurd ⟨.inr rfl, rfl, rfl⟩ hnot
    | patchClaim base obj => rcases hk with rfl | rfl <;> cases hwrite
    | patchFinalizers cr finalizers => rcases hk with rfl | rfl <;> cases hwrite
    | patchStatus cr status => rcases hk with rfl | rfl <;> cases hwrite
    | _ => cases hwrite
  · intro o ho
    rw [perform_frame fun v hv => hwrite ⟨v, hv⟩] at ho
    exact ⟨o, ho, hR o⟩

theorem storedSince_serve (hR : ∀ obj, R obj obj) (hk : k = .statefulSet ∨ k = .deployment)
    {r : Request} (hr : r.Within fun v k' key' => ¬ applies k key v k' key') (s : World) :
    StoredSince R key (env.seen s) (serve env r s).2.cluster := by
  rcases serve_state env r s with hstate | hstate
  · rw [hstate]
    exact storedSince_perform hR hk hr env.clock (env.seen s)
  · rw [hstate]
    exact .refl hR (env.seen s)

/-- A successful look-up finds what is stored when it is served, and changes nothing. -/
theorem serve_get_ok {ns name : String} {t : World} {obj : Obj k} (hk : k ≠ .storageClass)
    (hget : (serve env (.get k ns name) t).1 = .ok obj) :
    (serve env (.get k ns name) t).2.cluster = env.seen t ∧
      ((env.seen t).store k).find? (ns, name) = some obj := by
  have hstate : (serve env (.get k ns name) t).2.cluster = env.seen t := by
    rcases serve_state env (.get k ns name) t with hstate | hstate
    · rw [hstate, perform_read rfl]
    · rw [hstate]
  have hfound := find?_of_get hget
  rw [Cluster.find?, Cluster.scope, if_neg hk] at hfound
  exact ⟨hstate, hfound⟩

/-- The hash of the workload that a call started in `w` plans for the group; none if the common
configuration cannot be made. -/
def plannedHash (env : Env) (hash : Hash) (o : MapOrders) (m : Druid) (w : World)
    (g : ServiceGroup) : Option String :=
  match (exec (serve env) (makeCommonConfigMap m (makeLabelsForDruid m)) w).res with
  | .error _ => none
  | .ok common => some (StrMap.getD (plannedAnnotations hash (hash .configMap common)
      (seenAfter hash (hash .configMap common) m
        ((getNodeSpecsByOrder o.groups m).takeWhile fun g' => decide (g'.key ≠ g.key))) g)
      druidOpResourceHash)

/-- The groups before one of them are those before its key. -/
theorem takeWhile_key {groups done rest : List ServiceGroup}
    (hnodup : (groups.map ServiceGroup.key).Nodup) (hgroups : groups = done ++ g :: rest) :
    (groups.takeWhile fun g' => decide (g'.key ≠ g.key)) = done := by
  subst hgroups
  rw [List.map_append, List.map_cons] at hnodup
  have hbefore : ∀ g' ∈ done, decide (g'.key ≠ g.key) = true := by
    intro g' hg'
    rw [decide_eq_true_eq]
    intro hkey
    exact (List.nodup_append.1 hnodup).2.2 _ (List.mem_map_of_mem hg') _ List.mem_cons_self hkey
  rw [List.takeWhile_append_of_pos hbefore]
  simp

/-- The step updates the workload of a group of `m`. The workload was stored when the call started
in `w`, others made of it what the look-up found, and that had another hash than the planned one. -/
def UpdatesOutdated (env : Env) (hash : Hash) (o : MapOrders) (m : Druid) (w : World)
    (R : Obj k → Obj k → Prop) (e : Step sig World) (obj : Obj k) : Prop :=
  ∃ g ∈ getNodeSpecsByOrder o.groups m, IsWorkloadOf m k obj.key g ∧
    ∃ prev₀ prev planned commonConfigSHA m', PlannedWorkload hash commonConfigSHA m' g k planned ∧
      obj = sent noopUpdaterFn planned prev ∧
      (w.cluster.store k).find? obj.key = some prev₀ ∧ R prev₀ prev ∧
      (e.pre.cluster.store k).find? obj.key = some prev ∧
      ∃ v, plannedHash env hash o m w g = some v ∧ v ≠ hashOf prev

/-- **What a call updates was stored and outdated when it started.** Others may change the
workloads as `R` says. -/
theorem workload_updated (hk : k = .statefulSet ∨ k = .deployment) (hrefl : ∀ obj, R obj obj)
    (htrans : ∀ a b c, R a b → R b c → R a c)
    (henv : ∀ n c key, StoredSince R key c (env.others n c)) {hash : Hash} {o : MapOrders}
    {w : World} {e : Step sig World}
    (he : e ∈ (exec (serve env) (deployDruidCluster hash o m) w).steps) {obj : Obj k}
    (hreq : e.req = .update k obj) : UpdatesOutdated env hash o m w R e obj := by
  have hI : ∀ r, r.Within (fun v k' key' => ¬ applies k obj.key v k' key') → ∀ s : World,
      StoredSince R obj.key w.cluster s.cluster →
      StoredSince R obj.key w.cluster (serve env r s).2.cluster := by
    intro r hr s hs
    have hseen := hs.trans htrans (henv s.calls s.cluster obj.key)
    exact hseen.trans htrans (storedSince_serve hrefl hk hr s)
  have hsent := workload_sent (serve env) hash o m hk hI (.refl hrefl w.cluster) he (.inr rfl)
    (by rw [hreq]; rfl)
  cases hsent with
  | created common hcommon done rest g hgroups hdone planned hplanned t ht err hget answer =>
      cases hreq
  | updated common hcommon done rest g hgroups hdone planned hplanned t ht prev hget hhash answer =>
      obtain rfl : sent noopUpdaterFn planned prev = obj := by simpa using hreq
      have hk' : k ≠ .storageClass := by rcases hk with rfl | rfl <;> decide
      obtain ⟨hstate, hfound⟩ := serve_get_ok hk' hget
      obtain ⟨prev₀, hprev₀, hrel⟩ := ht.trans htrans (henv t.calls t.cluster _) prev hfound
      refine ⟨g, by simp [hgroups], hplanned.isWorkloadOf (sameIdentity_seenAfter ..), prev₀, prev,
        planned, _, _, hplanned, rfl, hprev₀, hrel, by rw [hstate]; exact hfound, hashOf planned,
        ?_, hhash⟩
      rw [plannedHash, hcommon, takeWhile_key (nodup_getNodeSpecsByOrder o.groups m) hgroups]
      dsimp only
      rw [← hplanned.annotations_eq]
      rfl

end Stored

end DruidOperator.Controller
