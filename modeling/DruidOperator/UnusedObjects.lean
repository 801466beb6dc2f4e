import DruidOperator.CompleteCall
import DruidOperator.StatusPatch

/-!
# Collecting unused objects

After the loop, `deleteUnusedResources` lists the objects of one kind that carry the labels of the
resource and deletes those whose names were not noted. This is done for seven kinds; the names that
stay go into the status.

* `swept` — a view after the collection of its kind.
* `exec_deleteUnusedResources` — the collection of one kind, where every request is served.
* `updateStatus_leads` — that of all kinds, and the status that is sent.
-/

namespace DruidOperator.Controller

open Interaction Prog Kube Runs

/-! ## One kind -/

/-- The view without the objects of these names. -/
def without (v : View) (gone : List String) : View :=
  fun name => if name ∈ gone then none else v name

/-- The view once the objects with these labels and none of these names are collected. -/
def swept (ls : StrMap) (names : List String) (v : View) : View :=
  fun name => (v name).filter fun s => decide (¬ (ls.Matches s.labels ∧ name ∉ names))

theorem without_update (v : View) (name : String) (gone : List String) :
    without (Function.update v name none) gone = without v (name :: gone) := by
  funext n
  unfold without
  by_cases hn : n = name
  · simp [hn]
  · simp [hn]

theorem mem_listed_iff {c : Cluster} {k : Kind} {ns : String} {ls : StrMap} {o : Obj k} :
    o ∈ c.listed k ns ls ↔
      (c.store k).find? (ns, o.name) = some o ∧ ls.Matches o.metadata.labels := by
  rw [Cluster.listed, List.mem_filter, decide_eq_true_eq, Table.find?_eq_some]
  constructor
  · rintro ⟨hmem, rfl, hlabels⟩
    exact ⟨⟨hmem, rfl⟩, hlabels⟩
  · rintro ⟨⟨hmem, hkey⟩, hlabels⟩
    exact ⟨hmem, congrArg Prod.fst hkey, hlabels⟩

theorem exists_listed_iff {c : Cluster} {k : Kind} {ns : String} {ls : StrMap} {name : String} :
    (∃ o ∈ c.listed k ns ls, o.name = name) ↔
      ∃ s, viewOf ns c k name = some s ∧ ls.Matches s.labels := by
  unfold viewOf
  constructor
  · rintro ⟨o, ho, rfl⟩
    obtain ⟨hfind, hlabels⟩ := mem_listed_iff.1 ho
    exact ⟨shown o, by rw [hfind, Option.map_some], hlabels⟩
  · rintro ⟨s, hs, hlabels⟩
    obtain ⟨o, hfind, rfl⟩ := Option.map_eq_some_iff.1 hs
    have hname : o.name = name := congrArg Prod.snd (Table.find?_eq_some.1 hfind).2
    exact ⟨o, mem_listed_iff.2 ⟨by rwa [hname], hlabels⟩, hname⟩

/-- Deleting what is listed and not named sweeps the view. -/
theorem without_unused (c : Cluster) (k : Kind) (ns : String) (ls : StrMap) (names : List String) :
    without (viewOf ns c k)
        (((c.listed k ns ls).filter fun o => decide (o.name ∉ names)).map Object.name) =
      swept ls names (viewOf ns c k) := by
  have hmem : ∀ name, name ∈ ((c.listed k ns ls).filter fun o => decide (o.name ∉ names)).map
      Object.name ↔ (∃ s, viewOf ns c k name = some s ∧ ls.Matches s.labels) ∧ name ∉ names := by
    intro name
    rw [← exists_listed_iff, List.mem_map]
    constructor
    · rintro ⟨o, ho, rfl⟩
      obtain ⟨hlisted, hunused⟩ := List.mem_filter.1 ho
      exact ⟨⟨o, hlisted, rfl⟩, by simpa using hunused⟩
    · rintro ⟨⟨o, ho, rfl⟩, hunused⟩
      exact ⟨o, List.mem_filter.2 ⟨ho, by simpa using hunused⟩, rfl⟩
  funext name
  unfold without swept
  cases hview : viewOf ns c k name with
  | none => simp
  | some s =>
      by_cases hgone : ls.Matches s.labels ∧ name ∉ names
      · rw [if_pos ((hmem name).2 ⟨⟨s, hview, hgone.1⟩, hgone.2⟩)]
        simp [Option.filter, hgone]
      · rw [if_neg fun h => ?_]
        · simp [Option.filter, hgone]
        · obtain ⟨⟨s', hs', hlabels⟩, hunused⟩ := (hmem name).1 h
          rw [hview] at hs'
          cases hs'
          exact hgone ⟨hlabels, hunused⟩

/-- The body of the loop over the listed objects. -/
def dropUnused {k : Kind} (names survivorNames : List String) (s : Obj k) : Code (List String) :=
  if s.name ∈ names then .ret (survivorNames ++ [s.name])
  else .call (.delete k s false) fun
    | .ok _ => .ret survivorNames
    | .error _ => .ret (survivorNames ++ [s.name])

theorem deleteUnusedResources_eq (k : Kind) (drd : Druid) (names : List String) (ls : StrMap) :
    deleteUnusedResources k drd names ls = .call (.list k drd.ns ls) fun
      | .error _ => .ret []
      | .ok items => accumulate (dropUnused names) [] items := by
  unfold deleteUnusedResources listObjs
  rw [call_bind]
  congr 1
  funext answer
  cases answer with
  | error e => rfl
  | ok items =>
      rw [ret_bind]
      refine congrArg (accumulate · [] items) ?_
      funext survivorNames s
      unfold dropUnused
      split_ifs
      · rfl
      · simp only [deleteObj, call_bind, ret_bind]
        congr 1
        funext answer
        cases answer <;> rfl

section Kind

variable {env : Env} (henv : env.Calm) {k : Kind} {ns : String}

include henv

theorem exec_deleteLoop (names : List String) {items : List (Obj k)}
    (hnodup : (items.map Object.key).Nodup) (hns : ∀ o ∈ items, o.ns = ns) (survivors : List String)
    (w : World) (hstored : ∀ o ∈ items, (w.cluster.store k).find? o.key ≠ none) :
    (exec (serve env) (accumulate (dropUnused names) survivors items) w).res =
        .ok (survivors ++ (items.filter fun o => decide (o.name ∈ names)).map Object.name) ∧
      viewOf ns (exec (serve env) (accumulate (dropUnused names) survivors items)
          w).state.cluster k =
        without (viewOf ns w.cluster k)
          ((items.filter fun o => decide (o.name ∉ names)).map Object.name) ∧
      ∀ e ∈ (exec (serve env) (accumulate (dropUnused names) survivors items) w).steps,
        ∃ i ∈ items, i.name ∉ names ∧ e.req = .delete k i false := by
  induction items generalizing survivors w with
  | nil =>
      refine ⟨by simp, ?_, by simp⟩
      funext name
      simp [without]
  | cons item items ih =>
      rw [List.map_cons, List.nodup_cons] at hnodup
      have hns' := fun o ho => hns o (List.mem_cons_of_mem _ ho)
      simp only [accumulate_cons]
      by_cases hname : item.name ∈ names
      · obtain ⟨hres, hview, hsteps⟩ := ih hnodup.2 hns' (survivors ++ [item.name]) w
          fun o ho => hstored o (List.mem_cons_of_mem _ ho)
        rw [dropUnused, if_pos hname, ret_bind]
        refine ⟨?_, ?_, fun e he => ?_⟩
        · simpa [hname] using hres
        · simpa [hname] using hview
        · obtain ⟨i, hi, hi'⟩ := hsteps e he
          exact ⟨i, List.mem_cons_of_mem _ hi, hi'⟩
      · -- the object is stored, so deleting it succeeds
        obtain ⟨stored, hfind⟩ := Option.ne_none_iff_exists'.1 (hstored item List.mem_cons_self)
        have hanswer : (serve env (.delete k item false) w).1 = .ok () := by
          rw [serve_calm henv, perform]
          simp only [hfind]
        have hkey : item.key = (ns, item.name) := by rw [← hns item List.mem_cons_self]
        obtain ⟨hres, hview, hsteps⟩ := ih hnodup.2 hns' survivors
          (serve env (.delete k item false) w).2 fun o ho => by
            rw [serve_frame henv.alone fun v hw => ?_]
            · exact hstored o (List.mem_cons_of_mem _ ho)
            · simp only [Request.write, Option.some.injEq, Prod.mk.injEq, true_and] at hw
              have heq : item.key = o.key := Prod.ext hw.2.1 hw.2.2
              exact hnodup.1 (heq ▸ List.mem_map_of_mem ho)
        rw [dropUnused, if_neg hname, call_bind, exec_call, hanswer]
        refine ⟨?_, ?_, fun e he => ?_⟩
        · simpa [hname] using hres
        · rw [viewOf_delete henv hkey, without_update] at hview
          simpa [hname] using hview
        · rcases List.mem_cons.1 he with rfl | he
          · exact ⟨item, List.mem_cons_self, hname, rfl⟩
          · obtain ⟨i, hi, hi'⟩ := hsteps e he
            exact ⟨i, List.mem_cons_of_mem _ hi, hi'⟩

/-- **Collecting one kind.** -/
theorem exec_deleteUnusedResources (drd : Druid) (names : List String) (ls : StrMap) (w : World) :
    (exec (serve env) (deleteUnusedResources k drd names ls) w).res =
        .ok (((w.cluster.listed k drd.ns ls).filter fun o => decide (o.name ∈ names)).map
          Object.name) ∧
      viewOf drd.ns (exec (serve env) (deleteUnusedResources k drd names ls) w).state.cluster k =
        swept ls names (viewOf drd.ns w.cluster k) ∧
      ∀ e ∈ (exec (serve env) (deleteUnusedResources k drd names ls) w).steps,
        e.req = .list k drd.ns ls ∨
          ∃ i ∈ w.cluster.listed k drd.ns ls, i.name ∉ names ∧ e.req = .delete k i false := by
  have hlist : serve env (.list k drd.ns ls) w =
      (.ok (w.cluster.listed k drd.ns ls), ⟨w.cluster, w.calls + 1⟩) := by
    rw [serve_calm henv]
    rfl
  obtain ⟨hres, hview, hsteps⟩ := exec_deleteLoop henv names
    (Cluster.listed_nodup w.cluster k drd.ns ls)
    (fun o ho => (of_decide_eq_true (List.mem_filter.1 ho).2).1) []
    ⟨w.cluster, w.calls + 1⟩ fun o ho => by
      rw [Cluster.stored_of_listed ho]
      exact Option.some_ne_none _
  rw [deleteUnusedResources_eq, exec_call, hlist]
  refine ⟨hres, ?_, fun e he => ?_⟩
  · rw [← without_unused]
    exact hview
  · rcases List.mem_cons.1 he with rfl | he
    · exact .inl rfl
    · exact .inr (hsteps e he)

end Kind

/-! ## All kinds -/

/-- The kinds that are collected, in their order. -/
def collectedKinds : List Kind :=
  [.statefulSet, .deployment, .horizontalPodAutoscaler, .ingress, .podDisruptionBudget, .service,
    .configMap]

theorem groupKinds_of_collectedKinds : ∀ k ∈ collectedKinds, k ∈ groupKinds := by decide

/-- The names that stay. -/
def survivors (ls : StrMap) (l : Loop) (c : Cluster) (k : Kind) : List String :=
  ((c.listed k l.m.ns ls).filter fun o => decide (o.name ∈ l.names k)).map Object.name

/-- The kinds in `done` are collected, the others are as in `c`. -/
structure Collecting (ls : StrMap) (l : Loop) (c : Cluster) (done : List Kind) (w : World) :
    Prop where
  swept : ∀ k ∈ done, viewOf l.m.ns w.cluster k = swept ls (l.names k) (viewOf l.m.ns c k)
  rest : ∀ k, k ∉ done → w.cluster.store k = c.store k

/-- The step deletes no object, or an unused one. -/
def DeletesUnused (ls : StrMap) (l : Loop) (c : Cluster) (e : Step sig World) : Prop :=
  ∀ k obj orphan, e.req = .delete k obj orphan →
    obj ∈ c.listed k l.m.ns ls ∧ obj.name ∉ l.names k

/-- The status that is computed from what is stored. -/
def computedStatus (ls : StrMap) (l : Loop) (c : Cluster) : DruidClusterStatus where
  druidNodeStatus := nodeStatusOf (c.listed .pod l.m.ns (makeLabelsForDruid l.m))
  statefulSets := some (sortStrings (survivors ls l c .statefulSet))
  deployments := some (sortStrings (survivors ls l c .deployment))
  services := some (sortStrings (survivors ls l c .service))
  configMaps := some (sortStrings (survivors ls l c .configMap))
  podDisruptionBudgets := some (sortStrings (survivors ls l c .podDisruptionBudget))
  ingress := some (sortStrings (survivors ls l c .ingress))
  hpAutoScalers := some (sortStrings (survivors ls l c .horizontalPodAutoscaler))
  pods := podNamesOf (c.listed .pod l.m.ns (makeLabelsForDruid l.m))

section Kinds

variable {env : Env} (henv : env.Calm) {ls : StrMap} {l : Loop} {c : Cluster} {done : List Kind}
  {w : World}

include henv

theorem Collecting.next (hw : Collecting ls l c done w) {k : Kind} (hk : k ∉ done) :
    ∃ w', Collecting ls l c (k :: done) w' ∧ ∀ f : List String → Code Unit,
      Leads (serve env) (DeletesUnused ls l c) (deleteUnusedResources k l.m (l.names k) ls >>= f) w
        (f (survivors ls l c k)) w' := by
  have hstore := hw.rest k hk
  have hlisted : w.cluster.listed k l.m.ns ls = c.listed k l.m.ns ls := by
    unfold Cluster.listed
    rw [hstore]
  obtain ⟨hres, hview, hsteps⟩ := exec_deleteUnusedResources henv (k := k) l.m (l.names k) ls w
  have hother : ∀ k', k' ≠ k → (exec (serve env) (deleteUnusedResources k l.m (l.names k) ls)
      w).state.cluster.store k' = w.cluster.store k' := fun k' hne =>
    exec_store henv.alone (uses_deleteUnusedResources ..) fun v key hdeletes => hne hdeletes.2
  rw [hlisted] at hres hsteps
  rw [viewOf_congr hstore] at hview
  refine ⟨_, ⟨fun k' hk' => ?_, fun k' hk' => ?_⟩,
    fun f => Leads.ofBind hres (fun e he k' obj orphan hreq => ?_) f⟩
  · rcases List.mem_cons.1 hk' with rfl | hk'
    · exact hview
    · have hne : k' ≠ k := fun heq => hk (heq ▸ hk')
      rw [viewOf_congr (hother k' hne), hw.swept k' hk']
  · rw [List.mem_cons, not_or] at hk'
    rw [hother k' hk'.1, hw.rest k' hk'.2]
  · rcases hsteps e he with hlist | ⟨i, hi, hunused, hdelete⟩
    · rw [hlist] at hreq
      cases hreq
    · rw [hdelete] at hreq
      cases hreq
      exact ⟨hi, hunused⟩

/-- **Collecting all kinds.** What is left of the call is to patch the status. -/
theorem updateStatus_leads (ls : StrMap) (l : Loop) (w : World) :
    ∃ w₁, Collecting ls l w.cluster collectedKinds.reverse w₁ ∧
      Leads (serve env) (DeletesUnused ls l w.cluster) (updateStatus ls l) w
        (druidClusterStatusPatcher (computedStatus ls l w.cluster) l.m) w₁ := by
  have h₀ : Collecting ls l w.cluster [] w := ⟨fun k hk => (by cases hk), fun _ _ => rfl⟩
  obtain ⟨w₁, h₁, lead₁⟩ := h₀.next henv (k := .statefulSet) (by decide)
  obtain ⟨w₂, h₂, lead₂⟩ := h₁.next henv (k := .deployment) (by decide)
  obtain ⟨w₃, h₃, lead₃⟩ := h₂.next henv (k := .horizontalPodAutoscaler) (by decide)
  obtain ⟨w₄, h₄, lead₄⟩ := h₃.next henv (k := .ingress) (by decide)
  obtain ⟨w₅, h₅, lead₅⟩ := h₄.next henv (k := .podDisruptionBudget) (by decide)
  obtain ⟨w₆, h₆, lead₆⟩ := h₅.next henv (k := .service) (by decide)
  obtain ⟨w₇, h₇, lead₇⟩ := h₆.next henv (k := .configMap) (by decide)
  have hpods : serve env (.list .pod l.m.ns (makeLabelsForDruid l.m)) w₇ =
      (.ok (w.cluster.listed .pod l.m.ns (makeLabelsForDruid l.m)),
        ⟨w₇.cluster, w₇.calls + 1⟩) := by
    rw [serve_calm henv]
    simp only [perform, Cluster.listed, h₇.rest .pod (by decide)]
  refine ⟨⟨w₇.cluster, w₇.calls + 1⟩, ⟨h₇.swept, h₇.rest⟩, ?_⟩
  refine (lead₁ _).trans <| (lead₂ _).trans <| (lead₃ _).trans <| (lead₄ _).trans <|
    (lead₅ _).trans <| (lead₆ _).trans <| (lead₇ _).trans ?_
  rw [listObjs, call_bind]
  refine (Leads.ofCall fun k obj orphan hreq => by cases hreq).trans ?_
  rw [hpods]
  exact ⟨[], by simp, rfl⟩

end Kinds

/-! ## The resource -/

theorem find?_patch_druid {c : Cluster} {m : Druid}
    (hstored : (c.store .druid).find? m.key = some m) {f : Druid → Druid} (hkey : (f m).key = m.key)
    (hstays : (f m).metadata.deletionTimestamp = none) :
    ((c.patch .druid m.key f).2.store .druid).find? m.key =
      some ((f m).withResourceVersion (c.version + 1)) := by
  have hput := Cluster.find?_put_self (k := .druid) (t := c.store .druid) (f m) (c.version + 1)
    (by rw [hstays]; exact fun h => by cases h.1)
    (by rw [hkey, hstored]; exact Option.some_ne_none _)
  rw [hkey] at hput
  simp only [Cluster.patch, hstored]
  rw [Cluster.modify_store_self]
  exact hput

section Resource

variable {hash : Hash} {o : MapOrders} {m : Druid} {env : Env} (henv : env.Calm) {w : World}

include henv

/-- The finalizers of a stored resource are patched at most. -/
theorem updateFinalizers_stored (hstored : (w.cluster.store .druid).find? m.key = some m)
    (hdel : m.metadata.deletionTimestamp = none) :
    ∃ finalizers version,
      ((exec (serve env) (updateFinalizers m) w).state.cluster.store .druid).find? m.key =
        some (rewritten m finalizers version m.body.status) := by
  unfold updateFinalizers
  split_ifs
  · refine ⟨desiredFinalizers m, w.cluster.version + 1, ?_⟩
    rw [patchFinalizers, call_bind, exec_call, serve_calm henv, perform,
      Cluster.answered_of_find? hstored, ret_bind]
    exact find?_patch_druid hstored (f := (withFinalizers · (desiredFinalizers m))) rfl hdel
  · exact ⟨_, _, hstored⟩

/-- Up to the end of the loop nothing but the finalizers of the resource changes. -/
theorem deployGroups_stored (hstored : (w.cluster.store .druid).find? m.key = some m) {l : Loop}
    (hl : (exec (serve env) (deployGroups hash o m) w).res = .ok (some l)) :
    ∃ finalizers version, ((afterLoop hash o m env w).cluster.store .druid).find? m.key =
      some (rewritten m finalizers version m.body.status) := by
  obtain ⟨hverify, hdel, -⟩ := accepted_of_loop hl
  unfold afterLoop
  rw [deployGroups_eq hash hverify hdel] at hl ⊢
  have hcommon : (exec (serve env) (applyCommonConfig hash m) w).state.cluster.store .druid =
      w.cluster.store .druid :=
    exec_store henv.alone (uses_applyCommonConfig hash m) fun v key h => by cases h.2.1
  obtain ⟨common, hres, hl, -⟩ := exec_bind_returned hl
  rw [exec_bind_ok hres]
  rw [← hcommon] at hstored
  obtain ⟨finalizers, version, hpatched⟩ := updateFinalizers_stored henv hstored hdel
  refine ⟨finalizers, version, ?_⟩
  unfold deployLoop at hl ⊢
  cases hres' : (exec (serve env) (updateFinalizers m)
      (exec (serve env) (applyCommonConfig hash m) w).state).res with
  | error e =>
      rw [exec_bind_error hres'] at hl
      cases hl
  | ok updated =>
      rw [exec_bind_ok hres', exec_store henv.alone (A := fun _ k _ => k ≠ .druid)
        (Uses.iterate (fun l g _ => (uses_applyGroup ..).mono fun r hr => hr.mono ?_) _)
        (fun v key h => h rfl)]
      · exact hpatched
      · rintro v k key hdeploys rfl
        rcases hdeploys with (hw | hw | hw) | hw | hw | hw
        · obtain ⟨-, hk, -⟩ := hw
          rcases workloadKind_cases g.spec with h | h <;> rw [h] at hk <;> cases hk
        · rcases hw with hw | hw <;> cases hw.2
        · cases hw.2
        · cases hw.2
        · cases hw.2
        · rcases hw.2 with h | h | h | h <;> cases h

end Resource

/-! ## The end of a complete call -/

/-- What a call leaves behind. -/
def afterCall (hash : Hash) (o : MapOrders) (m : Druid) (env : Env) (w : World) : World :=
  (exec (serve env) (deployDruidCluster hash o m) w).state

section Finish

variable {hash : Hash} {o : MapOrders} {m : Druid} {env : Env} {w : World}
    {files : StrMap} {l : Loop}

namespace Deployed

theorem ns_eq (hd : Deployed hash o m env w files l) : l.m.ns = m.ns := by
  obtain ⟨finalizers, hl⟩ := hd.resource
  rw [hl]
  exact (sameIdentity_seenAfter ..).ns_eq

theorem key_eq (hd : Deployed hash o m env w files l) : l.m.key = m.key := by
  obtain ⟨finalizers, hl⟩ := hd.resource
  have hsame := sameIdentity_seenAfter hash (commonSHA hash m files) m
      (getNodeSpecsByOrder o.groups m)
  rw [hl]
  exact Prod.ext hsame.ns_eq hsame.name_eq

theorem status_eq (hd : Deployed hash o m env w files l) : l.m.body.status = m.body.status := by
  obtain ⟨finalizers, hl⟩ := hd.resource
  rw [hl]
  exact status_seenAfter ..

/-- **The end of a complete call.** The claims of the resource are looked after, unused objects are
collected, and the status is patched. -/
theorem finish (henv : env.Calm) (hd : Deployed hash o m env w files l) :
    ∃ w₂ w₃, (∀ k, k ≠ .persistentVolumeClaim →
        w₂.cluster.store k = (afterLoop hash o m env w).cluster.store k) ∧
      w₂ = (exec (serve env) (collectOrphans l.m) (afterLoop hash o m env w)).state ∧
      Collecting (makeLabelsForDruid m) l w₂.cluster collectedKinds.reverse w₃ ∧
      (∀ e ∈ (exec (serve env) (finishDeploy (makeLabelsForDruid m) l)
          (afterLoop hash o m env w)).steps,
        (∃ A, e.req.Within A ∧ ∀ v k key, A v k key → k = .persistentVolumeClaim) ∨
          DeletesUnused (makeLabelsForDruid m) l w₂.cluster e) ∧
      afterCall hash o m env w = (exec (serve env) (druidClusterStatusPatcher
        (computedStatus (makeLabelsForDruid m) l w₂.cluster) l.m) w₃).state := by
  have hfinished := hd.finished
  unfold finishDeploy at hfinished ⊢
  obtain ⟨u, hres, hfinished, -⟩ := exec_bind_returned hfinished
  obtain ⟨w₃, hcollecting, steps, hsteps, hrun⟩ := updateStatus_leads henv (makeLabelsForDruid m) l
    (exec (serve env) (collectOrphans l.m) (afterLoop hash o m env w)).state
  refine ⟨_, w₃, fun k hk => ?_, rfl, hcollecting, fun e he => ?_, ?_⟩
  · exact exec_store henv.alone (uses_collectOrphans l.m) fun v key h => hk h.2
  · rw [exec_bind_ok hres, hrun] at he
    rcases List.mem_append.1 he with he | he
    · exact .inl ⟨_, (uses_collectOrphans l.m).steps he, fun v k key h => h.2⟩
    · rcases List.mem_append.1 he with he | he
      · exact .inr (hsteps e he)
      · refine .inr fun k obj orphan hreq => ?_
        have hwithin := (uses_druidClusterStatusPatcher _ _).steps he
        rw [hreq, Request.within_delete] at hwithin
        cases hwithin.1
  · rw [afterCall, exec_thenFinish hd.looped, finishDeploy, exec_bind_ok hres, hrun]

theorem views (henv : env.Calm) (hd : Deployed hash o m env w files l) {k : Kind}
    (hk : k ∈ collectedKinds) :
    viewOf m.ns (afterCall hash o m env w).cluster k =
      swept (makeLabelsForDruid m) ((callObjects hash o m files k).map Object.name)
        (viewOf m.ns (afterLoop hash o m env w).cluster k) := by
  obtain ⟨w₂, w₃, hstore, -, hcollecting, -, hafter⟩ := hd.finish henv
  have hgroup := groupKinds_of_collectedKinds k hk
  have hne : k ≠ .persistentVolumeClaim ∧ k ≠ .druid := by
    constructor <;> rintro rfl <;> simp [collectedKinds] at hk
  rw [hafter, viewOf_congr (exec_store henv.alone (uses_druidClusterStatusPatcher _ _)
    fun v key h => hne.2 h.2.1), ← viewOf_congr (hstore k hne.1), ← hd.names k hgroup, ← hd.ns_eq]
  exact hcollecting.swept k (List.mem_reverse.2 hk)

theorem deletes (henv : env.Calm) (hd : Deployed hash o m env w files l) {e : Step sig World}
    (he : e ∈ (exec (serve env) (finishDeploy (makeLabelsForDruid m) l)
      (afterLoop hash o m env w)).steps) {k : Kind} (hk : k ∈ collectedKinds) {obj : Obj k}
    {orphan : Bool} (hreq : e.req = .delete k obj orphan) :
    obj ∈ (afterLoop hash o m env w).cluster.listed k m.ns (makeLabelsForDruid m) ∧
      obj.name ∉ (callObjects hash o m files k).map Object.name := by
  obtain ⟨w₂, w₃, hstore, -, -, hsteps, -⟩ := hd.finish henv
  have hgroup := groupKinds_of_collectedKinds k hk
  have hne : k ≠ .persistentVolumeClaim := by
    rintro rfl
    simp [collectedKinds] at hk
  rcases hsteps e he with ⟨A, hwithin, hA⟩ | hunused
  · rw [hreq, Request.within_delete] at hwithin
    exact absurd (hA _ _ _ hwithin) hne
  · obtain ⟨hlisted, hname⟩ := hunused k obj orphan hreq
    rw [hd.names k hgroup] at hname
    rw [hd.ns_eq, Cluster.listed, hstore k hne] at hlisted
    exact ⟨hlisted, hname⟩

theorem stored (henv : env.Calm) (hd : Deployed hash o m env w files l)
    (hstored : (w.cluster.store .druid).find? m.key = some m) :
    ∃ finalizers version status, ((afterCall hash o m env w).cluster.store .druid).find? m.key =
        some (rewritten m finalizers version status) ∧
      ∃ c : Cluster, (∀ k, k ≠ .persistentVolumeClaim →
          c.store k = (afterLoop hash o m env w).cluster.store k) ∧
        status = if computedStatus (makeLabelsForDruid m) l c = m.body.status then m.body.status
          else mergeStatus m.body.status (computedStatus (makeLabelsForDruid m) l c) := by
  obtain ⟨w₂, w₃, hstore, -, hcollecting, -, hafter⟩ := hd.finish henv
  obtain ⟨finalizers, version, hloop⟩ := deployGroups_stored henv hstored hd.looped
  have hfind : (w₃.cluster.store .druid).find? m.key =
      some (rewritten m finalizers version m.body.status) := by
    rw [hcollecting.rest .druid (by decide), hstore .druid (by decide), hloop]
  rw [hafter]
  unfold druidClusterStatusPatcher
  rw [hd.status_eq]
  by_cases hsame : computedStatus (makeLabelsForDruid m) l w₂.cluster = m.body.status
  · refine ⟨finalizers, version, m.body.status, ?_, w₂.cluster, hstore, (if_pos hsame).symm⟩
    rw [if_neg (by simpa using hsame)]
    exact hfind
  · refine ⟨finalizers, w₃.cluster.version + 1, _, ?_, w₂.cluster, hstore, rfl⟩
    rw [if_neg hsame, if_pos hsame, patchStatus, call_bind, exec_call, serve_calm henv, perform,
      hd.key_eq]
    exact find?_patch_druid (m := rewritten m finalizers version m.body.status) (f := fun stored =>
      { stored with body := { stored.body with
        status := mergeStatus stored.body.status
          (computedStatus (makeLabelsForDruid m) l w₂.cluster) } }) hfind rfl hd.staying

end Deployed

end Finish

end DruidOperator.Controller
