import DruidOperator.RollingRuns
import DruidOperator.Lib.Lists

/-!
# Rollouts the StatefulSet controller has not observed

`isObjFullyDeployed` compares fields of the status with each other. Until the StatefulSet
controller has observed an update, they all describe the pod template before it, and a StatefulSet
that was fully deployed still looks so. This file adds that controller to the runs of
`RollingRuns`: it writes statuses between any two requests, and names the pod template it has
observed by a revision.
-/

namespace DruidOperator.Controller

open Interaction Prog Kube Runs

section Revision

-- the name the StatefulSet controller gives to a pod template
variable (revision : PodTemplateSpec → String)

/-- The status describes the pod template that is stored. -/
def observed (sts : Object StatefulSet) : Prop :=
  sts.body.status.updateRevision = revision sts.body.spec.template

instance (sts : Object StatefulSet) : Decidable (observed revision sts) :=
  inferInstanceAs (Decidable (_ = _))

/-- The stored pod template is observed, and its rollout complete. A StatefulSet that is gone has
nothing left to roll out, and Deployments are not followed. -/
def rolledOut (c : Cluster) : Workload → Bool
  | (.statefulSet, key) =>
      match (c.store .statefulSet).find? key with
      | some sts => decide (observed revision sts) && (fullyDeployed .statefulSet sts).1
      | none => true
  | _ => true

/-- A StatefulSet stays observed. -/
def KeepsObserved (sts sts' : Obj .statefulSet) : Prop :=
  observed revision sts → observed revision sts'

/-- Others may observe pod templates and write statuses in any way, but change no template behind
the back of its status. -/
def Controls (env : Env) : Prop :=
  ∀ n c key, StoredSince (KeepsObserved revision) key c (env.others n c)

/-- The controller has observed every StatefulSet of the resource when the call starts. -/
def ObservedAtStart (s : Rollouts) (c : Call) : Prop :=
  ∀ g ∈ getNodeSpecsByOrder c.orders.groups c.cr, workloadKind g.spec = .statefulSet →
    ∀ sts ∈ ((c.env.seen s.world).store .statefulSet).find? (c.cr.ns, groupName c.cr g),
      observed revision sts

/-- When a step updates the workload of a group, no StatefulSet of a group before it has an update
that is not rolled out. -/
def RollsInOrder (c : Call) (rolling : List Workload) (e : Step sig World) : Prop :=
  updatesWorkload e.req = true →
    ∀ g ∈ (getNodeSpecsByOrder c.orders.groups c.cr).takeWhile
        (fun g => decide (e.req.write ≠ some (.update, workloadOf c.cr g))),
      workloadOf c.cr g ∉ refresh (rolledOut revision) (c.env.seen e.pre) rolling

/-- Every update of the call waits for the rollouts before it. -/
def WaitsForRollouts (hash : Hash) (s : Rollouts) (c : Call) : Prop :=
  Meets (watch (rolledOut revision) c.env) (RollsInOrder revision c) s.rolling (callSteps hash s c)

end Revision

variable {revision : PodTemplateSpec → String} {hash : Hash}

/-! ## One call -/

/-- A StatefulSet with an unfinished rollout is stored, and its status is not up to date or not
complete. -/
theorem rolledOut_eq_false {c : Cluster} {key : String × String}
    (h : rolledOut revision c (.statefulSet, key) = false) :
    ∃ sts, (c.store .statefulSet).find? key = some sts ∧
      ¬ (observed revision sts ∧ (fullyDeployed .statefulSet sts).1 = true) := by
  simp only [rolledOut] at h
  split at h
  · next sts hsts => exact ⟨sts, hsts, by simpa using h⟩
  · cases h

theorem KeepsObserved.refl (sts : Obj .statefulSet) : KeepsObserved revision sts sts := id

theorem KeepsObserved.trans (a b c : Obj .statefulSet) (hab : KeepsObserved revision a b)
    (hbc : KeepsObserved revision b c) : KeepsObserved revision a c := fun ha => hbc (hab ha)

theorem kind_of_rolledOut {c : Cluster} {x : Workload} (h : rolledOut revision c x = false) :
    x.1 = .statefulSet := by
  unfold rolledOut at h
  split at h
  · rfl
  · cases h

/-- Serving a request that does not update a stored StatefulSet keeps it observed. -/
theorem observed_serve {env : Env} (henv : Controls revision env) {s : World} {r : Request}
    {key : String × String} (hstored : ((env.seen s).store .statefulSet).find? key ≠ none)
    (hr : updatesWorkload r = false) :
    StoredSince (KeepsObserved revision) key (env.seen s) (env.seen (serve env r s).2) := by
  refine StoredSince.trans KeepsObserved.trans ?_ (henv _ _ key)
  by_cases hcreate : r.write = some (.create, .statefulSet, key)
  · -- the server refuses to create what is stored
    obtain ⟨obj, rfl, rfl⟩ : ∃ obj : Object StatefulSet, r = .create .statefulSet obj ∧
        obj.key = key := by
      cases r with
      | create k obj =>
          simp only [Request.write, Option.some.injEq, Prod.mk.injEq, true_and] at hcreate
          obtain ⟨rfl, hkey⟩ := hcreate
          exact ⟨obj, rfl, hkey⟩
      | _ => cases hcreate
    obtain ⟨sts, hsts⟩ := Option.ne_none_iff_exists'.1 hstored
    have hsame : (perform env.clock (.create .statefulSet obj) (env.seen s)).2 = env.seen s := by
      simp only [perform, hsts]
    rcases serve_state env (.create .statefulSet obj) s with hstate | hstate
    · rw [hstate, hsame]
      exact .refl KeepsObserved.refl _
    · rw [hstate]
      exact .refl KeepsObserved.refl _
  · refine storedSince_serve KeepsObserved.refl (.inl rfl) ?_ s
    rintro v k' key' hwrite ⟨rfl | rfl, rfl, rfl⟩
    · exact hcreate hwrite
    · cases r with
      | update k obj =>
          simp only [Request.write, Option.some.injEq, Prod.mk.injEq, true_and] at hwrite
          obtain ⟨rfl, -⟩ := hwrite
          cases hr
      | _ => cases hwrite

/-- **One call.** A call that starts with every StatefulSet observed waits for the rollouts. -/
theorem waits_call {s : Rollouts} {c : Call} (hroll : c.cr.spec.rollingDeploy = true)
    (hgen : 1 < c.cr.metadata.generation) (henv : Controls revision c.env)
    (hstart : ObservedAtStart revision s c) : WaitsForRollouts revision hash s c := by
  refine meets_iff.2 fun before e after hsteps hup g hg hrolling => ?_
  obtain ⟨k, obj, hk, hreq⟩ := updatesWorkload_cases hup
  obtain ⟨hzero, i, gi, hgi, hof, hpassed⟩ := update_after_passed hroll hgen hsteps hk hreq
  obtain ⟨hrun, hnow⟩ := mem_refresh.1 hrolling
  obtain ⟨-, hnever⟩ := (mem_run_watch hzero).1 hrun
  have hkind : workloadKind g.spec = .statefulSet := kind_of_rolledOut hnow
  -- the group stands before the one that is updated, so its StatefulSet was seen deployed
  obtain ⟨j, hj, hgj⟩ := Lists.getElem?_of_mem_takeWhile hg hgi (by
    rw [hreq]
    simp [Request.write, workloadOf, hof.1, hof.2])
  obtain ⟨b, hb, hdeployed⟩ := hpassed j hj g hgj
  have hunfinished := hnever b hb
  rw [workloadOf, hkind] at hunfinished
  obtain ⟨sts, hsts, hnot⟩ := rolledOut_eq_false hunfinished
  rw [hkind, deployedIn, hsts] at hdeployed
  -- it was observed at the start, and nothing since has changed its pod template
  obtain ⟨before₁, before₂, rfl⟩ := List.append_of_mem hb
  rw [List.append_assoc, List.cons_append] at hsteps
  have hsince : StoredSince (KeepsObserved revision) (c.cr.ns, groupName c.cr g)
      (c.env.seen s.world) (c.env.seen b.pre) := by
    refine exec_steps_invariant (I := fun t => StoredSince (KeepsObserved revision)
      (c.cr.ns, groupName c.cr g) (c.env.seen s.world) (c.env.seen t)) hsteps ?_
      (.refl KeepsObserved.refl _)
    intro b' hb' hsince'
    have hb'' : b' ∈ before₁ ++ b :: before₂ := List.mem_append_left _ hb'
    have hstored := hnever b' hb''
    rw [workloadOf, hkind] at hstored
    obtain ⟨sts', hsts', -⟩ := rolledOut_eq_false hstored
    refine hsince'.trans KeepsObserved.trans (observed_serve henv ?_ ?_)
    · rw [hsts']
      exact Option.some_ne_none _
    · by_contra hup'
      exact not_mem_of_workloadUpdates hzero (by simpa using hup') hb''
  obtain ⟨sts₀, hsts₀, hkeeps⟩ := hsince sts hsts
  exact hnot ⟨hkeeps (hstart g (List.mem_of_getElem? hgj) hkind sts₀ hsts₀), hdeployed⟩

/-- **Rollouts in order.** A resource with a rolling deploy is reconciled over and over, while the
StatefulSet controller observes updates and replaces pods at any time. If every reconcile starts
after the controller has observed the StatefulSets of the resource, no workload is updated before
the rollouts of the StatefulSets of the groups before it are complete. -/
theorem rollouts_in_order {w : World} {calls : List Call}
    (hcalls : ∀ c ∈ calls, c.cr.spec.rollingDeploy = true ∧ 1 < c.cr.metadata.generation ∧
      Controls revision c.env)
    (hobserved : Meets (rollStep (rolledOut revision) hash) (ObservedAtStart revision)
      ⟨w, []⟩ calls) :
    Meets (rollStep (rolledOut revision) hash) (WaitsForRollouts revision hash) ⟨w, []⟩ calls := by
  refine hobserved.imp fun s c hc hstart => ?_
  obtain ⟨hroll, hgen, henv⟩ := hcalls c hc
  exact waits_call hroll hgen henv hstart

/-! ## Two tiers -/

instance (s : Rollouts) (c : Call) : Decidable (ObservedAtStart revision s c) :=
  inferInstanceAs (Decidable (∀ g ∈ getNodeSpecsByOrder c.orders.groups c.cr,
    workloadKind g.spec = .statefulSet →
      ∀ sts ∈ ((c.env.seen s.world).store .statefulSet).find? (c.cr.ns, groupName c.cr g),
        observed revision sts))

instance (c : Call) (rolling : List Workload) (e : Step sig World) :
    Decidable (RollsInOrder revision c rolling e) :=
  inferInstanceAs (Decidable (updatesWorkload e.req = true →
    ∀ g ∈ (getNodeSpecsByOrder c.orders.groups c.cr).takeWhile
        (fun g => decide (e.req.write ≠ some (.update, workloadOf c.cr g))),
      workloadOf c.cr g ∉ refresh (rolledOut revision) (c.env.seen e.pre) rolling))

instance (s : Rollouts) (c : Call) : Decidable (WaitsForRollouts revision hash s c) :=
  inferInstanceAs (Decidable (Meets (watch (rolledOut revision) c.env) (RollsInOrder revision c)
    s.rolling (callSteps hash s c)))

/-- Revisions named after the images, for concrete runs. -/
def imageRevision (template : PodTemplateSpec) : String :=
  String.join (template.spec.containers.map (·.image))

/-- The StatefulSet after the controller has observed it and replaced its one pod. -/
def rolled (sts : Obj .statefulSet) : Obj .statefulSet :=
  { sts with body := { sts.body with
    status := { replicas := 1, readyReplicas := 1, currentReplicas := 1
                currentRevision := imageRevision sts.body.spec.template
                updateRevision := imageRevision sts.body.spec.template } } }

def rollOut (key : String × String) (c : Cluster) : Cluster := (c.patch .statefulSet key rolled).2

/-- The controller rolls out both tiers before the request `n`. -/
def rollOutTiers (n : ℕ) : Env where
  others n' c :=
    if n' = n then rollOut ("d", "druid-c-hot") (rollOut ("d", "druid-c-cold") c) else c

theorem keepsObserved_rollOut (key key' : String × String) (c : Cluster) :
    StoredSince (KeepsObserved imageRevision) key' c (rollOut key c) := by
  intro sts hsts
  by_cases hkey : key' = key
  · subst hkey
    unfold rollOut Cluster.patch at hsts
    split at hsts
    · exact ⟨sts, hsts, .refl sts⟩
    · next stored hstored =>
        refine ⟨stored, hstored, fun _ => ?_⟩
        rw [Cluster.modify_store_self] at hsts
        obtain ⟨-, rfl⟩ := Table.find?_eq_some.1 hstored
        unfold Cluster.put at hsts
        split_ifs at hsts
        · rw [Table.find?_erase, if_pos (by rfl)] at hsts
          cases hsts
        · rw [Table.find?_replace
            (by exact hstored ▸ Option.some_ne_none _), if_pos (by rfl)] at hsts
          cases hsts
          rfl
  · rw [rollOut, Cluster.patch_frame (f := rolled) (fun _ => rfl) fun _ => hkey] at hsts
    exact ⟨sts, hsts, .refl sts⟩

theorem controls_rollOutTiers (n : ℕ) : Controls imageRevision (rollOutTiers n) := by
  intro n' c key
  simp only [rollOutTiers]
  split_ifs
  · exact (keepsObserved_rollOut _ key c).trans KeepsObserved.trans (keepsObserved_rollOut _ key _)
  · exact .refl KeepsObserved.refl c

/-- The state in which the second reconcile starts. -/
def updatedHot : Rollouts :=
  rollStep (rolledOut imageRevision) imageHash ⟨tieredWorld, []⟩
    { cr := tieredCluster "v2", env := rollOutTiers tieredWorld.calls }

/-- The controller rolls out the tiers before each of two reconciles of `v2`: the second one
updates the cold tier. -/
theorem rollouts_in_order_tiers :
    Meets (rollStep (rolledOut imageRevision) imageHash) (WaitsForRollouts imageRevision imageHash)
      ⟨tieredWorld, []⟩
      [{ cr := tieredCluster "v2", env := rollOutTiers tieredWorld.calls },
       { cr := tieredCluster "v2", env := rollOutTiers updatedHot.world.calls }] :=
  rollouts_in_order
    (fun c hc => by
      rcases List.mem_pair.1 hc with rfl | rfl <;>
        exact ⟨rfl, by decide, controls_rollOutTiers _⟩)
    (by decide +kernel)

/-- Both tiers are rolled out with the image `v1`. Two reconciles of `v2` follow each other before
the controller has observed the update of the hot tier: the second one updates the cold tier. -/
theorem tiers_unobserved :
    ¬ Meets (rollStep (rolledOut imageRevision) imageHash)
      (WaitsForRollouts imageRevision imageHash)
      ⟨tieredWorld, []⟩
      [{ cr := tieredCluster "v2", env := rollOutTiers tieredWorld.calls },
        { cr := tieredCluster "v2" }] := by
  decide +kernel

end DruidOperator.Controller
