import DruidOperator.Reconciler
import DruidOperator.WorkloadWrites
import DruidOperator.Lib.Runs

/-!
# Replica counts under an autoscaler

`statefulSetIsEquals` and `deploymentIsEquals` no longer compare replica counts, so that the
operator does not fight an autoscaler. But a workload is updated as a whole as soon as its hash
differs, and the planned workload carries the `Replicas` of its node group. This file follows one
node group through runs in which an autoscaler changes the stored replica count, the resource is
edited, and the operator reconciles.
-/

namespace DruidOperator.Controller.Autoscaling

open Interaction Prog Kube Runs

/-- `Spec.Replicas` of a workload. -/
def replicasOf : (k : Kind) → Obj k → Int
  | .statefulSet, obj => obj.body.spec.replicas
  | .deployment, obj => obj.body.spec.replicas
  | _, _ => 0

def withReplicas (replicas : Int) : (k : Kind) → Obj k → Obj k
  | .statefulSet, obj => { obj with body := { obj.body with
      spec := { obj.body.spec with replicas := replicas } } }
  | .deployment, obj => { obj with body := { obj.body with
      spec := { obj.body.spec with replicas := replicas } } }
  | _, obj => obj

inductive Action where
  /-- The autoscaler sets the replica count of a workload. -/
  | scale (k : Kind) (key : String × String) (replicas : Int)
  /-- The spec of the resource is edited. -/
  | edit (spec : DruidSpec)
  | reconcile (env : Env) (orders : MapOrders) (dynamicConfigs : Except Error Unit)

variable (hash : Hash) (request : String × String)

def step (w : World) : Action → World
  | .scale k key replicas =>
      { w with cluster := (w.cluster.patch k key (withReplicas replicas k)).2 }
  | .edit spec => { w with cluster := (w.cluster.patch .druid request fun cr =>
      { cr with
        metadata := { cr.metadata with generation := cr.metadata.generation + 1 }
        body := { cr.body with spec := spec } }).2 }
  | .reconcile env o dynamicConfigs =>
      (exec (serve env) (Controller.reconcile hash o dynamicConfigs request) w).state

/-- The stored resource, and its node group `name`. -/
def storedGroup (name : String) (w : World) : Option (Druid × ServiceGroup) :=
  match (w.cluster.store .druid).find? request with
  | none => none
  | some m => (m.spec.nodes.find? name).map fun g => (m, g)

/-- A reconcile finds the workload of the group missing, with the replica count of the group, or
with the hash it plans. -/
def sparesReplicas (name : String) (w : World) : Action → Prop
  | .reconcile env o _ => ∀ mg ∈ storedGroup request name w,
      ∀ live ∈ (w.cluster.store (workloadKind mg.2.spec)).find? (mg.1.ns, groupName mg.1 mg.2),
        replicasOf _ live = mg.2.spec.replicas ∨
          ∀ v ∈ plannedHash env hash o mg.1 ⟨w.cluster, w.calls + 1⟩ mg.2, v = hashOf live
  | _ => True

/-- No update of the workload of the group changes its replica count. -/
def keepsReplicas (name : String) (w : World) : Action → Prop
  | .reconcile env o dynamicConfigs => ∀ mg ∈ storedGroup request name w,
      ∀ e ∈ (exec (serve env) (Controller.reconcile hash o dynamicConfigs request) w).steps,
        ∀ obj, e.req = .update (workloadKind mg.2.spec) obj →
          obj.key = (mg.1.ns, groupName mg.1 mg.2) →
          ∀ live ∈ (e.pre.cluster.store (workloadKind mg.2.spec)).find? obj.key,
            replicasOf _ obj = replicasOf _ live
  | _ => True

variable {hash request}

theorem replicasOf_planned {commonConfigSHA : String} {m : Druid} {g : ServiceGroup} {k : Kind}
    {obj prev : Obj k} (hp : PlannedWorkload hash commonConfigSHA m g k obj) :
    replicasOf k (sent noopUpdaterFn obj prev) = g.spec.replicas := by
  cases hp with
  | statefulSet hkind => rfl
  | deployment hkind obj hobj =>
      obtain ⟨made, hmade, rfl⟩ := plannedDeployment_made hobj
      obtain ⟨ru, -, rfl⟩ := makeDeployment_made hmade
      rfl

theorem storedGroup_eq_some {name : String} {w : World} {m : Druid} {g : ServiceGroup}
    (h : storedGroup request name w = some (m, g)) :
    (w.cluster.store .druid).find? request = some m ∧ m.spec.nodes.find? name = some g := by
  unfold storedGroup at h
  split at h
  · cases h
  · next m' hm' =>
      obtain ⟨g', hg', heq⟩ := Option.map_eq_some_iff.1 h
      cases heq
      exact ⟨hm', hg'⟩

/-- **Replica counts are kept where nothing else is outdated.** In a run in which every reconcile
finds the workload of the group with the group's replica count or with the hash it plans, no
update changes the replica count of the workload. -/
theorem replicas_kept (name : String) {w : World} {acts : List Action}
    (halone : ∀ env o dynamicConfigs, Action.reconcile env o dynamicConfigs ∈ acts → env.Alone)
    (hacts : Meets (step hash request) (sparesReplicas hash request name) w acts) :
    Meets (step hash request) (keepsReplicas hash request name) w acts := by
  refine hacts.imp fun w a ha hspares => ?_
  cases a with
  | scale k key replicas => trivial
  | edit spec => trivial
  | reconcile env o dynamicConfigs =>
      intro mg hmg e he obj hreq hkey live hlive
      obtain ⟨m, g⟩ := mg
      obtain ⟨hm, hg⟩ := storedGroup_eq_some hmg
      have henv := halone env o dynamicConfigs ha
      obtain ⟨m', hget, he⟩ := reconcile_writes he (by rw [hreq]; exact Option.some_ne_none _)
      -- the reconcile reads the stored resource
      obtain ⟨-, hfound⟩ := serve_get_ok (by decide) hget
      rw [seen_alone henv] at hfound
      obtain rfl : m = m' := Option.some.inj (hm.symm.trans hfound)
      rw [serve_read henv rfl] at he
      obtain ⟨g', hg', hof, prev, _, planned, sha, m', hplanned, hobj, hprev, rfl, hpre,
          v, hv, hne⟩ :=
        workload_updated (R := Eq) (workloadKind_cases _) (fun _ => rfl)
          (fun _ _ _ => Eq.trans) (fun n c key obj hobj => ⟨obj, henv n c ▸ hobj, rfl⟩) he hreq
      obtain rfl : g = g' := by
        refine Table.eq_of_mem (Table.find?_eq_some.1 hg).1 (mem_getNodeSpecsByOrder.1 hg').1 ?_
        exact groupName_inj (congrArg Prod.snd (hkey.symm.trans hof.2.symm))
      obtain rfl : prev = live := Option.some.inj (hpre.symm.trans hlive)
      rw [hobj, replicasOf_planned hplanned]
      rcases hspares (m, g) hmg prev (hkey ▸ hprev) with hsame | hcurrent
      · exact hsame.symm
      · exact absurd (hcurrent v hv) hne

/-! ## Scaling a tier -/

instance (name : String) (w : World) : DecidablePred (sparesReplicas hash request name w)
  | .scale _ _ _ => .isTrue trivial
  | .edit _ => .isTrue trivial
  | .reconcile env o _ => inferInstanceAs (Decidable (∀ mg ∈ storedGroup request name w,
      ∀ live ∈ (w.cluster.store (workloadKind mg.2.spec)).find? (mg.1.ns, groupName mg.1 mg.2),
        replicasOf _ live = mg.2.spec.replicas ∨
          ∀ v ∈ plannedHash env hash o mg.1 ⟨w.cluster, w.calls + 1⟩ mg.2, v = hashOf live))

/-- Two tiers of historicals, the first with an autoscaler. -/
def scaledTiers (image : String) : Druid where
  metadata := { name := "c", ns := "d", generation := 2 }
  body := {
    spec := {
      image := image
      nodes := ⟨[⟨"hot", { nodeType := .historical, druidPort := 8083, replicas := 1,
                           hpAutoScaler := some .null }⟩,
        ⟨"cold", { nodeType := .historical, druidPort := 8083, replicas := 1 }⟩], by decide⟩ } }

def deployed : Action := .reconcile {} {} (.ok ())

/-- The autoscaler gives the hot tier five nodes. -/
def scaledUp : Action := .scale .statefulSet ("d", "druid-c-hot") 5

theorem replicas_kept_hot :
    Meets (step imageHash ("d", "c")) (keepsReplicas imageHash ("d", "c") "hot")
    (storedAlone (scaledTiers "v1")) [deployed, scaledUp, deployed] :=
  replicas_kept "hot" (by simp +contextual [deployed, scaledUp, Env.Alone]) (by decide +kernel)

/-- The replica count stored for the hot tier. -/
def hotReplicas (w : World) : Option Int :=
  ((w.cluster.store .statefulSet).find? ("d", "druid-c-hot")).map (replicasOf .statefulSet)

/-- After an edit of the image, the next reconcile sets the five nodes back to the one of the
spec. -/
theorem scaled_back :
    let w := run (step imageHash ("d", "c")) (storedAlone (scaledTiers "v1"))
      [deployed, scaledUp, .edit (scaledTiers "v2").spec]
    hotReplicas w = some 5 ∧
      hotReplicas (step imageHash ("d", "c") w deployed) = some 1 ∧
      (scaledTiers "v2").spec.nodes = (scaledTiers "v1").spec.nodes :=
  ⟨by decide +kernel, by decide +kernel, rfl⟩

end DruidOperator.Controller.Autoscaling
