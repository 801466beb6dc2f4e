import DruidOperator.OrphanRuns
import DruidOperator.Handler

/-!
# Claims that the resource asks for

A node group may list claims of its own, and a reconcile creates them with the labels of the group.
The pass over orphaned claims looks for one of these labels and for mounts, not for the spec: a
claim that the spec asks for and no pod mounts is marked, and deleted a minute later.
-/

namespace DruidOperator.Controller

open Interaction Prog Kube Runs

/-- The names of the claims a group lists; one without a name gets that of the group. -/
def requestedNames (m : Druid) : List String :=
  m.spec.nodes.items.flatMap fun g => g.spec.persistentVolumeClaim.map fun pvc =>
    if pvc.name = "" then makeNodeSpecificUniqueString m g.key else pvc.name

inductive RequestAction where
  /-- Edits of the resource, the rest of a reconcile, pods that come and go. -/
  | change (f : Cluster → Cluster)
  /-- The pass of a reconcile of `m`. -/
  | pass (m : Druid) (env : Env)

def requestStep (c : Cluster) : RequestAction → Cluster
  | .change f => f c
  | .pass m env => (pass m env c).state.cluster

/-- Nobody else writes during a pass. -/
def PassesAlone (_ : Cluster) : RequestAction → Prop
  | .change _ => True
  | .pass _ env => env.Alone

/-- The mark of the claim is less than 60 seconds old. -/
def isYoung (pvc : Obj .persistentVolumeClaim) (now : Int) : Bool :=
  match parseInt (deletionTS pvc) with
  | none => true
  | some τ => decide (timeDifference τ now < 60)

/-- A pass that finds every pod healthy finds each requested claim mounted, not marked, or marked
less than 60 seconds ago. -/
def sparesRequested (c : Cluster) : RequestAction → Bool
  | .change _ => true
  | .pass m env => !(seenPods m c).all podHealthy ||
      (seenClaims m c).all fun pvc => !decide (pvc.name ∈ requestedNames m) ||
        decide (pvc.name ∈ mountedPVCs (seenPods m c)) || !isMarked pvc || isYoung pvc env.clock

/-- The pass deletes no requested claim. -/
def KeepsRequested (c : Cluster) : RequestAction → Prop
  | .change _ => True
  | .pass m env => ∀ e ∈ (pass m env c).steps, ∀ obj orphan,
      e.req = .delete .persistentVolumeClaim obj orphan → obj.name ∉ requestedNames m

theorem FoundOld.not_young {mounted : List String} {t : Int} {pvc : Obj .persistentVolumeClaim}
    (h : FoundOld mounted t pvc) : isYoung pvc t = false := by
  obtain ⟨τ, hτ, hold⟩ := h.old
  simp [isYoung, hτ, hold]

theorem keepsRequested_of_spares {c : Cluster} {a : RequestAction} (halone : PassesAlone c a)
    (hspares : sparesRequested c a = true) : KeepsRequested c a := by
  cases a with
  | change f => trivial
  | pass m env =>
      intro e he obj orphan hreq hrequested
      obtain ⟨hsweeps, hseen, hold⟩ := (pass_marks halone m c).2 e he obj orphan hreq
      simp only [sparesRequested, hsweeps.healthy, Bool.not_true, Bool.false_or,
        List.all_eq_true] at hspares
      have hobj := hspares obj hseen
      simp [hrequested, hold.unmounted, hold.marked, hold.not_young] at hobj

/-- **Requested claims are kept.** In every run whose passes find requested claims mounted, not
marked, or marked less than 60 seconds ago, no pass deletes a claim its resource asks for. -/
theorem requested_claims_kept {c : Cluster} {acts : List RequestAction}
    (halone : Meets requestStep PassesAlone c acts)
    (hspares : Meets requestStep (fun c a => sparesRequested c a = true) c acts) :
    Meets requestStep KeepsRequested c acts :=
  (halone.and hspares).imp fun _ _ _ h => keepsRequested_of_spares h.1 h.2

/-- A group that lists the claim `data`. -/
def scratchGroup : DruidNodeSpec where
  nodeType := .historical
  druidPort := 8083
  replicas := 1
  persistentVolumeClaim := [{ metadata := { name := "data" }, body := {} }]

def scratchCluster : Druid where
  metadata := { name := "c", ns := "d", generation := 2 }
  body := { spec := {
    image := "v1"
    deleteOrphanPvc := true
    nodes := ⟨[⟨"hot", scratchGroup⟩], by decide⟩ } }

/-- A healthy pod that mounts the claim. -/
def scratchPod : Obj .pod where
  metadata := { name := "p", ns := "d", labels := some (makeLabelsForDruid scratchCluster) }
  body := { volumes := [⟨"v", .persistentVolumeClaim "data"⟩] }

theorem requested_claims_kept_scratch :
    let c := withPods (Table.insert .empty scratchPod) archiveCluster
    Meets requestStep KeepsRequested c
      [.pass scratchCluster { clock := 0 }, .pass scratchCluster { clock := 60 }] := by
  intro c
  have halone : Meets requestStep PassesAlone c
      [.pass scratchCluster { clock := 0 }, .pass scratchCluster { clock := 60 }] :=
    ⟨fun _ _ => rfl, fun _ _ => rfl, trivial⟩
  exact requested_claims_kept halone (by decide +kernel)

/-- A reconcile of the cluster at some time. -/
def reconcileScratch (clock : Int) (w : World) : Outcome sig World Exit Unit :=
  exec (serve { clock := clock }) (deployDruidCluster (fun _ _ => "") {} scratchCluster)
    ⟨w.cluster, 0⟩

/-- Two reconciles a minute apart: the first creates the claim and marks it, the second deletes
it. -/
theorem requested_but_deleted :
    let first := reconcileScratch 0 (storedAlone scratchCluster)
    let second := reconcileScratch 60 first.state
    requestedNames scratchCluster = ["data"] ∧ first.res = .ok () ∧
      (first.state.cluster.find? .persistentVolumeClaim "d" "data").isSome ∧
      deletedClaims second.steps = ["data"] := by
  decide +kernel

end DruidOperator.Controller
