import DruidOperator.ConfigRollout
import DruidOperator.ExtraConfig

/-!
# Failed reads of the common configuration

A ConfigMap the resource refers to may be there and still not be read. The call goes on without its
files, and nothing tells of it. `common_config_iff` says when that does no harm: only where no such
read fails.
-/

namespace DruidOperator.Controller

open Interaction Prog Kube

/-! ## Failed reads -/

/-- A request fails, with another error than that there is no such object. -/
def Failed (fault : Option Fault) : Prop := ∃ f, fault = some f ∧ f.err.notFound = false

/-- One of the two requests for the `i`-th reference fails. -/
def ReadFails (m : Druid) (faults : ℕ → Option Fault) (i : ℕ) : Prop :=
  Failed (faults i) ∨ Failed (faults (m.spec.extraCommonConfig.length + i))

/-- The requests for the references fail as in `faults`, those of the first reading and then those
of the second. -/
def Fails (env : Env) (m : Druid) (w : World) (faults : ℕ → Option Fault) : Prop :=
  ∀ i < m.spec.extraCommonConfig.length + m.spec.extraCommonConfig.length,
    env.fault (w.calls + i) = faults i

/-- A ConfigMap that is there is not read: the call gets as far as its references, and a request for
one that is stored fails. -/
def Unread (o : MapOrders) (m : Druid) (c : Cluster) (faults : ℕ → Option Fault) : Prop :=
  verifyDruidSpec o m = .ok () ∧ (∃ data, commonConfigData m = .ok data) ∧
    ∃ i ref cm, m.spec.extraCommonConfig[i]? = some ref ∧ storedConfig c ref = some cm ∧
      ReadFails m faults i

/-- The common ConfigMap as it is stored. -/
def storedCommon (m : Druid) (c : Cluster) : Option (Obj .configMap) :=
  storedConfig c ⟨m.ns, commonConfigName m⟩

/-- The variable `configMapSHA` of a stored workload. -/
def storedSHA (c : Cluster) (k : Kind) (key : String × String) : Option String :=
  ((c.store k).find? key).bind (configMapSHA k)

/-- **What is to hold of a call that cannot read a ConfigMap.** It fails, and leaves the common
ConfigMap and the variable of every workload as they were. -/
structure Spared (m : Druid) (c : Cluster) (out : Outcome sig World Exit Unit) : Prop where
  fails : ∃ e, out.res = .error e
  common : storedCommon m out.state.cluster = storedCommon m c
  workloads : ∀ k key, storedSHA out.state.cluster k key = storedSHA c k key

/-! ## What the call does instead -/

/-- Applying an object under another hash than that of the stored one changes what is stored. -/
theorem Applied.changed {k : Kind} {isEqualFn : Obj k → Obj k → Bool} {obj : Obj k} {c c' : Cluster}
    {status : DruidNodeStatus} (h : Applied isEqualFn noopUpdaterFn obj c status c')
    (hhash : ∀ prev, (c.store k).find? obj.key = some prev → hashOf obj ≠ hashOf prev) :
    (c'.store k).find? obj.key ≠ (c.store k).find? obj.key := by
  cases h with
  | created hstored =>
      rw [Cluster.modify_store_self, Table.find?_insert (by exact hstored), hstored]
      exact ne_of_eq_of_ne (if_pos rfl) (Option.some_ne_none _)
  | unchanged prev hstored hsame => exact absurd hsame (hhash prev hstored)
  | updated prev hstored hdiffers =>
      rw [Cluster.modify_store_self, hstored]
      intro hfound
      rcases Cluster.find?_put_cases hfound with ⟨hother, -⟩ | ⟨-, heq⟩
      · exact hother rfl
      · exact hhash prev hstored (congrArg hashOf heq).symm

section Changed

variable {env : Env} {k : Kind} {isEqualFn : Obj k → Obj k → Bool}
    {updaterFn : Obj k → Obj k → Obj k}
  {obj : Obj k} {w : World}

theorem calls_of_changed (henv : env.Alone)
    (h : (exec (serve env) (createOrUpdate isEqualFn updaterFn obj) w).state.cluster ≠ w.cluster) :
    (exec (serve env) (createOrUpdate isEqualFn updaterFn obj) w).state.calls = w.calls + 2 := by
  have hread : (serve env (.get k obj.ns obj.name) w).2 = ⟨w.cluster, w.calls + 1⟩ :=
    serve_read henv rfl
  have hcourse := exec_createOrUpdate (h := serve env) isEqualFn updaterFn obj w
  generalize exec (serve env) (createOrUpdate isEqualFn updaterFn obj) w = out at hcourse h ⊢
  cases hcourse with
  | getFailed err hget hfound msg => exact absurd (congrArg World.cluster hread) h
  | unchanged prev hget hhash => exact absurd (congrArg World.cluster hread) h
  | created err hget hfound t ht answer hcreate =>
      subst ht
      rw [serve_calls, hread]
  | updated prev hget hhash t ht answer hupdate =>
      subst ht
      rw [serve_calls, hread]

end Changed

/-- The requests for the references fail as they are said to, the two that apply the common
ConfigMap do not, and all later ones are in vain. -/
def onlyCommon (m : Druid) (faults : ℕ → Option Fault) : Env where
  fault n :=
    if n < m.spec.extraCommonConfig.length + m.spec.extraCommonConfig.length then faults n
    else if n < m.spec.extraCommonConfig.length + m.spec.extraCommonConfig.length + 2 then none
    else some { err := ⟨"", false⟩ }

theorem fails_onlyCommon (m : Druid) (faults : ℕ → Option Fault) (c : Cluster) :
    Fails (onlyCommon m faults) m ⟨c, 0⟩ faults := by
  intro i hi
  rw [Nat.zero_add]
  exact if_pos hi

/-- What comes after the common ConfigMap changes nothing. -/
theorem exec_in_vain {m : Druid} {faults : ℕ → Option Fault} {α : Type} (p : Code α) {w : World}
    (hw : m.spec.extraCommonConfig.length + m.spec.extraCommonConfig.length + 2 ≤ w.calls) :
    (exec (serve (onlyCommon m faults)) p w).state.cluster = w.cluster := by
  have hkeeps : p.Uses fun r => ∀ v : World,
      v.cluster = w.cluster ∧ w.calls ≤ v.calls →
      ((serve (onlyCommon m faults) r v).2.cluster = w.cluster ∧
        w.calls ≤ (serve (onlyCommon m faults) r v).2.calls) ∧ True := by
    refine uses_of_forall p fun r v hv => ⟨⟨?_, ?_⟩, trivial⟩
    · have hfault : (onlyCommon m faults).fault v.calls = some { err := ⟨"", false⟩ } := by
        rw [onlyCommon]
        dsimp only
        rw [if_neg (by omega), if_neg (by omega)]
      simp only [serve, hfault]
      exact hv.1
    · rw [serve_calls]
      omega
  exact (Triple.ofUses (G := fun _ => True) hkeeps w ⟨rfl, le_rfl⟩).1.1

theorem exists_start (s : String) : ∃ start : String, ∀ t, start ++ t ≠ s := by
  by_cases hs : s.toList.head? = some 'a'
  · refine ⟨"b", fun t h => ?_⟩
    rw [← h] at hs
    simp at hs
  · refine ⟨"a", fun t h => hs ?_⟩
    rw [← h]
    simp

/-- A hash that tells ConfigMaps apart, and that a given one of them does not carry. -/
theorem exists_hash_ne (prev : Option (Obj .configMap)) :
    ∃ hash : Hash, Function.Injective (hash .configMap) ∧
      ∀ obj, ∀ stored ∈ prev, hash .configMap obj ≠ hashOf stored := by
  obtain ⟨start, hstart⟩ := exists_start (prev.elim "" hashOf)
  refine ⟨fun k obj => start ++ countingText k obj, fun a b h => ?_, fun obj stored hstored => ?_⟩
  · exact configNumber_injective (unary_injective ((String.append_right_inj start).1 h))
  · cases hstored
    exact hstart _

theorem fault_onlyCommon {m : Druid} {faults : ℕ → Option Fault} {c : Cluster} {n : ℕ}
    (hle : commonCall m ⟨c, 0⟩ ≤ n) (hlt : n < commonCall m ⟨c, 0⟩ + 2) :
    (onlyCommon m faults).fault n = none := by
  simp only [commonCall] at hle hlt
  rw [onlyCommon]
  dsimp only
  rw [if_neg (by omega), if_pos (by omega)]

/-- **The common ConfigMap is written all the same**, with the files that could be read. -/
theorem common_changed (o : MapOrders) {m : Druid} (hverify : verifyDruidSpec o m = .ok ())
    {data : StrMap} (hdata : commonConfigData m = .ok data) (faults : ℕ → Option Fault)
    (c : Cluster) :
    ∃ hash : Hash, Function.Injective (hash .configMap) ∧
      storedCommon m (exec (serve (onlyCommon m faults)) (deployDruidCluster hash o m)
        ⟨c, 0⟩).state.cluster ≠ storedCommon m c := by
  have henv : (onlyCommon m faults).Alone := fun _ _ => rfl
  obtain ⟨hash, hinj, hnew⟩ := exists_hash_ne (storedCommon m c)
  refine ⟨hash, hinj, ?_⟩
  set planned :=
    plannedCommon hash m (writtenData (onlyCommon m faults) m ⟨c, 0⟩ data) with hplanned
  have hcall : commonCall m ⟨c, 0⟩ =
      m.spec.extraCommonConfig.length + m.spec.extraCommonConfig.length := by
    simp only [commonCall]
    omega
  obtain ⟨status, hres, happlied⟩ := createOrUpdate_applied henv (by decide)
    alwaysTrueIsEqualsFn noopUpdaterFn_key noopUpdaterFn_version planned
    (w := ⟨c, commonCall m ⟨c, 0⟩⟩)
    (fault_onlyCommon le_rfl (Nat.lt_add_of_pos_right Nat.two_pos))
    (fault_onlyCommon (Nat.le_succ _) (Nat.lt_succ_self _))
  have hchanged := happlied.changed fun prev hprev => by
    rw [hplanned, plannedCommon, hashOf_prepare]
    exact hnew _ prev hprev
  -- the state after the common ConfigMap is that after the whole call
  obtain ⟨reads, -, hrun⟩ := exec_applyCommonConfig henv hash hdata ⟨c, 0⟩
  have hcalls := calls_of_changed henv fun heq => hchanged (by rw [heq])
  rw [applyMade, exec_bind_ok hres] at hrun
  rw [deployDruidCluster_eq, hverify]
  dsimp only
  rw [exec_bind_ok (congrArg Outcome.res hrun), hrun]
  dsimp only
  rw [exec_in_vain _ (by rw [exec_ret, hcalls, hcall])]
  exact hchanged

/-- **When a failed read does no harm.** A call that cannot read a ConfigMap fails and changes
neither the common ConfigMap nor the variable of a workload, whatever else happens, exactly if every
ConfigMap that is there is read. -/
theorem common_config_iff (o : MapOrders) (m : Druid) (c : Cluster) (faults : ℕ → Option Fault) :
    (∀ (hash : Hash) (env : Env) (w : World), Function.Injective (hash .configMap) → env.Alone →
      w.cluster = c → Fails env m w faults → Unread o m c faults →
      Spared m c (exec (serve env) (deployDruidCluster hash o m) w)) ↔
    ¬ Unread o m c faults := by
  constructor
  · intro hspared hunread
    have hmet := hunread
    obtain ⟨hverify, ⟨data, hdata⟩, -⟩ := hmet
    obtain ⟨hash, hinj, hchanged⟩ := common_changed o hverify hdata faults c
    exact hchanged (hspared hash (onlyCommon m faults) ⟨c, 0⟩ hinj (fun _ _ => rfl) rfl
      (fails_onlyCommon m faults c) hunread).common
  · intro hread hash env w hinj henv hw hfails hunread
    exact absurd hunread hread

/-! ### A ConfigMap that cannot be read once -/

/-- The cluster takes a file from another ConfigMap. -/
def extraFileCluster : Druid where
  metadata := { name := "c", ns := "d" }
  body := {
    spec := {
      image := "v1"
      extraCommonConfig := [⟨"d", "extra"⟩]
      nodes :=
        Table.insert .empty ⟨"b", { nodeType := .broker, druidPort := 8082, replicas := 1 }⟩ } }

def extraFile : Obj .configMap := makeConfigMap "extra" "d" ∅ (Finmap.singleton "extra.xml" "x")

/-- The ConfigMap is stored besides the resource. -/
def extraStored : World where
  cluster := {
    store := Function.update (storedAlone extraFileCluster).cluster.store .configMap
      (Table.insert .empty extraFile) }

/-- A hash of that file, and for workloads the variable, for concrete runs. -/
def extraFileHash : Hash
  | .configMap, obj => StrMap.getD (some obj.body) "extra.xml"
  | k, obj => (configMapSHA k obj).getD ""

/-- Every request for the ConfigMap fails. -/
def unreadable : ℕ → Option Fault := fun _ => some { err := ⟨"timeout", false⟩ }

/-- Nothing but the requests for the ConfigMap fails. -/
def failingReads : Env where
  fault n := if n < 2 then unreadable n else none

/-- The call updates the common ConfigMap without the file. -/
def losesExtraFile (r : Request) : Bool :=
  match r with
  | .update .configMap obj => decide (obj.name = "c-druid-common-config" ∧
      (obj.body : StrMap).lookup "extra.xml" = none)
  | _ => false

/-- The cluster after a call in which nothing fails. -/
def extraDeployed : Outcome sig World Exit Unit :=
  exec (serve {}) (deployDruidCluster extraFileHash {} extraFileCluster) extraStored

/-- A call after it, in which the ConfigMap cannot be read. -/
def extraUnread : Outcome sig World Exit Unit :=
  exec (serve failingReads) (deployDruidCluster extraFileHash {} extraFileCluster)
    ⟨extraDeployed.state.cluster, 0⟩

/-- After a call in which nothing failed, one in which the ConfigMap cannot be read takes its file
out of the common ConfigMap, rolls out the broker without it and returns no error. -/
theorem extra_file_lost :
    extraDeployed.res = .ok () ∧
    Unread {} extraFileCluster extraDeployed.state.cluster unreadable ∧
    (extraUnread.steps.any fun e => losesExtraFile e.req) ∧
    storedSHA extraDeployed.state.cluster .statefulSet ("d", "druid-c-b") = some "x-" ∧
    storedSHA extraUnread.state.cluster .statefulSet ("d", "druid-c-b") = some "-" ∧
    extraUnread.res = .ok () ∧
    ¬ Spared extraFileCluster extraDeployed.state.cluster extraUnread := by
  have hrun : extraDeployed.res = .ok () ∧
      (storedConfig extraDeployed.state.cluster ⟨"d", "extra"⟩).isSome ∧
      (commonConfigData extraFileCluster).isOk = true ∧
      verifyDruidSpec {} extraFileCluster = .ok () ∧
      (extraUnread.steps.any fun e => losesExtraFile e.req) ∧
      storedSHA extraDeployed.state.cluster .statefulSet ("d", "druid-c-b") = some "x-" ∧
      storedSHA extraUnread.state.cluster .statefulSet ("d", "druid-c-b") = some "-" ∧
      extraUnread.res = .ok () := by
    decide +kernel
  obtain ⟨hfirst, hstored, hdata, hverify, hlost, hbefore, hafter, hres⟩ := hrun
  refine ⟨hfirst, ⟨hverify, ?_, 0, _, _, rfl, (Option.some_get hstored).symm, ?_⟩, hlost, hbefore,
    hafter, hres, fun hspared => ?_⟩
  · cases h : commonConfigData extraFileCluster with
    | ok data => exact ⟨data, rfl⟩
    | error e => simp [h, Except.isOk, Except.toBool] at hdata
  · exact .inl ⟨_, rfl, rfl⟩
  · obtain ⟨e, he⟩ := hspared.fails
    rw [hres] at he
    cases he

end DruidOperator.Controller
