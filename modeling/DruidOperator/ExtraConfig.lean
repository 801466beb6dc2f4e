import DruidOperator.Footprint

/-!
# Reading the extra configuration

`addExtraCommonConfig` adds the files of the ConfigMaps the resource refers to, and skips one that
cannot be read, for whatever reason. The common ConfigMap is made twice in a call: once for its
hash, which every pod template carries, and once to be written.

* `exec_makeCommonConfigMap` — what is made, for every pattern of failures.
* `exec_applyCommonConfig` — what a call does about the common ConfigMap.
-/

namespace DruidOperator.Controller

open Interaction Prog Kube

/-! ## The files -/

/-- The ConfigMap that is referred to. -/
def storedConfig (c : Cluster) (ref : ObjectReference) : Option (Obj .configMap) :=
  c.find? .configMap ref.ns ref.name

/-- What the `n`-th request reads, if it asks for the ConfigMap. -/
def readConfig (env : Env) (c : Cluster) (n : ℕ) (ref : ObjectReference) :
    Option (Obj .configMap) :=
  if (env.fault n).isSome then none else storedConfig c ref

/-- The files once the references are read, from the `n`-th request on. -/
def extraData (env : Env) (c : Cluster) : ℕ → List ObjectReference → StrMap → StrMap
  | _, [], data => data
  | n, ref :: refs, data => extraData env c (n + 1) refs
      (match readConfig env c n ref with
        | some cm => data.overlay cm.body
        | none => data)

/-- The common ConfigMap with these files, as it is sent. -/
def plannedCommon (hash : Hash) (m : Druid) (data : StrMap) : Obj .configMap :=
  prepare hash m (makeConfigMap (commonConfigName m) m.ns (makeLabelsForDruid m) data)

section Exec

variable {env : Env} (henv : env.Alone)

include henv

theorem serve_getConfig (w : World) (ref : ObjectReference) :
    (serve env (.get .configMap ref.ns ref.name) w).2 = ⟨w.cluster, w.calls + 1⟩ ∧
      match (serve env (.get .configMap ref.ns ref.name) w).1 with
      | .ok cm => readConfig env w.cluster w.calls ref = some cm
      | .error _ => readConfig env w.cluster w.calls ref = none := by
  refine ⟨serve_read henv rfl, ?_⟩
  unfold readConfig
  cases hfault : env.fault w.calls with
  | some f =>
      rw [serve_fault hfault]
      rfl
  | none =>
      rw [serve_alone henv hfault, perform]
      unfold storedConfig
      cases hfind : w.cluster.find? .configMap ref.ns ref.name with
      | none => simp
      | some cm => simp

/-- **Reading the extra files.** Nothing is written, and what was read decides. -/
theorem exec_addExtraFiles (refs : List ObjectReference) (w : World) (data : StrMap) :
    let o := exec (serve env) (accumulate (fun data cmRef => do
      match ← getObj .configMap cmRef.ns cmRef.name with
      | .error _ => return data
      | .ok cm => return data.overlay cm.body) data refs : Code StrMap) w
    o.res = .ok (extraData env w.cluster w.calls refs data) ∧
      o.state = ⟨w.cluster, w.calls + refs.length⟩ ∧ ∀ e ∈ o.steps, e.req.write = none := by
  induction refs generalizing w data with
  | nil => exact ⟨rfl, rfl, fun e he => by cases he⟩
  | cons ref refs ih =>
      obtain ⟨hstate, hread⟩ := serve_getConfig henv w ref
      simp only [accumulate_cons, getObj, call_bind, ret_bind, exec_call, pure_eq]
      rw [hstate]
      have hgo := fun data => ih ⟨w.cluster, w.calls + 1⟩ data
      simp only [getObj, call_bind, ret_bind, pure_eq] at hgo
      have hlength : w.calls + 1 + refs.length = w.calls + (ref :: refs).length := by
        rw [List.length_cons, Nat.add_assoc, Nat.add_comm 1]
      rw [extraData, ← hlength]
      cases hanswer : (serve env (.get .configMap ref.ns ref.name) w).1 with
      | error err =>
          rw [hanswer] at hread
          obtain ⟨hres, hafter, hquiet⟩ := hgo data
          rw [hread]
          exact ⟨hres, hafter, List.forall_mem_cons.2 ⟨rfl, hquiet⟩⟩
      | ok cm =>
          rw [hanswer] at hread
          obtain ⟨hres, hafter, hquiet⟩ := hgo (data.overlay cm.body)
          rw [hread]
          exact ⟨hres, hafter, List.forall_mem_cons.2 ⟨rfl, hquiet⟩⟩

theorem exec_makeCommonConfigMap {m : Druid} {data : StrMap} (hdata : commonConfigData m = .ok data)
    (ls : StrMap) (w : World) :
    (exec (serve env) (makeCommonConfigMap m ls) w).res =
        .ok (makeConfigMap (commonConfigName m) m.ns ls
          (extraData env w.cluster w.calls m.spec.extraCommonConfig data)) ∧
      (exec (serve env) (makeCommonConfigMap m ls) w).state =
        ⟨w.cluster, w.calls + m.spec.extraCommonConfig.length⟩ ∧
      ∀ e ∈ (exec (serve env) (makeCommonConfigMap m ls) w).steps, e.req.write = none := by
  obtain ⟨hres, hstate, hquiet⟩ := exec_addExtraFiles henv m.spec.extraCommonConfig w data
  unfold makeCommonConfigMap
  rw [hdata, orReturn_ok, ret_bind]
  rw [exec_bind_ok (p := addExtraCommonConfig m data) hres]
  refine ⟨rfl, hstate, fun e he => ?_⟩
  rw [List.mem_append] at he
  exact he.elim (hquiet e) fun he => by cases he

end Exec

/-- The files of the first reading, for the hash. -/
def hashedData (env : Env) (m : Druid) (w : World) (data : StrMap) : StrMap :=
  extraData env w.cluster w.calls m.spec.extraCommonConfig data

/-- The files of the second reading, for what is written. -/
def writtenData (env : Env) (m : Druid) (w : World) (data : StrMap) : StrMap :=
  extraData env w.cluster (w.calls + m.spec.extraCommonConfig.length) m.spec.extraCommonConfig data

/-- The first request that applies the common ConfigMap: the ConfigMaps it is made from are read
twice before. -/
def commonCall (m : Druid) (w : World) : ℕ := w.calls + 2 * m.spec.extraCommonConfig.length

/-- What is left of applying the common ConfigMap once it is made twice. -/
def applyMade (hash : Hash) (m : Druid) (hashed written : StrMap) : Code (String × String) :=
  createOrUpdate alwaysTrueIsEqualsFn noopUpdaterFn (plannedCommon hash m written) >>= fun _ =>
    .ret (hash .configMap (makeConfigMap (commonConfigName m) m.ns (makeLabelsForDruid m) hashed),
      commonConfigName m)

/-- **Applying the common ConfigMap.** It is read twice and then applied like any object. -/
theorem exec_applyCommonConfig {env : Env} (henv : env.Alone) (hash : Hash) {m : Druid}
    {data : StrMap} (hdata : commonConfigData m = .ok data) (w : World) :
    ∃ reads, (∀ e ∈ reads, e.req.write = none) ∧
      exec (serve env) (applyCommonConfig hash m) w =
        ⟨(exec (serve env) (applyMade hash m (hashedData env m w data) (writtenData env m w data))
            ⟨w.cluster, commonCall m w⟩).res,
          (exec (serve env) (applyMade hash m (hashedData env m w data) (writtenData env m w data))
            ⟨w.cluster, commonCall m w⟩).state,
          reads ++ (exec (serve env) (applyMade hash m (hashedData env m w data)
            (writtenData env m w data)) ⟨w.cluster, commonCall m w⟩).steps⟩ := by
  obtain ⟨hres, hstate, hquiet⟩ := exec_makeCommonConfigMap henv hdata (makeLabelsForDruid m) w
  obtain ⟨hres', hstate', hquiet'⟩ := exec_makeCommonConfigMap henv hdata (makeLabelsForDruid m)
    ⟨w.cluster, w.calls + m.spec.extraCommonConfig.length⟩
  have hcall : w.calls + m.spec.extraCommonConfig.length + m.spec.extraCommonConfig.length =
      commonCall m w := by
    unfold commonCall
    omega
  refine ⟨(exec (serve env) (makeCommonConfigMap m (makeLabelsForDruid m)) w).steps ++
    (exec (serve env) (makeCommonConfigMap m (makeLabelsForDruid m))
      ⟨w.cluster, w.calls + m.spec.extraCommonConfig.length⟩).steps, ?_, ?_⟩
  · intro e he
    exact (List.mem_append.1 he).elim (hquiet e) (hquiet' e)
  · rw [applyCommonConfig, exec_bind_ok hres, hstate, exec_bind_ok hres', hstate', hcall,
      List.append_assoc]
    rfl

theorem applyCommonConfig_no_data {σ : Type} (h : Handler sig σ) {m : Druid} {e : Error}
    (hdata : commonConfigData m = .error e) (hash : Hash) (s : σ) :
    exec h (applyCommonConfig hash m) s = ⟨.error (.error e), s, []⟩ := by
  unfold applyCommonConfig makeCommonConfigMap
  rw [hdata]
  rfl

end DruidOperator.Controller
