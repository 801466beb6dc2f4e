import DruidOperator.SharedProbes
import DruidOperator.VolumeExpansionProof
import Mathlib.Data.Countable.Basic
import Mathlib.Logic.Equiv.List

/-!
# Configuration changes and rollouts

The pods of a group carry the hashes of their two ConfigMaps in the variable `configMapSHA`, so that
a change of the configuration changes the pod template and the workload is rolled out again.

**What is assumed of the hash** (`Encoding`). It is the SHA-1 of the JSON text, in base64. SHA-1 and
the encoding of ConfigMaps are injective, and the text of a workload shows that variable.

**What follows** (`config_rollout_iff`). Two versions of a resource have the same variable in the
pod template of a group exactly if both ConfigMaps are the same. If they are not, applying the new
workload where the old one of the same kind is stored updates it to another template.
-/

namespace DruidOperator.Controller

open Interaction Prog Kube

/-! ## The hash -/

/-- The environment of the main container. -/
def mainEnv (k : Kind) (obj : Obj k) : Option (List EnvVar) :=
  (podTemplate k obj).bind fun template => template.spec.containers.head?.map Container.env

/-- The value of the variable `configMapSHA`, which comes last. -/
def configMapSHA (k : Kind) (obj : Obj k) : Option String :=
  (mainEnv k obj).bind fun env => env.getLast?.map EnvVar.value

/-- `getObjectHash` as the SHA-1 of a JSON text, in base64. -/
structure Encoding (hash : Hash) where
  json : (k : Kind) → Obj k → String
  sha : String → String
  hash_eq : ∀ k obj, hash k obj = sha (json k obj)
  sha_injective : Function.Injective sha
  config_injective : Function.Injective (json .configMap)
  /-- The alphabet of base64 has no hyphen. -/
  base64 : ∀ text, '-' ∉ (sha text).toList
  /-- The text of a workload shows the variable. -/
  shows : ∀ k (a b : Obj k), json k a = json k b → configMapSHA k a = configMapSHA k b

namespace Encoding

variable {hash : Hash} (enc : Encoding hash)

include enc

theorem config_inj {a b : Obj .configMap} : hash .configMap a = hash .configMap b ↔ a = b := by
  refine ⟨fun h => ?_, fun h => by rw [h]⟩
  rw [enc.hash_eq, enc.hash_eq] at h
  exact enc.config_injective (enc.sha_injective h)

theorem hyphen_notMem {k : Kind} (obj : Obj k) : '-' ∉ (hash k obj).toList := by
  rw [enc.hash_eq]
  exact enc.base64 _

theorem configMapSHA_eq {k : Kind} {a b : Obj k} (h : hash k a = hash k b) :
    configMapSHA k a = configMapSHA k b := by
  rw [enc.hash_eq, enc.hash_eq] at h
  exact enc.shows k a b (enc.sha_injective h)

/-- Two hashes with a hyphen between them can be told apart again. -/
theorem pair_inj {common₁ common₂ node₁ node₂ : Obj .configMap} :
    hash .configMap common₁ ++ "-" ++ hash .configMap node₁ =
        hash .configMap common₂ ++ "-" ++ hash .configMap node₂ ↔
      common₁ = common₂ ∧ node₁ = node₂ := by
  constructor
  · intro h
    have hchars := congrArg String.toList h
    simp only [String.toList_append, List.append_assoc] at hchars
    have hcommon := append_separator_inj (enc.hyphen_notMem node₁) (enc.hyphen_notMem node₂) hchars
    rw [hcommon] at hchars
    have hnode := List.append_cancel_left (List.append_cancel_left hchars)
    exact ⟨enc.config_inj.1 (String.toList_inj.1 hcommon),
      enc.config_inj.1 (String.toList_inj.1 hnode)⟩
  · rintro ⟨rfl, rfl⟩
    rfl

end Encoding

/-! ## The workload of a group -/

/-- The workload that a call makes for a group of `m`, if `common` is the common ConfigMap. -/
def WorkloadOf (hash : Hash) (o : MapOrders) (m : Druid) (common : Obj .configMap)
    (g : ServiceGroup) (k : Kind) (obj : Obj k) : Prop :=
  ∃ done rest, getNodeSpecsByOrder o.groups m = done ++ g :: rest ∧
    PlannedWorkload hash (hash .configMap common) (seenAfter hash (hash .configMap common) m done) g
      k obj

/-- Whatever is answered, a call writes no other workloads, apart from their versions. The common
ConfigMap is the one made first. -/
theorem workloadOf_of_sent {σ : Type} (h : Handler sig σ) (hash : Hash) (o : MapOrders) (m : Druid)
    {s : σ} {e : Step sig σ} (he : e ∈ (exec h (deployDruidCluster hash o m) s).steps) {k : Kind}
    (hk : k = .statefulSet ∨ k = .deployment) {obj : Obj k}
    (hreq : e.req = .create k obj ∨ e.req = .update k obj) :
    ∃ common g planned version,
      (exec h (makeCommonConfigMap m (makeLabelsForDruid m)) s).res = .ok common ∧
        WorkloadOf hash o m common g k planned ∧ obj = planned.withResourceVersion version := by
  obtain ⟨common, done, g, rest, planned, version, hcommon, hgroups, -, hplanned, rfl⟩ :=
    workload_planned h hash o m hk he hreq
  exact ⟨common, g, planned, version, hcommon, ⟨done, rest, hgroups, hplanned⟩, rfl⟩

theorem makePodSpec_env (nodeSpec : DruidNodeSpec) (m : Druid) (uniqueStr sha : String) :
    (makePodSpec nodeSpec m uniqueStr sha).containers.head?.map Container.env =
      some (getEnv nodeSpec m sha) := by
  unfold makePodSpec
  rw [addAdditionalContainers_head m nodeSpec rfl]
  rfl

namespace WorkloadOf

variable {hash : Hash} {o : MapOrders} {m : Druid} {common : Obj .configMap} {g : ServiceGroup}
  {k : Kind} {obj : Obj k}

theorem key_eq (hobj : WorkloadOf hash o m common g k obj) : obj.key = (m.ns, groupName m g) := by
  obtain ⟨done, rest, -, hplanned⟩ := hobj
  obtain ⟨-, hname, -, -, hns⟩ := (shares_seenAfter hash (hash .configMap common) m done).group_eq
    hash (hash .configMap common) g
  rw [hplanned.key_eq, hname, hns]

theorem configMapSHA_eq (hobj : WorkloadOf hash o m common g k obj) :
    configMapSHA k obj =
      some (hash .configMap common ++ "-" ++ hash .configMap (groupConfig m g)) := by
  obtain ⟨done, rest, -, hplanned⟩ := hobj
  obtain ⟨-, -, hsha, -⟩ := (shares_seenAfter hash (hash .configMap common) m done).group_eq
    hash (hash .configMap common) g
  have henv : mainEnv k obj = some (getEnv (withDruidPort g.spec) (afterServices hash
      (seenAfter hash (hash .configMap common) m done) g) (groupConfigSHA hash
        (hash .configMap common) (seenAfter hash (hash .configMap common) m done) g)) := by
    rw [mainEnv, hplanned.podTemplate_eq]
    exact makePodSpec_env ..
  rw [configMapSHA, henv, hsha]
  simp [getEnv, groupConfigSHA]

theorem hashOf_eq (hobj : WorkloadOf hash o m common g k obj) :
    ∃ made : Obj k, hashOf obj = hash k made ∧ configMapSHA k made = configMapSHA k obj := by
  obtain ⟨done, rest, -, hplanned⟩ := hobj
  cases hplanned with
  | statefulSet hkind => exact ⟨_, hashOf_prepare .., rfl⟩
  | deployment hkind obj hobj =>
      obtain ⟨made, -, rfl⟩ := plannedDeployment_made hobj
      exact ⟨_, hashOf_prepare .., rfl⟩

end WorkloadOf

/-! ## Two versions -/

/-- The cluster stores the workload, with the annotations and the template it was sent with. -/
def Holds (c : Cluster) (k : Kind) (old stored : Obj k) : Prop :=
  c.find? k old.ns old.name = some stored ∧
    stored.metadata.annotations = old.metadata.annotations ∧
    podTemplate k stored = podTemplate k old

theorem configMapSHA_congr {k : Kind} {a b : Obj k} (h : podTemplate k a = podTemplate k b) :
    configMapSHA k a = configMapSHA k b := by
  unfold configMapSHA mainEnv
  rw [h]

theorem podTemplate_sent {k : Kind} (obj prev : Obj k) :
    podTemplate k (sent noopUpdaterFn obj prev) = podTemplate k obj := by
  cases k <;> rfl

theorem updated_of_hashOf_ne {σ : Type} {h : Handler sig σ} {k : Kind} {obj prev : Obj k} {s : σ}
    (isEqualFn : Obj k → Obj k → Bool) (updaterFn : Obj k → Obj k → Obj k)
    (hget : (h (.get k obj.ns obj.name) s).1 = .ok prev) (hhash : hashOf obj ≠ hashOf prev) :
    ∃ e ∈ (exec h (createOrUpdate isEqualFn updaterFn obj) s).steps,
      e.req = .update k (sent updaterFn obj prev) := by
  have hcourse := exec_createOrUpdate (h := h) isEqualFn updaterFn obj s
  generalize exec h (createOrUpdate isEqualFn updaterFn obj) s = run at hcourse ⊢
  cases hcourse with
  | getFailed err hget' hfound msg => cases hget.symm.trans hget'
  | created err hget' hfound t ht answer hcreate => cases hget.symm.trans hget'
  | unchanged prev' hget' hsame =>
      cases hget.symm.trans hget'
      exact absurd hsame hhash
  | updated prev' hget' hdiffers t ht answer hupdate =>
      cases hget.symm.trans hget'
      exact ⟨_, List.mem_cons_of_mem _ List.mem_cons_self, rfl⟩

theorem not_updated_of_error {σ : Type} {h : Handler sig σ} {k : Kind} {obj : Obj k} {s : σ}
    {err : Error} (isEqualFn : Obj k → Obj k → Bool) (updaterFn : Obj k → Obj k → Obj k)
    (hget : (h (.get k obj.ns obj.name) s).1 = .error err) {e : Step sig σ}
    (he : e ∈ (exec h (createOrUpdate isEqualFn updaterFn obj) s).steps) (k' : Kind)
    (obj' : Obj k') :
    e.req ≠ .update k' obj' := by
  have hcourse := exec_createOrUpdate (h := h) isEqualFn updaterFn obj s
  generalize exec h (createOrUpdate isEqualFn updaterFn obj) s = run at hcourse he
  cases hcourse with
  | getFailed err hget' hfound msg =>
      rw [List.mem_singleton.1 he]
      simp
  | created err hget' hfound t ht answer hcreate =>
      rcases List.mem_pair.1 he with rfl | rfl <;> simp
  | unchanged prev' hget' hsame => cases hget.symm.trans hget'
  | updated prev' hget' hdiffers t ht answer hupdate => cases hget.symm.trans hget'

/-- **A changed configuration rolls the workload out again.** For two versions of a resource and a
group of both: the variable in the pod template differs exactly if one of the two ConfigMaps does.
If it differs, `sdkCreateOrUpdateAsNeeded` with the new workload, run where the old one of the same
kind is stored, updates it to another template. What a call writes are these workloads. -/
theorem config_rollout_iff {hash : Hash} (enc : Encoding hash) (o₁ o₂ : MapOrders) (m₁ m₂ : Druid)
    (hname : m₁.name = m₂.name) (hns : m₁.ns = m₂.ns) (g₁ g₂ : ServiceGroup)
    (hkey : g₁.key = g₂.key) (common₁ common₂ : Obj .configMap) :
    (∀ k₁ k₂ old new, WorkloadOf hash o₁ m₁ common₁ g₁ k₁ old →
      WorkloadOf hash o₂ m₂ common₂ g₂ k₂ new →
      (common₁ ≠ common₂ ∨ groupConfig m₁ g₁ ≠ groupConfig m₂ g₂ ↔
        configMapSHA k₁ old ≠ configMapSHA k₂ new)) ∧
    (∀ k, ∀ old stored made : Obj k, ∀ owner isEqualFn, WorkloadOf hash o₁ m₁ common₁ g₁ k old →
      WorkloadOf hash o₂ m₂ common₂ g₂ k (prepare hash owner made) →
      configMapSHA k old ≠ configMapSHA k (prepare hash owner made) →
      ∀ (env : Env) (w : World), env.Alone → env.fault w.calls = none →
        Holds w.cluster k old stored →
        ∃ e ∈ (exec (serve env) (sdkCreateOrUpdateAsNeeded hash (.ret made) isEqualFn noopUpdaterFn
            owner) w).steps, ∃ obj, e.req = .update k obj ∧
          podTemplate k obj = podTemplate k (prepare hash owner made) ∧
          podTemplate k obj ≠ podTemplate k stored) ∧
    ∀ {σ : Type} (h : Handler sig σ) (s : σ),
      ∀ e ∈ (exec h (deployDruidCluster hash o₂ m₂) s).steps,
      ∀ k, k = .statefulSet ∨ k = .deployment → ∀ obj : Obj k,
        e.req = .create k obj ∨ e.req = .update k obj → ∃ common g planned version,
          (exec h (makeCommonConfigMap m₂ (makeLabelsForDruid m₂)) s).res = .ok common ∧
            WorkloadOf hash o₂ m₂ common g k planned ∧
            obj = planned.withResourceVersion version := by
  refine ⟨fun k₁ k₂ old new hold hnew => ?_, ?_, fun h s e he k hk obj hreq =>
    workloadOf_of_sent h hash o₂ m₂ he hk hreq⟩
  · rw [hold.configMapSHA_eq, hnew.configMapSHA_eq, ne_eq, ne_eq, ne_eq, Option.some_inj,
      enc.pair_inj, not_and_or]
  · intro k old stored made owner isEqualFn hold hnew hdiffer env w henv hfault hstored
    obtain ⟨hfind, hannotations, htemplate⟩ := hstored
    -- the look-up finds the old workload
    have hsame : (prepare hash owner made).key = old.key := by
      rw [hnew.key_eq, hold.key_eq, groupName, groupName, makeNodeSpecificUniqueString,
        makeNodeSpecificUniqueString, hname, hns, hkey]
    have hget :
        (serve env (.get k (prepare hash owner made).ns (prepare hash owner made).name) w).1 =
        .ok stored := by
      have hns' : (prepare hash owner made).ns = old.ns := congrArg Prod.fst hsame
      have hname' : (prepare hash owner made).name = old.name := congrArg Prod.snd hsame
      rw [hns', hname', serve_alone henv hfault, perform, hfind]
    -- its hash is another one, since it shows another environment
    have hhash : hashOf (prepare hash owner made) ≠ hashOf stored := by
      intro hhash
      obtain ⟨newMade, hnewHash, hnewSHA⟩ := hnew.hashOf_eq
      obtain ⟨oldMade, holdHash, holdSHA⟩ := hold.hashOf_eq
      have hstoredHash : hashOf stored = hashOf old := by rw [hashOf, hannotations, hashOf]
      rw [hstoredHash, hnewHash, holdHash] at hhash
      have hsha := enc.configMapSHA_eq hhash
      rw [hnewSHA, holdSHA] at hsha
      exact hdiffer hsha.symm
    rw [sdkCreateOrUpdateAsNeeded_ret, exec_bind_pure_steps]
    obtain ⟨e, he, hreq⟩ := updated_of_hashOf_ne isEqualFn noopUpdaterFn hget hhash
    refine ⟨e, he, _, hreq, podTemplate_sent _ _, ?_⟩
    rw [podTemplate_sent, htemplate]
    exact fun h => hdiffer (configMapSHA_congr h.symm)

/-! ### A hash as it is assumed -/

instance countableChar : Countable Char :=
  Function.Injective.countable (f := Char.toNat) fun _ _ h => Char.toNat_inj.1 h

instance countableString : Countable String :=
  Function.Injective.countable (f := String.toList) fun _ _ h => String.toList_inj.1 h

instance : Countable StrMap :=
  Function.Injective.countable (f := Finmap.entries) fun _ _ h => Finmap.ext h

instance : Countable OwnerReference :=
  Function.Injective.countable
    (f := fun r : OwnerReference => (r.apiVersion, r.kind, r.name, r.uid, r.controller)) <| by
      intro a b h
      cases a
      cases b
      simpa using h

instance : Countable ObjectMeta :=
  Function.Injective.countable
    (f := fun r : ObjectMeta => (r.name, r.ns, r.labels, r.annotations, r.ownerReferences,
      r.finalizers, r.uid, r.resourceVersion, r.generation, r.deletionTimestamp)) <| by
      intro a b h
      cases a
      cases b
      simpa using h

instance : Countable (Obj .configMap) :=
  Function.Injective.countable
    (f := fun r : Object StrMap => (r.apiVersion, r.kind, r.metadata, r.body)) <| by
      intro a b h
      cases a
      cases b
      simpa using h

/-- A number in unary. -/
def unary (n : ℕ) : String := String.ofList (List.replicate n '1')

theorem unary_injective : Function.Injective unary := by
  intro a b h
  have hlength := congrArg (fun s => s.toList.length) h
  simpa [unary] using hlength

/-- Every ConfigMap has a number of its own. -/
noncomputable def configNumber : Obj .configMap → ℕ :=
  (Countable.exists_injective_nat (Obj .configMap)).choose

theorem configNumber_injective : Function.Injective configNumber :=
  (Countable.exists_injective_nat (Obj .configMap)).choose_spec

/-- Every text has a number of its own. -/
noncomputable def textNumber : String → ℕ := (Countable.exists_injective_nat String).choose

theorem textNumber_injective : Function.Injective textNumber :=
  (Countable.exists_injective_nat String).choose_spec

def optionText (value : Option String) : String := value.elim "" ("1" ++ ·)

theorem optionText_injective : Function.Injective optionText := by
  intro a b h
  cases a <;> cases b <;> simp_all [optionText]

/-- A text that no two ConfigMaps share; of a workload it gives the variable. -/
noncomputable def countingText : (k : Kind) → Obj k → String
  | .configMap, obj => unary (configNumber obj)
  | k, obj => optionText (configMapSHA k obj)

noncomputable def countingHash : Hash := fun k obj => unary (textNumber (countingText k obj))

/-- Such a hash exists. -/
noncomputable def countingEncoding : Encoding countingHash where
  json := countingText
  sha := fun text => unary (textNumber text)
  hash_eq _ _ := rfl
  sha_injective := unary_injective.comp textNumber_injective
  config_injective := unary_injective.comp configNumber_injective
  base64 text := by simp [unary]
  shows k a b h := by
    cases k with
    | configMap => rfl
    | _ => exact optionText_injective h

/-! ### A broker with other JVM options -/

/-- The only group of the cluster. -/
def tunedGroup (kind jvmOptions : String) : ServiceGroup :=
  ⟨"b", {
    nodeType := .broker
    kind := kind
    druidPort := 8082
    replicas := 1
    jvmOptions := jvmOptions }⟩

def tunedCluster (kind jvmOptions : String) : Druid where
  metadata := { name := "c", ns := "d" }
  body := {
    spec := {
      image := "v1"
      nodes := ⟨[tunedGroup kind jvmOptions], by simp⟩ } }

/-- The common ConfigMap is the same in all versions. -/
def tunedCommon : Obj .configMap := makeConfigMap "c-druid-common-config" "d" ∅ ∅

/-- The StatefulSet of the group. -/
noncomputable def tunedStatefulSet (jvmOptions : String) : Obj .statefulSet :=
  plannedStatefulSet countingHash (countingHash .configMap tunedCommon)
    (tunedCluster "" jvmOptions) (tunedGroup "" jvmOptions)

theorem tuned_workloadOf (jvmOptions : String) :
    WorkloadOf countingHash {} (tunedCluster "" jvmOptions) tunedCommon (tunedGroup "" jvmOptions)
      .statefulSet (tunedStatefulSet jvmOptions) :=
  ⟨[], [], rfl, .statefulSet (by simp [tunedGroup])⟩

/-- The StatefulSet with the JVM options `-Xmx1g` is stored. -/
noncomputable def tunedWorld : World where
  cluster := {
    store := Function.update (fun _ => .empty) .statefulSet
      (Table.insert .empty (tunedStatefulSet "-Xmx1g")) }

theorem tuned_holds : Holds tunedWorld.cluster .statefulSet (tunedStatefulSet "-Xmx1g")
    (tunedStatefulSet "-Xmx1g") := by
  have hstore : tunedWorld.cluster.store .statefulSet =
      Table.insert .empty (tunedStatefulSet "-Xmx1g") := by
    simp [tunedWorld]
  refine ⟨?_, rfl, rfl⟩
  rw [Cluster.find?, hstore, Table.find?_insert rfl]
  exact if_pos rfl

theorem tuned_config_ne (kind kind' : String) :
    groupConfig (tunedCluster kind "-Xmx1g") (tunedGroup kind "-Xmx1g") ≠
      groupConfig (tunedCluster kind' "-Xmx2g") (tunedGroup kind' "-Xmx2g") := by
  intro h
  have hjvm := congrArg (fun obj : Obj .configMap => (obj.body : StrMap).lookup "jvm.config") h
  simp [groupConfig, makeConfigMapForNodeSpec, makeConfigMap, tunedGroup, tunedCluster,
    firstNonEmptyStr] at hjvm

/-- New JVM options update the StatefulSet. -/
theorem config_rollout_tuned :
    ∃ e ∈ (exec (serve {}) (sdkCreateOrUpdateAsNeeded countingHash
        (.ret (makeStatefulSet (withDruidPort (tunedGroup "" "-Xmx2g").spec)
          (afterServices countingHash (tunedCluster "" "-Xmx2g") (tunedGroup "" "-Xmx2g"))
          (groupLabels (tunedCluster "" "-Xmx2g") (tunedGroup "" "-Xmx2g")) "druid-c-b"
          (groupConfigSHA countingHash (countingHash .configMap tunedCommon)
            (tunedCluster "" "-Xmx2g") (tunedGroup "" "-Xmx2g")) ""))
        statefulSetIsEquals noopUpdaterFn (tunedCluster "" "-Xmx2g")) tunedWorld).steps,
      ∃ obj, e.req = .update .statefulSet obj ∧
        podTemplate .statefulSet obj ≠ podTemplate .statefulSet (tunedStatefulSet "-Xmx1g") := by
  obtain ⟨hsha, hupdate, -⟩ := config_rollout_iff countingEncoding {} {} (tunedCluster "" "-Xmx1g")
    (tunedCluster "" "-Xmx2g") rfl rfl (tunedGroup "" "-Xmx1g") (tunedGroup "" "-Xmx2g") rfl
    tunedCommon tunedCommon
  have hdiffer := (hsha _ _ _ _ (tuned_workloadOf "-Xmx1g") (tuned_workloadOf "-Xmx2g")).1
    (.inr (tuned_config_ne "" ""))
  obtain ⟨e, he, obj, hreq, -, hne⟩ := hupdate .statefulSet _ _ _ (tunedCluster "" "-Xmx2g")
    statefulSetIsEquals (tuned_workloadOf "-Xmx1g") (tuned_workloadOf "-Xmx2g") hdiffer
    {} tunedWorld (fun _ _ => rfl) rfl tuned_holds
  exact ⟨e, he, obj, hreq, hne⟩

/-- The Deployment of the group, if its kind is changed as well. -/
noncomputable def tunedDeployment : Obj .deployment where
  apiVersion := "apps/v1"
  kind := "Deployment"
  metadata :=
    { name := "druid-c-b"
      annotations := some ∅
      ns := "d"
      labels := some (groupLabels (tunedCluster "Deployment" "-Xmx2g")
        (tunedGroup "Deployment" "-Xmx2g")) }
  body := {
    spec := makeDeploymentSpec (withDruidPort (tunedGroup "Deployment" "-Xmx2g").spec)
      (tunedCluster "Deployment" "-Xmx2g") (groupLabels (tunedCluster "Deployment" "-Xmx2g")
        (tunedGroup "Deployment" "-Xmx2g")) "druid-c-b"
      (groupConfigSHA countingHash (countingHash .configMap tunedCommon)
        (tunedCluster "Deployment" "-Xmx2g") (tunedGroup "Deployment" "-Xmx2g")) {} }

theorem tunedDeployment_workloadOf :
    WorkloadOf countingHash {} (tunedCluster "Deployment" "-Xmx2g") tunedCommon
      (tunedGroup "Deployment" "-Xmx2g") .deployment
      (prepare countingHash (tunedCluster "Deployment" "-Xmx2g") tunedDeployment) :=
  ⟨[], [], rfl, .deployment rfl _ rfl⟩

/-- With another kind, new JVM options do not update what is stored, but create a workload. -/
theorem switched_kind_creates :
    configMapSHA .statefulSet (tunedStatefulSet "-Xmx1g") ≠ configMapSHA .deployment
      (prepare countingHash (tunedCluster "Deployment" "-Xmx2g") tunedDeployment) ∧
    WorkloadOf countingHash {} (tunedCluster "Deployment" "-Xmx2g") tunedCommon
      (tunedGroup "Deployment" "-Xmx2g") .deployment
      (prepare countingHash (tunedCluster "Deployment" "-Xmx2g") tunedDeployment) ∧
    Holds tunedWorld.cluster .statefulSet (tunedStatefulSet "-Xmx1g") (tunedStatefulSet "-Xmx1g") ∧
    ∀ e ∈ (exec (serve {}) (sdkCreateOrUpdateAsNeeded countingHash (.ret tunedDeployment)
        deploymentIsEquals noopUpdaterFn (tunedCluster "Deployment" "-Xmx2g")) tunedWorld).steps,
      ∀ k obj, e.req ≠ .update k obj := by
  refine ⟨?_, tunedDeployment_workloadOf, tuned_holds, ?_⟩
  · rw [(tuned_workloadOf "-Xmx1g").configMapSHA_eq, tunedDeployment_workloadOf.configMapSHA_eq,
      ne_eq, Option.some_inj, countingEncoding.pair_inj, not_and]
    exact fun _ => tuned_config_ne "" "Deployment"
  · have hstore : tunedWorld.cluster.store .deployment = Table.empty := by simp [tunedWorld]
    have hnone : tunedWorld.cluster.find? .deployment "d" "druid-c-b" = none := by
      rw [Cluster.find?, hstore]
      rfl
    have hget : (serve {} (.get .deployment "d" "druid-c-b") tunedWorld).1 =
        .error (notFoundError "druid-c-b") := by
      rw [serve_alone (fun _ _ => rfl) rfl, perform, hnone]
    rw [sdkCreateOrUpdateAsNeeded_ret, exec_bind_pure_steps]
    intro e he
    exact not_updated_of_error _ _ hget he

end DruidOperator.Controller
