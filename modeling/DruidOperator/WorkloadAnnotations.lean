import DruidOperator.WorkloadWrites

/-!
# Annotations of a workload and the groups before it

`makeAnnotationsForWorkload` returns the map of the cluster spec where there is one, and the
annotations of the group and the hash of the workload are written into it. The probes of the
cluster spec are shared in the same way. So what is sent for a group may carry what earlier groups
left behind.

* `Isolated` — the workload of the group is annotated as if there were no other group.
* `Undisturbed` — what the earlier groups leave behind makes no difference to the group.
-/

namespace DruidOperator.Controller

open Interaction Prog Kube

variable {m m' : Druid} {g : ServiceGroup} {done : List ServiceGroup}

/-! ## What is hashed -/

section Hashed

variable (hash : Hash) (commonConfigSHA : String) (m : Druid) (g : ServiceGroup)

/-- The StatefulSet of the group before its hash is added. -/
def hashedStatefulSet : Obj .statefulSet :=
  addOwnerRefToObject (makeStatefulSet (withDruidPort g.spec) (afterServices hash m g)
    (groupLabels m g) (groupName m g) (groupConfigSHA hash commonConfigSHA m g)
    (firstServiceName ((plannedServices hash m g).map Object.name)))
      (asOwner (afterServices hash m g))

/-- The Deployment of the group before its hash is added. -/
def hashedDeployment : Except Exit (Obj .deployment) :=
  (makeDeployment (withDruidPort g.spec) (afterServices hash m g) (groupLabels m g) (groupName m g)
    (groupConfigSHA hash commonConfigSHA m g)).map
    fun obj => addOwnerRefToObject obj (asOwner (afterServices hash m g))

/-- The hash of the workload of the group. -/
def workloadHash : String :=
  if g.spec.kind = "Deployment" then
    match hashedDeployment hash commonConfigSHA m g with
    | .ok obj => hash .deployment obj
    | .error _ => ""
  else hash .statefulSet (hashedStatefulSet hash commonConfigSHA m g)

/-- The annotations of the cluster spec overridden by those of the group. -/
def ownedAnnotations : StrMap :=
  (m.spec.workloadAnnotations.getD ∅).overlay (g.spec.workloadAnnotations.getD ∅)

variable {g}

/-- The workload of the group is annotated with what it owns and with its hash. -/
theorem plannedAnnotations_eq (hmakes : MakesWorkload g) :
    plannedAnnotations hash commonConfigSHA m g =
      some ((ownedAnnotations (afterServices hash m g) g).insert druidOpResourceHash
        (workloadHash hash commonConfigSHA m g)) := by
  unfold plannedAnnotations workloadHash
  by_cases hkind : g.spec.kind = "Deployment"
  · obtain ⟨ru, hru⟩ := (makesWorkload_iff hkind).1 hmakes
    simp only [if_pos hkind, plannedDeployment, hashedDeployment, makeDeployment, hru]
    rfl
  · rw [if_neg hkind, if_neg hkind]
    rfl

theorem afterServices_workloadAnnotations :
    (afterServices hash m g).spec.workloadAnnotations = m.spec.workloadAnnotations := by
  unfold afterServices druidAfterServices
  split_ifs <;> rfl

theorem ownedAnnotations_afterServices :
    ownedAnnotations (afterServices hash m g) g = ownedAnnotations m g := by
  rw [ownedAnnotations, afterServices_workloadAnnotations]
  rfl

end Hashed

/-- The workload sent for the group, in a call that has dealt with `done`, is annotated with what
the cluster spec and the group ask for and with the hash it has without any other group. -/
def Isolated (hash : Hash) (commonConfigSHA : String) (m : Druid) (done : List ServiceGroup)
    (g : ServiceGroup) : Prop :=
  plannedAnnotations hash commonConfigSHA (seenAfter hash commonConfigSHA m done) g =
    some ((ownedAnnotations m g).insert druidOpResourceHash (workloadHash hash commonConfigSHA m g))

/-! ## What the groups share -/

/-- The resource with other values for what its groups write into. -/
def withShared (m : Druid) (services : Option (List (Object Service))) (annotations : Option StrMap)
    (liveness readiness startUp : Option Probe) : Druid :=
  { m with body := { m.body with spec := { m.spec with
    services := services
    workloadAnnotations := annotations
    livenessProbe := liveness
    readinessProbe := readiness
    startUpProbe := startUp } } }

/-- The names of the service templates. -/
def serviceNames (services : Option (List (Object Service))) : Option (List String) :=
  services.map (List.map Object.name)

/-- `m'` differs from `m` in what the groups write into, but not in the names of services. -/
def Shares (m m' : Druid) : Prop :=
  ∃ services annotations liveness readiness startUp,
    m' = withShared m services annotations liveness readiness startUp ∧
      serviceNames services = serviceNames m.spec.services

theorem Shares.refl (m : Druid) : Shares m m := ⟨_, _, _, _, _, rfl, rfl⟩

theorem Shares.afterServices (hm : Shares m m') (hash : Hash) (g : ServiceGroup) :
    Shares m (afterServices hash m' g) := by
  obtain ⟨services, annotations, liveness, readiness, startUp, rfl, hnames⟩ := hm
  unfold Controller.afterServices druidAfterServices
  split_ifs with hown
  · exact ⟨_, _, _, _, _, rfl, hnames⟩
  · refine ⟨_, _, _, _, _, rfl, ?_⟩
    have hnone : g.spec.services = none := by simpa using hown
    rw [← hnames]
    show serviceNames (services.map fun _ => _) = _
    cases services with
    | none => rfl
    | some svcs =>
        simp only [serviceTemplates, hnone, firstNonNilValue, Option.none_or, serviceNames,
          Option.map_some, withShared]
        simp [Object.name, serviceTemplateAfter]

theorem Shares.afterGroup (hm : Shares m m') (hash : Hash) (commonConfigSHA : String)
    (g : ServiceGroup) : Shares m (afterGroup hash commonConfigSHA m' g) := by
  obtain ⟨services, annotations, liveness, readiness, startUp, heq, hnames⟩ :=
    hm.afterServices hash g
  unfold Controller.afterGroup druidAfterWorkload
  rw [heq]
  exact ⟨_, _, _, _, _, rfl, hnames⟩

theorem shares_seenAfter (hash : Hash) (commonConfigSHA : String) (m : Druid)
    (done : List ServiceGroup) : Shares m (seenAfter hash commonConfigSHA m done) := by
  induction done using List.reverseRecOn with
  | nil => exact .refl m
  | append_singleton done g ih =>
      rw [seenAfter_append_singleton]
      exact ih.afterGroup hash commonConfigSHA g

/-! ## What a group takes from the shared values -/

/-- The group takes the same annotations and probes from both. -/
structure SameView (m m' : Druid) (g : ServiceGroup) : Prop where
  annotations : ownedAnnotations m' g = ownedAnnotations m g
  livenessProbe : setLivenessProbe (withDruidPort g.spec) m' = setLivenessProbe
    (withDruidPort g.spec) m
  readinessProbe :
    setReadinessProbe (withDruidPort g.spec) m' = setReadinessProbe (withDruidPort g.spec) m
  startUpProbe : setStartUpProbe (withDruidPort g.spec) m' = setStartUpProbe
    (withDruidPort g.spec) m

theorem plannedServices_names (hm : Shares m m') (hash : Hash) (g : ServiceGroup) :
    (plannedServices hash m' g).map Object.name = (plannedServices hash m g).map Object.name := by
  obtain ⟨services, annotations, liveness, readiness, startUp, rfl, hnames⟩ := hm
  have hname : ∀ m : Druid, (plannedServices hash m g).map Object.name =
      (((firstNonNilValue (serviceNames g.spec.services) (serviceNames m.spec.services)).getD
        []).map fun name => getServiceName name (groupName m g)) := by
    intro m
    unfold plannedServices serviceTemplates firstNonNilValue serviceNames
    cases g.spec.services <;> cases m.spec.services <;> simp [plannedService, prepare, makeService,
      addHashToObject, addOwnerRefToObject, Object.name]
  rw [hname, hname m]
  show ((firstNonNilValue _ (serviceNames services)).getD []).map _ = _
  rw [hnames]
  rfl

/-- Making a pod template looks at the probes only. -/
theorem makePodTemplate_congr (hm : Shares m m') (hview : SameView m m' g) (ls : StrMap)
    (uniqueStr configMapSHA : String) :
    makePodTemplate (withDruidPort g.spec) m' ls uniqueStr configMapSHA =
      makePodTemplate (withDruidPort g.spec) m ls uniqueStr configMapSHA := by
  obtain ⟨services, annotations, liveness, readiness, startUp, rfl, hnames⟩ := hm
  unfold makePodTemplate makePodSpec
  rw [hview.livenessProbe, hview.readinessProbe, hview.startUpProbe]
  rfl

theorem afterServices_view (hash : Hash) (m : Druid) (g : ServiceGroup) :
    SameView m (afterServices hash m g) g := by
  refine ⟨ownedAnnotations_afterServices hash m, ?_, ?_, ?_⟩ <;>
    unfold afterServices druidAfterServices <;> split_ifs <;> rfl

theorem SameView.symm (hview : SameView m m' g) : SameView m' m g :=
  ⟨hview.annotations.symm, hview.livenessProbe.symm, hview.readinessProbe.symm,
    hview.startUpProbe.symm⟩

theorem SameView.trans {m'' : Druid} (hview : SameView m m' g) (hview' : SameView m' m'' g) :
    SameView m m'' g :=
  ⟨hview'.annotations.trans hview.annotations, hview'.livenessProbe.trans hview.livenessProbe,
    hview'.readinessProbe.trans hview.readinessProbe, hview'.startUpProbe.trans hview.startUpProbe⟩

theorem sameView_afterServices (hash : Hash) :
    SameView (afterServices hash m g) (afterServices hash m' g) g ↔ SameView m m' g := by
  constructor
  · intro hview
    exact ((afterServices_view hash m g).trans hview).trans (afterServices_view hash m' g).symm
  · intro hview
    exact ((afterServices_view hash m g).symm.trans hview).trans (afterServices_view hash m' g)

theorem Shares.between {m'' : Druid} (hm : Shares m m') (hm' : Shares m m'') : Shares m' m'' := by
  obtain ⟨_, _, _, _, _, rfl, hnames⟩ := hm
  obtain ⟨_, _, _, _, _, rfl, hnames'⟩ := hm'
  exact ⟨_, _, _, _, _, rfl, hnames'.trans hnames.symm⟩

/-- The rest of what a workload is made from does not depend on the shared values. -/
theorem Shares.group_eq (hm : Shares m m') (hash : Hash) (commonConfigSHA : String)
    (g : ServiceGroup) :
    groupLabels m' g = groupLabels m g ∧ groupName m' g = groupName m g ∧
      groupConfigSHA hash commonConfigSHA m' g = groupConfigSHA hash commonConfigSHA m g ∧
      asOwner m' = asOwner m ∧ m'.ns = m.ns := by
  obtain ⟨_, _, _, _, _, rfl, -⟩ := hm
  exact ⟨rfl, rfl, rfl, rfl, rfl⟩

theorem makeStatefulSet_congr (hm : Shares m m') (hview : SameView m m' g) (ls : StrMap)
    (uniqueStr configMapSHA serviceName : String) :
    makeStatefulSet (withDruidPort g.spec) m' ls uniqueStr configMapSHA serviceName =
      makeStatefulSet (withDruidPort g.spec) m ls uniqueStr configMapSHA serviceName := by
  have htemplate := makePodTemplate_congr hm hview ls uniqueStr configMapSHA
  have hannotations : makeAnnotationsForWorkload (withDruidPort g.spec) m' =
    makeAnnotationsForWorkload (withDruidPort g.spec) m := hview.annotations
  unfold makeStatefulSet makeStatefulSetSpec
  rw [htemplate, hannotations]
  obtain ⟨_, _, _, _, _, rfl, -⟩ := hm
  rfl

theorem makeDeployment_congr (hm : Shares m m') (hview : SameView m m' g) (ls : StrMap)
    (uniqueStr configMapSHA : String) :
    makeDeployment (withDruidPort g.spec) m' ls uniqueStr configMapSHA =
      makeDeployment (withDruidPort g.spec) m ls uniqueStr configMapSHA := by
  have htemplate := makePodTemplate_congr hm hview ls uniqueStr configMapSHA
  have hannotations : makeAnnotationsForWorkload (withDruidPort g.spec) m' =
    makeAnnotationsForWorkload (withDruidPort g.spec) m := hview.annotations
  unfold makeDeployment makeDeploymentSpec
  rw [htemplate, hannotations]
  obtain ⟨_, _, _, _, _, rfl, -⟩ := hm
  rfl

/-- A group that takes the same values has the same workload. -/
theorem hashedWorkload_congr (hm : Shares m m') (hview : SameView m m' g) (hash : Hash)
    (commonConfigSHA : String) :
    hashedStatefulSet hash commonConfigSHA m' g = hashedStatefulSet hash commonConfigSHA m g ∧
      hashedDeployment hash commonConfigSHA m' g = hashedDeployment hash commonConfigSHA m g := by
  obtain ⟨hlabels, hname, hsha, -, -⟩ := hm.group_eq hash commonConfigSHA g
  have hshares := ((Shares.refl m).afterServices hash g).between (hm.afterServices hash g)
  have hview' := (sameView_afterServices hash).2 hview
  have howner := (hshares.group_eq hash commonConfigSHA g).2.2.2.1
  unfold hashedStatefulSet hashedDeployment
  rw [hlabels, hname, hsha, howner, plannedServices_names hm, makeStatefulSet_congr hshares hview',
    makeDeployment_congr hshares hview']
  exact ⟨rfl, rfl⟩

theorem workloadHash_congr (hm : Shares m m') (hview : SameView m m' g) (hash : Hash)
    (commonConfigSHA : String) :
    workloadHash hash commonConfigSHA m' g = workloadHash hash commonConfigSHA m g := by
  obtain ⟨hset, hdeployment⟩ := hashedWorkload_congr hm hview hash commonConfigSHA
  rw [workloadHash, workloadHash, hset, hdeployment]

theorem addAdditionalContainers_head (m : Druid) (nodeSpec : DruidNodeSpec) {podSpec : PodSpec}
    {c : Container} (hc : podSpec.containers.head? = some c) :
    (addAdditionalContainers m nodeSpec podSpec).containers.head? = some c := by
  unfold addAdditionalContainers
  induction getAllAdditionalContainers m nodeSpec generalizing podSpec with
  | nil => exact hc
  | cons additional rest ih =>
      rw [List.foldl_cons]
      apply ih
      split_ifs
      · exact hc
      · simp [List.head?_append, hc]

theorem makePodSpec_probes (nodeSpec : DruidNodeSpec) (m : Druid)
    (uniqueStr configMapSHA : String) :
    ((makePodSpec nodeSpec m uniqueStr configMapSHA).containers.head?.map fun c =>
      (c.livenessProbe, c.readinessProbe, c.startupProbe)) =
      some (setLivenessProbe nodeSpec m, setReadinessProbe nodeSpec m,
        setStartUpProbe nodeSpec m) := by
  unfold makePodSpec
  rw [addAdditionalContainers_head m nodeSpec rfl]
  rfl

/-- A workload shows what the group took. -/
theorem sameView_of_template {ls ls' : StrMap}
    {uniqueStr uniqueStr' configMapSHA configMapSHA' : String}
    (htemplate : makePodTemplate (withDruidPort g.spec) m' ls' uniqueStr' configMapSHA' =
      makePodTemplate (withDruidPort g.spec) m ls uniqueStr configMapSHA)
    (hannotations : ownedAnnotations m' g = ownedAnnotations m g) : SameView m m' g := by
  have hpods := congrArg (fun t => t.spec.containers.head?.map fun c =>
    (c.livenessProbe, c.readinessProbe, c.startupProbe)) htemplate
  simp only [makePodTemplate, makePodSpec_probes, Option.some.injEq, Prod.mk.injEq] at hpods
  exact ⟨hannotations, hpods.1, hpods.2.1, hpods.2.2⟩

/-! ## Probes left behind -/

/-- The port of the probe is not set. -/
def unsetPort (probe : Option Probe) : Bool :=
  match probe.bind Probe.httpGet with
  | some get => decide (get.port.intVal = 0 ∧ get.port.strVal = "")
  | none => false

/-- The probe of the cluster spec once the groups in `done` were given it. -/
def probeLeft (own : ServiceGroup → Option Probe) (probe : Option Probe)
    (done : List ServiceGroup) : Option Probe :=
  done.foldl (fun probe g => clusterProbeAfter (own g) probe g.spec.druidPort) probe

/-- The first group that has a port to write into a probe of the cluster spec. -/
def firstWriter (own : ServiceGroup → Option Probe) (done : List ServiceGroup) :
    Option ServiceGroup :=
  done.find? fun g => (own g).isNone && decide (g.spec.druidPort ≠ 0)

theorem updateDefaultPortInProbe_set {probe : Option Probe} (hset : unsetPort probe = false)
    (port : Int) : updateDefaultPortInProbe probe port = probe := by
  rcases probe with _ | ⟨_ | get, _⟩
  · rfl
  · rfl
  · have hport : ¬ (get.port.intVal = 0 ∧ get.port.strVal = "") := by simpa [unsetPort] using hset
    simp [updateDefaultPortInProbe, hport]

theorem updateDefaultPortInProbe_zero (probe : Option Probe) :
    updateDefaultPortInProbe probe 0 = probe := by
  rcases probe with _ | ⟨_ | ⟨path, ⟨type, intVal, strVal⟩, rest⟩, _⟩
  · rfl
  · rfl
  · by_cases hunset : intVal = 0 ∧ strVal = ""
    · obtain ⟨rfl, rfl⟩ := hunset
      rfl
    · simp [updateDefaultPortInProbe, hunset]

theorem unsetPort_updateDefaultPortInProbe {probe : Option Probe} {port : Int} (hport : port ≠ 0) :
    unsetPort (updateDefaultPortInProbe probe port) = false := by
  rcases probe with _ | ⟨_ | get, _⟩
  · rfl
  · rfl
  · by_cases hunset : get.port.intVal = 0 ∧ get.port.strVal = ""
    · simp [updateDefaultPortInProbe, unsetPort, hunset, hport]
    · simp [updateDefaultPortInProbe, unsetPort, hunset]

/-- The first group with a port decides, and no later one changes its port again. -/
theorem probeLeft_eq (own : ServiceGroup → Option Probe) (probe : Option Probe)
    (done : List ServiceGroup) :
    probeLeft own probe done =
      match firstWriter own done with
      | some g => updateDefaultPortInProbe probe g.spec.druidPort
      | none => probe := by
  have hkept : ∀ (done : List ServiceGroup) {probe : Option Probe}, unsetPort probe = false →
      probeLeft own probe done = probe := by
    intro done probe hset
    induction done with
    | nil => rfl
    | cons g done ih =>
        have hstep : clusterProbeAfter (own g) probe g.spec.druidPort = probe := by
          unfold clusterProbeAfter
          split_ifs
          · rfl
          · exact updateDefaultPortInProbe_set hset _
        rw [probeLeft, List.foldl_cons, hstep]
        exact ih
  induction done with
  | nil => rfl
  | cons g done ih =>
      rw [probeLeft, List.foldl_cons, ← probeLeft, firstWriter, List.find?_cons, ← firstWriter]
      unfold clusterProbeAfter
      cases hown : own g with
      | some q => simpa using ih
      | none =>
          by_cases hport : g.spec.druidPort = 0
          · simpa [hport, updateDefaultPortInProbe_zero] using ih
          · simpa [hport] using hkept done (unsetPort_updateDefaultPortInProbe hport)

/-- Earlier groups make no difference to the probe: the group has its own, the port was set, or the
port written into it is that of the group. -/
def PortKept (own : ServiceGroup → Option Probe) (probe : Option Probe) (done : List ServiceGroup)
    (g : ServiceGroup) : Prop :=
  unsetPort probe = true → (own g).isSome ∨
    ∀ g' ∈ firstWriter own done, g'.spec.druidPort = g.spec.druidPort

theorem setProbe_probeLeft_iff (probeType : ProbeType) (own : ServiceGroup → Option Probe)
    (probe : Option Probe) (done : List ServiceGroup) (g : ServiceGroup)
    (hdefault : m'.spec.defaultProbes = m.spec.defaultProbes) :
    setProbe probeType (own g) (probeLeft own probe done) (withDruidPort g.spec) m' =
        setProbe probeType (own g) probe (withDruidPort g.spec) m ↔
      PortKept own probe done g := by
  unfold setProbe PortKept
  rw [hdefault]
  cases hown : own g with
  | some q => simp [firstNonNilValue]
  | none =>
      rw [probeLeft_eq]
      cases hfirst : firstWriter own done with
      | none => simp
      | some g' =>
          have hport : g'.spec.druidPort ≠ 0 := by
            have := List.find?_some hfirst
            simp only [Bool.and_eq_true, decide_eq_true_eq] at this
            exact this.2
          by_cases hset : unsetPort probe = true
          · rcases probe with _ | ⟨_ | get, _⟩
            · cases hset
            · cases hset
            · have hunset : get.port.intVal = 0 ∧ get.port.strVal = "" := by
                simpa [unsetPort] using hset
              simp [firstNonNilValue, updateDefaultPortInProbe, hunset, hport, hset, withDruidPort]
          · have hsame := updateDefaultPortInProbe_set (by simpa using hset) g'.spec.druidPort
            simp [hsame, hset]

/-! ## Annotations left behind -/

/-- The annotations of the groups, written over one another. -/
def annotationsLeft (annotations : StrMap) (done : List ServiceGroup) : StrMap :=
  done.foldl (fun a g => a.overlay (g.spec.workloadAnnotations.getD ∅)) annotations

/-- What the groups in `done` leave behind makes no difference to the group. -/
structure Undisturbed (m : Druid) (done : List ServiceGroup) (g : ServiceGroup) : Prop where
  /-- Where the cluster spec has annotations, the group overrides the hash and all annotations of
  the earlier groups that differ. -/
  annotations : ∀ a, m.spec.workloadAnnotations = some a → done ≠ [] →
    druidOpResourceHash ∈ g.spec.workloadAnnotations.getD ∅ ∧
      (annotationsLeft a done).overlay (g.spec.workloadAnnotations.getD ∅) =
        a.overlay (g.spec.workloadAnnotations.getD ∅)
  livenessProbe : PortKept (·.spec.livenessProbe) m.spec.livenessProbe done g
  readinessProbe : PortKept (·.spec.readinessProbe) m.spec.readinessProbe done g
  startUpProbe : PortKept (·.spec.startUpProbe) m.spec.startUpProbe done g

section Left

variable (hash : Hash) (commonConfigSHA : String) (m : Druid) (done : List ServiceGroup)

theorem seenAfter_probes :
    (seenAfter hash commonConfigSHA m done).spec.livenessProbe =
        probeLeft (·.spec.livenessProbe) m.spec.livenessProbe done ∧
      (seenAfter hash commonConfigSHA m done).spec.readinessProbe =
        probeLeft (·.spec.readinessProbe) m.spec.readinessProbe done ∧
      (seenAfter hash commonConfigSHA m done).spec.startUpProbe =
        probeLeft (·.spec.startUpProbe) m.spec.startUpProbe done := by
  have hservices : ∀ (m : Druid) g,
      (afterServices hash m g).spec.livenessProbe = m.spec.livenessProbe ∧
      (afterServices hash m g).spec.readinessProbe = m.spec.readinessProbe ∧
      (afterServices hash m g).spec.startUpProbe = m.spec.startUpProbe := by
    intro m g
    unfold afterServices druidAfterServices
    split_ifs <;> exact ⟨rfl, rfl, rfl⟩
  induction done using List.reverseRecOn with
  | nil => exact ⟨rfl, rfl, rfl⟩
  | append_singleton done g ih =>
      obtain ⟨hl, hr, hs⟩ := hservices (seenAfter hash commonConfigSHA m done) g
      simp only [seenAfter_append_singleton, probeLeft, List.foldl_append, List.foldl_cons,
        List.foldl_nil]
      rw [← probeLeft, ← probeLeft, ← probeLeft, ← ih.1, ← ih.2.1, ← ih.2.2, ← hl, ← hr, ← hs]
      exact ⟨rfl, rfl, rfl⟩

theorem seenAfter_defaultProbes :
    (seenAfter hash commonConfigSHA m done).spec.defaultProbes = m.spec.defaultProbes := by
  obtain ⟨_, _, _, _, _, heq, -⟩ := shares_seenAfter hash commonConfigSHA m done
  rw [heq]
  rfl

variable {m}

theorem seenAfter_noAnnotations (hnone : m.spec.workloadAnnotations = none) :
    (seenAfter hash commonConfigSHA m done).spec.workloadAnnotations = none := by
  induction done using List.reverseRecOn with
  | nil => exact hnone
  | append_singleton done g ih =>
      rw [seenAfter_append_singleton]
      show sharedMap (afterServices ..).spec.workloadAnnotations _ = none
      rw [afterServices_workloadAnnotations, ih]
      rfl

variable {done}

/-- Apart from the hash of the last workload, the map of the cluster spec holds the annotations of
the groups. -/
theorem seenAfter_annotations {a : StrMap} (ha : m.spec.workloadAnnotations = some a)
    (hmakes : ∀ g ∈ done, MakesWorkload g) :
    ∃ a', (seenAfter hash commonConfigSHA m done).spec.workloadAnnotations = some a' ∧
      (∀ key, key ≠ druidOpResourceHash →
        a'.lookup key = (annotationsLeft a done).lookup key) ∧
      (done ≠ [] → ∃ m' g, MakesWorkload g ∧
        a'.lookup druidOpResourceHash = some (workloadHash hash commonConfigSHA m' g)) := by
  induction done using List.reverseRecOn with
  | nil => exact ⟨a, ha, fun _ _ => rfl, fun hne => absurd rfl hne⟩
  | append_singleton done g ih =>
      obtain ⟨a', ha', hkeys, -⟩ := ih fun g' hg' => hmakes g' (List.mem_append_left _ hg')
      have hg := hmakes g (by simp)
      refine ⟨(a'.overlay (g.spec.workloadAnnotations.getD ∅)).insert druidOpResourceHash
        (workloadHash hash commonConfigSHA (seenAfter hash commonConfigSHA m done) g), ?_, ?_, ?_⟩
      · rw [seenAfter_append_singleton]
        show sharedMap (afterServices ..).spec.workloadAnnotations (plannedAnnotations ..) = _
        rw [afterServices_workloadAnnotations, ha', plannedAnnotations_eq hash commonConfigSHA _ hg,
          ownedAnnotations_afterServices, ownedAnnotations, ha']
        rfl
      · intro key hkey
        rw [Finmap.lookup_insert_of_ne _ hkey, annotationsLeft, List.foldl_append]
        show _ = ((annotationsLeft a done).overlay _).lookup key
        rw [StrMap.lookup_overlay, StrMap.lookup_overlay, hkeys key hkey]
      · exact fun _ => ⟨_, g, hg, Finmap.lookup_insert _⟩

end Left

theorem sameView_seenAfter (hmakes : ∀ g' ∈ done, MakesWorkload g') (hkept : Undisturbed m done g)
    (hash : Hash) (commonConfigSHA : String) :
    SameView m (seenAfter hash commonConfigSHA m done) g := by
  obtain ⟨hl, hr, hs⟩ := seenAfter_probes hash commonConfigSHA m done
  have hd := seenAfter_defaultProbes hash commonConfigSHA m done
  refine ⟨?_, ?_, ?_, ?_⟩
  · unfold ownedAnnotations
    cases ha : m.spec.workloadAnnotations with
    | none => rw [seenAfter_noAnnotations hash commonConfigSHA done ha]
    | some a =>
        by_cases hdone : done = []
        · subst hdone
          rw [show (seenAfter hash commonConfigSHA m []).spec.workloadAnnotations = some a from ha]
        · obtain ⟨a', ha', hkeys, -⟩ := seenAfter_annotations hash commonConfigSHA ha hmakes
          obtain ⟨hhash, hleft⟩ := hkept.annotations a ha hdone
          rw [ha']
          refine Finmap.ext_lookup fun key => ?_
          have hkey := congrArg (Finmap.lookup key) hleft
          simp only [Option.getD_some, StrMap.lookup_overlay] at hkey ⊢
          split_ifs at hkey ⊢ with hown
          · rfl
          · rw [hkeys key (fun h => hown (h ▸ hhash))]
            exact hkey
  · rw [setLivenessProbe, setLivenessProbe, hl]
    exact (setProbe_probeLeft_iff _ (·.spec.livenessProbe) _ done g hd).2 hkept.livenessProbe
  · rw [setReadinessProbe, setReadinessProbe, hr]
    exact (setProbe_probeLeft_iff _ (·.spec.readinessProbe) _ done g hd).2 hkept.readinessProbe
  · rw [setStartUpProbe, setStartUpProbe, hs]
    exact (setProbe_probeLeft_iff _ (·.spec.startUpProbe) _ done g hd).2 hkept.startUpProbe

/-- The converse, for a hash that is not one of the annotations of the cluster spec. -/
theorem undisturbed_of_sameView (hmakes : ∀ g' ∈ done, MakesWorkload g') {hash : Hash}
    {commonConfigSHA : String}
    (hfresh : ∀ a m' g', m.spec.workloadAnnotations = some a → MakesWorkload g' →
      a.lookup druidOpResourceHash ≠ some (workloadHash hash commonConfigSHA m' g'))
    (hview : SameView m (seenAfter hash commonConfigSHA m done) g) : Undisturbed m done g := by
  obtain ⟨hl, hr, hs⟩ := seenAfter_probes hash commonConfigSHA m done
  have hd := seenAfter_defaultProbes hash commonConfigSHA m done
  refine ⟨fun a ha hdone => ?_, ?_, ?_, ?_⟩
  · obtain ⟨a', ha', hkeys, hlast⟩ := seenAfter_annotations hash commonConfigSHA ha hmakes
    have hown := hview.annotations
    rw [ownedAnnotations, ownedAnnotations, ha, ha'] at hown
    have hlookup := fun key => congrArg (Finmap.lookup key) hown
    simp only [Option.getD_some, StrMap.lookup_overlay] at hlookup
    have hhash : druidOpResourceHash ∈ g.spec.workloadAnnotations.getD ∅ := by
      by_contra hnot
      obtain ⟨m', g', hg', hvalue⟩ := hlast hdone
      have := hlookup druidOpResourceHash
      rw [if_neg hnot, if_neg hnot, hvalue] at this
      exact hfresh a m' g' ha hg' this.symm
    refine ⟨hhash, Finmap.ext_lookup fun key => ?_⟩
    have := hlookup key
    simp only [StrMap.lookup_overlay]
    split_ifs at this ⊢ with hkey
    · rfl
    · rw [← hkeys key (fun h => hkey (h ▸ hhash))]
      exact this
  · rw [← setProbe_probeLeft_iff .liveness (·.spec.livenessProbe) _ done g hd, ← hl]
    exact hview.livenessProbe
  · rw [← setProbe_probeLeft_iff .readiness (·.spec.readinessProbe) _ done g hd, ← hr]
    exact hview.readinessProbe
  · rw [← setProbe_probeLeft_iff .startup (·.spec.startUpProbe) _ done g hd, ← hs]
    exact hview.startUpProbe

/-! ## A hash that tells workloads apart -/

section Telling

variable (base commonConfigSHA : String) (m : Druid) (g : ServiceGroup)

/-- Nothing is hashed. -/
def noHash : Hash := fun _ _ => ""

open Classical in
/-- A hash that recognises the workload the group has on its own. -/
noncomputable def tellingHash : Hash
  | .statefulSet, obj =>
      if obj = hashedStatefulSet noHash commonConfigSHA m g then base ++ "+" else base ++ "-"
  | .deployment, obj =>
      if .ok obj = hashedDeployment noHash commonConfigSHA m g then base ++ "+" else base ++ "-"
  | _, _ => ""

variable {base commonConfigSHA m g}

theorem append_plus_ne : base ++ "+" ≠ base ++ "-" := by
  intro h
  rw [String.append_right_inj] at h
  exact absurd h (by decide)

theorem tellingHash_statefulSet (obj : Obj .statefulSet) :
    tellingHash base commonConfigSHA m g .statefulSet obj = base ++ "+" ∧
        obj = hashedStatefulSet noHash commonConfigSHA m g ∨
      tellingHash base commonConfigSHA m g .statefulSet obj = base ++ "-" := by
  unfold tellingHash
  dsimp only
  split_ifs with h
  · exact .inl ⟨rfl, h⟩
  · exact .inr rfl

theorem tellingHash_deployment (obj : Obj .deployment) :
    tellingHash base commonConfigSHA m g .deployment obj = base ++ "+" ∧
        .ok obj = hashedDeployment noHash commonConfigSHA m g ∨
      tellingHash base commonConfigSHA m g .deployment obj = base ++ "-" := by
  unfold tellingHash
  dsimp only
  split_ifs with h
  · exact .inl ⟨rfl, h⟩
  · exact .inr rfl

theorem tellingHash_alone :
    tellingHash base commonConfigSHA m g .statefulSet
        (hashedStatefulSet noHash commonConfigSHA m g) = base ++ "+" ∧
      ∀ obj, hashedDeployment noHash commonConfigSHA m g = .ok obj →
        tellingHash base commonConfigSHA m g .deployment obj = base ++ "+" :=
  ⟨if_pos rfl, fun _ hobj => if_pos hobj.symm⟩

/-- What is left of the resource before the workload does not depend on the hash of workloads. -/
theorem hashedStatefulSet_telling (m' : Druid) :
    hashedStatefulSet (tellingHash base commonConfigSHA m g) commonConfigSHA m' g =
      hashedStatefulSet noHash commonConfigSHA m' g := rfl

theorem hashedDeployment_telling (m' : Druid) :
    hashedDeployment (tellingHash base commonConfigSHA m g) commonConfigSHA m' g =
      hashedDeployment noHash commonConfigSHA m' g := rfl

theorem hashedDeployment_ok (hash : Hash) (commonConfigSHA : String) (m' : Druid)
    {g' : ServiceGroup} (hkind : g'.spec.kind = "Deployment") (hmakes : MakesWorkload g') :
    ∃ obj, hashedDeployment hash commonConfigSHA m' g' = .ok obj := by
  obtain ⟨ru, hru⟩ := (makesWorkload_iff hkind).1 hmakes
  unfold hashedDeployment makeDeployment
  rw [hru]
  exact ⟨_, rfl⟩

theorem workloadHash_telling (m' : Druid) {g' : ServiceGroup} (hmakes : MakesWorkload g') :
    workloadHash (tellingHash base commonConfigSHA m g) commonConfigSHA m' g' = base ++ "+" ∨
      workloadHash (tellingHash base commonConfigSHA m g) commonConfigSHA m' g' = base ++ "-" := by
  unfold workloadHash
  by_cases hkind : g'.spec.kind = "Deployment"
  · obtain ⟨obj, hobj⟩ := hashedDeployment_ok (tellingHash base commonConfigSHA m g) commonConfigSHA
      m' hkind hmakes
    rw [if_pos hkind, hobj]
    exact (tellingHash_deployment obj).imp And.left id
  · rw [if_neg hkind]
    exact (tellingHash_statefulSet _).imp And.left id

/-- A workload with the hash of the one the group has on its own is made from the same values. -/
theorem sameView_of_telling (hmakes : MakesWorkload g)
    (heq : workloadHash (tellingHash base commonConfigSHA m g) commonConfigSHA m' g =
      workloadHash (tellingHash base commonConfigSHA m g) commonConfigSHA m g) :
    SameView m m' g := by
  rw [← sameView_afterServices noHash]
  unfold workloadHash at heq
  rw [hashedStatefulSet_telling, hashedStatefulSet_telling, hashedDeployment_telling,
    hashedDeployment_telling] at heq
  by_cases hkind : g.spec.kind = "Deployment"
  · obtain ⟨obj, hobj⟩ := hashedDeployment_ok noHash commonConfigSHA m hkind hmakes
    obtain ⟨obj', hobj'⟩ := hashedDeployment_ok noHash commonConfigSHA m' hkind hmakes
    obtain ⟨ru, hru⟩ := (makesWorkload_iff hkind).1 hmakes
    rw [if_pos hkind, if_pos hkind, hobj, hobj'] at heq
    dsimp only at heq
    rw [tellingHash_alone.2 obj hobj] at heq
    have hsame : obj' = obj := by
      rcases tellingHash_deployment obj' with ⟨-, hsame⟩ | hminus
      · exact Except.ok.inj (hsame.trans hobj)
      · exact absurd (heq.symm.trans hminus) append_plus_ne
    unfold hashedDeployment makeDeployment at hobj hobj'
    rw [hru] at hobj hobj'
    cases hobj
    cases hobj'
    refine sameView_of_template
      (congrArg (fun obj : Obj .deployment => obj.body.spec.template) hsame) ?_
    exact Option.some.inj (congrArg (fun obj : Obj .deployment => obj.metadata.annotations) hsame)
  · rw [if_neg hkind, if_neg hkind, tellingHash_alone.1] at heq
    have hsame : hashedStatefulSet noHash commonConfigSHA m' g =
        hashedStatefulSet noHash commonConfigSHA m g := by
      rcases tellingHash_statefulSet (hashedStatefulSet noHash commonConfigSHA m' g) with
        ⟨-, hsame⟩ | hminus
      · exact hsame
      · exact absurd (heq.symm.trans hminus) append_plus_ne
    refine sameView_of_template
      (congrArg (fun obj : Obj .statefulSet => obj.body.spec.template) hsame) ?_
    exact Option.some.inj (congrArg (fun obj : Obj .statefulSet => obj.metadata.annotations) hsame)

end Telling

/-! ## Isolation -/

theorem isolated_iff {hash : Hash} {commonConfigSHA : String} (hmakes : MakesWorkload g) :
    Isolated hash commonConfigSHA m done g ↔
      (ownedAnnotations (seenAfter hash commonConfigSHA m done) g).insert druidOpResourceHash
        (workloadHash hash commonConfigSHA (seenAfter hash commonConfigSHA m done) g) =
      (ownedAnnotations m g).insert druidOpResourceHash
        (workloadHash hash commonConfigSHA m g) := by
  rw [Isolated, plannedAnnotations_eq hash commonConfigSHA _ hmakes, ownedAnnotations_afterServices,
    Option.some.injEq]

/-- For one group: annotated as if there were no other group, whatever the hash, exactly where the
earlier groups make no difference. -/
theorem isolated_iff_undisturbed (hdone : ∀ g' ∈ done, MakesWorkload g')
    (hmakes : MakesWorkload g) :
    (∀ hash commonConfigSHA, Isolated hash commonConfigSHA m done g) ↔ Undisturbed m done g := by
  constructor
  · intro hall
    -- the hash never takes the value the cluster spec may have in its place
    obtain ⟨base, hbase⟩ : ∃ base, base =
      ((m.spec.workloadAnnotations.getD ∅).lookup druidOpResourceHash).getD "" := ⟨_, rfl⟩
    have hiso := (isolated_iff hmakes).1 (hall (tellingHash base "" m g) "")
    have heq := congrArg (Finmap.lookup druidOpResourceHash) hiso
    rw [Finmap.lookup_insert, Finmap.lookup_insert, Option.some.injEq] at heq
    refine undisturbed_of_sameView hdone (fun a m' g' ha hg' hvalue => ?_)
      (sameView_of_telling hmakes heq)
    have hvalue' : base = workloadHash (tellingHash base "" m g) "" m' g' :=
      hbase.trans (by rw [ha, Option.getD_some, hvalue]; rfl)
    have hlength := congrArg String.length hvalue'
    rcases (workloadHash_telling m' hg' : workloadHash (tellingHash base "" m g) "" m' g' = _ ∨ _)
      with h | h
    all_goals
      rw [h, String.length_append] at hlength
      simp at hlength
  · intro hkept hash commonConfigSHA
    have hview := sameView_seenAfter hdone hkept hash commonConfigSHA
    rw [isolated_iff hmakes, hview.annotations,
      workloadHash_congr (shares_seenAfter hash commonConfigSHA m done) hview]

/-- **Workload annotations of one call.** What a call sends for a group is annotated with the
cluster's and the group's annotations and with a hash of its own, for every hash function, exactly
where no earlier group leaves something behind that makes a difference. Whatever the API server
answers, these annotations are the ones that are sent. -/
theorem workload_isolated_iff (o : MapOrders) (m : Druid) :
    ((∀ done g rest, getNodeSpecsByOrder o.groups m = done ++ g :: rest →
        (∀ g' ∈ done, MakesWorkload g') → MakesWorkload g →
        ∀ hash commonConfigSHA, Isolated hash commonConfigSHA m done g) ↔
      ∀ done g rest, getNodeSpecsByOrder o.groups m = done ++ g :: rest →
        (∀ g' ∈ done, MakesWorkload g') → MakesWorkload g → Undisturbed m done g) ∧
    ∀ {σ : Type} (h : Handler sig σ) (hash : Hash) (s : σ) (k : Kind) (obj : Obj k),
      k = .statefulSet ∨ k = .deployment →
      ∀ e ∈ (exec h (deployDruidCluster hash o m) s).steps,
        e.req = .create k obj ∨ e.req = .update k obj →
        ∃ commonConfigSHA done g rest, getNodeSpecsByOrder o.groups m = done ++ g :: rest ∧
          (∀ g' ∈ done, MakesWorkload g') ∧ MakesWorkload g ∧ IsWorkloadOf m k obj.key g ∧
          obj.metadata.annotations = plannedAnnotations hash commonConfigSHA
            (seenAfter hash commonConfigSHA m done) g := by
  refine ⟨⟨fun hall done g rest hgroups hdone hmakes => ?_, fun hall done g rest hgroups hdone
    hmakes => ?_⟩, fun h hash s k obj hk e he hreq => ?_⟩
  · exact (isolated_iff_undisturbed hdone hmakes).1 (hall done g rest hgroups hdone hmakes)
  · exact (isolated_iff_undisturbed hdone hmakes).2 (hall done g rest hgroups hdone hmakes)
  · obtain ⟨common, done, g, rest, planned, version, -, hgroups, hdone, hplanned, rfl⟩ :=
      workload_planned h hash o m hk he hreq
    exact ⟨_, done, g, rest, hgroups, hdone, hplanned.makes,
      hplanned.isWorkloadOf (sameIdentity_seenAfter ..), hplanned.annotations_eq⟩

/-! ## Two annotated tiers -/

def hotTier : ServiceGroup :=
  ⟨"hot", { nodeType := .historical, druidPort := 8083, replicas := 1,
            workloadAnnotations := some (Finmap.singleton "tier" "hot") }⟩

def coldTier : ServiceGroup :=
  ⟨"cold", { nodeType := .historical, druidPort := 8083, replicas := 1 }⟩

/-- Annotations for all workloads, and one for the hot tier. -/
def annotatedTiers : Druid where
  metadata := { name := "c", ns := "d" }
  body := {
    spec := {
      image := "v1"
      workloadAnnotations := some (Finmap.singleton "team" "a")
      nodes := ⟨[hotTier, coldTier], by decide⟩ } }

/-- The StatefulSet of this name is created with this annotation. -/
def createdWith (name key value : String) (r : Request) : Bool :=
  match r with
  | .create .statefulSet obj =>
      decide (obj.name = name ∧ StrMap.getD obj.metadata.annotations key = value)
  | _ => false

/-- The annotation of the hot tier is sent with the StatefulSet of the cold one. -/
theorem tier_annotation_leaks :
    ((exec (serve {}) (deployDruidCluster imageHash {} annotatedTiers)
      (storedAlone annotatedTiers)).steps.any fun e =>
        createdWith "druid-c-cold" "tier" "hot" e.req) ∧
    (ownedAnnotations annotatedTiers coldTier).lookup "tier" = none ∧
    getNodeSpecsByOrder ({} : MapOrders).groups annotatedTiers = [hotTier] ++ coldTier :: [] ∧
    ¬ Isolated imageHash "" annotatedTiers [hotTier] coldTier := by
  refine ⟨by decide +kernel, by decide +kernel, rfl, ?_⟩
  unfold Isolated
  decide +kernel

end DruidOperator.Controller
