import DruidOperator.WorkloadAnnotations

/-!
# Probes of the cluster spec

A probe without a port gets the port of the group it is given to. The port is written through the
pointer to the probe, and a probe of the cluster spec is one object for all groups: the first group
with a port sets it for those after it. The empty text is also taken for a port that is not set, but
stays what is encoded.

* `ProbesGiven` — the probes in a pod template have the ports the resource asks for.
* `PortsOwn` — no earlier group has set a port that the group should set.
-/

namespace DruidOperator.Controller

open Interaction Prog Kube

/-! ## One probe -/

/-- A port that is not set becomes `port`; one that is set is kept. -/
def PortGiven (asked given : Option Probe) (port : Int) : Prop :=
  ∀ get, asked.bind Probe.httpGet = some get →
    ∃ get', given.bind Probe.httpGet = some get' ∧
      if unsetPort asked then get'.port.value = .inl port else get'.port = get.port

/-- The port of the probe is not given as a text. -/
def portIsNumber (probe : Option Probe) : Prop :=
  ∀ get, probe.bind Probe.httpGet = some get → get.port.type = .int

theorem portGiven_update (probe : Option Probe) (port port' : Int) :
    PortGiven probe (updateDefaultPortInProbe probe port') port ↔
      (unsetPort probe = true → portIsNumber probe ∧ port' = port) := by
  rcases probe with _ | ⟨_ | get, _⟩
  · simp [PortGiven, unsetPort]
  · simp [PortGiven, unsetPort]
  · by_cases hunset : get.port.intVal = 0 ∧ get.port.strVal = ""
    · cases htype : get.port.type <;>
        simp [PortGiven, portIsNumber, unsetPort, updateDefaultPortInProbe, hunset, htype,
          IntOrString.value]
    · simp [PortGiven, unsetPort, updateDefaultPortInProbe, hunset]

/-- A probe that is asked for is given with its port, whatever the default. -/
theorem portGiven_setProbe (probeType : ProbeType) (asked ofNode ofCluster : Option Probe)
    (nodeSpec : DruidNodeSpec) (m : Druid) (port : Int)
    (hasked : asked.isSome → (firstNonNilValue ofNode ofCluster).isSome) :
    PortGiven asked (setProbe probeType ofNode ofCluster nodeSpec m) port ↔
      PortGiven asked (updateDefaultPortInProbe (firstNonNilValue ofNode ofCluster)
        nodeSpec.druidPort) port := by
  cases hprobe : firstNonNilValue ofNode ofCluster with
  | none =>
      rw [hprobe] at hasked
      cases asked with
      | none => simp [PortGiven]
      | some probe => simp at hasked
  | some probe =>
      unfold setProbe
      rw [hprobe]
      rfl

/-! ## One kind of probe in the loop -/

/-- The port the resource leaves open is a number, and it is left to the group: the probe is its
own, or no earlier group has written another port into the probe of the cluster spec. -/
def PortOwn (own : ServiceGroup → Option Probe) (probe : Option Probe) (done : List ServiceGroup)
    (g : ServiceGroup) : Prop :=
  unsetPort (firstNonNilValue (own g) probe) = true →
    portIsNumber (firstNonNilValue (own g) probe) ∧
      ((own g).isSome ∨ ∀ g' ∈ firstWriter own done, g'.spec.druidPort = g.spec.druidPort)

theorem portGiven_probeLeft_iff (probeType : ProbeType) (own : ServiceGroup → Option Probe)
    (probe : Option Probe) (done : List ServiceGroup) (g : ServiceGroup) (m : Druid) :
    PortGiven (firstNonNilValue (own g) probe)
        (setProbe probeType (own g) (probeLeft own probe done) (withDruidPort g.spec) m)
        g.spec.druidPort ↔
      PortOwn own probe done g := by
  have hsome : (firstNonNilValue (own g) probe).isSome →
      (firstNonNilValue (own g) (probeLeft own probe done)).isSome := by
    rw [probeLeft_eq]
    cases own g <;> cases probe <;> cases firstWriter own done <;>
      simp [firstNonNilValue, updateDefaultPortInProbe]
  rw [portGiven_setProbe _ _ _ _ _ _ _ hsome]
  unfold PortOwn
  show PortGiven _ (updateDefaultPortInProbe _ g.spec.druidPort) _ ↔ _
  cases hown : own g with
  | some q => simp [firstNonNilValue, portGiven_update]
  | none =>
      simp only [firstNonNilValue, Option.none_or]
      rw [probeLeft_eq]
      cases hfirst : firstWriter own done with
      | none => simp [portGiven_update]
      | some g' =>
          have hport : g'.spec.druidPort ≠ 0 := by
            have := List.find?_some hfirst
            simp only [Bool.and_eq_true, decide_eq_true_eq] at this
            exact this.2
          -- the port is set already, so the group does not write its own
          dsimp only
          rw [updateDefaultPortInProbe_set (unsetPort_updateDefaultPortInProbe hport),
            portGiven_update]
          simp

/-! ## The pod template of a group -/

/-- The pod template of the workload planned for a group. -/
def plannedTemplate (hash : Hash) (commonConfigSHA : String) (m : Druid) (g : ServiceGroup) :
    PodTemplateSpec :=
  makePodTemplate (withDruidPort g.spec) (afterServices hash m g) (groupLabels m g) (groupName m g)
    (groupConfigSHA hash commonConfigSHA m g)

/-- The pod template of a workload. -/
def podTemplate : (k : Kind) → Obj k → Option PodTemplateSpec
  | .statefulSet, obj => some obj.body.spec.template
  | .deployment, obj => some obj.body.spec.template
  | _, _ => none

theorem PlannedWorkload.podTemplate_eq {hash : Hash} {commonConfigSHA : String} {m : Druid}
    {g : ServiceGroup} {k : Kind} {obj : Obj k}
    (hp : PlannedWorkload hash commonConfigSHA m g k obj) :
    podTemplate k obj = some (plannedTemplate hash commonConfigSHA m g) := by
  cases hp with
  | statefulSet hkind => rfl
  | deployment hkind obj hobj =>
      obtain ⟨made, hmade, rfl⟩ := plannedDeployment_made hobj
      obtain ⟨ru, -, rfl⟩ := makeDeployment_made hmade
      rfl

/-- The probes of the main container have the ports that the resource asks for in the group. -/
def ProbesGiven (m : Druid) (g : ServiceGroup) (template : PodTemplateSpec) : Prop :=
  ∃ c, template.spec.containers.head? = some c ∧
    PortGiven (firstNonNilValue g.spec.livenessProbe m.spec.livenessProbe) c.livenessProbe
      g.spec.druidPort ∧
    PortGiven (firstNonNilValue g.spec.readinessProbe m.spec.readinessProbe) c.readinessProbe
      g.spec.druidPort ∧
    PortGiven (firstNonNilValue g.spec.startUpProbe m.spec.startUpProbe) c.startupProbe
      g.spec.druidPort

/-- The ports that the resource leaves open are left to the group, for all three probes. -/
def PortsOwn (m : Druid) (done : List ServiceGroup) (g : ServiceGroup) : Prop :=
  PortOwn (·.spec.livenessProbe) m.spec.livenessProbe done g ∧
    PortOwn (·.spec.readinessProbe) m.spec.readinessProbe done g ∧
    PortOwn (·.spec.startUpProbe) m.spec.startUpProbe done g

theorem plannedTemplate_probes (hash : Hash) (commonConfigSHA : String) (m : Druid)
    (g : ServiceGroup) :
    ((plannedTemplate hash commonConfigSHA m g).spec.containers.head?.map fun c =>
      (c.livenessProbe, c.readinessProbe, c.startupProbe)) =
      some (setLivenessProbe (withDruidPort g.spec) m, setReadinessProbe (withDruidPort g.spec) m,
        setStartUpProbe (withDruidPort g.spec) m) := by
  have hview := afterServices_view hash m g
  rw [← hview.livenessProbe, ← hview.readinessProbe, ← hview.startUpProbe]
  exact makePodSpec_probes ..

/-- For one group: its probes have the right ports exactly where they are left to the group. -/
theorem probesGiven_iff (hash : Hash) (commonConfigSHA : String) (m : Druid)
    (done : List ServiceGroup) (g : ServiceGroup) :
    ProbesGiven m g (plannedTemplate hash commonConfigSHA
      (seenAfter hash commonConfigSHA m done) g) ↔
      PortsOwn m done g := by
  obtain ⟨hl, hr, hs⟩ := seenAfter_probes hash commonConfigSHA m done
  have hprobes := plannedTemplate_probes hash commonConfigSHA
      (seenAfter hash commonConfigSHA m done) g
  obtain ⟨c, hc, heq⟩ := Option.map_eq_some_iff.1 hprobes
  simp only [Prod.mk.injEq] at heq
  unfold PortsOwn ProbesGiven
  rw [← portGiven_probeLeft_iff .liveness (·.spec.livenessProbe) _ done g
      (seenAfter hash commonConfigSHA m done),
    ← portGiven_probeLeft_iff .readiness (·.spec.readinessProbe) _ done g
      (seenAfter hash commonConfigSHA m done),
    ← portGiven_probeLeft_iff .startup (·.spec.startUpProbe) _ done g
      (seenAfter hash commonConfigSHA m done), ← hl, ← hr, ← hs, hc]
  simp only [Option.some.injEq, exists_eq_left', heq]
  rfl

/-- **Ports of probes.** In one call, every probe whose port the resource leaves open has the port
of the group whose pods it is for, and every other probe keeps its port, exactly where the open
ports are left to the groups. Whatever the API server answers, every workload that is sent has the
pod template planned for its group. -/
theorem probe_ports_iff (hash : Hash) (o : MapOrders) (m : Druid) :
    ((∀ done g rest, getNodeSpecsByOrder o.groups m = done ++ g :: rest →
        (∀ g' ∈ done, MakesWorkload g') → MakesWorkload g → ∀ commonConfigSHA,
        ProbesGiven m g
          (plannedTemplate hash commonConfigSHA (seenAfter hash commonConfigSHA m done) g)) ↔
      ∀ done g rest, getNodeSpecsByOrder o.groups m = done ++ g :: rest →
        (∀ g' ∈ done, MakesWorkload g') → MakesWorkload g → PortsOwn m done g) ∧
    ∀ {σ : Type} (h : Handler sig σ) (s : σ) (k : Kind) (obj : Obj k),
      k = .statefulSet ∨ k = .deployment →
      ∀ e ∈ (exec h (deployDruidCluster hash o m) s).steps,
        e.req = .create k obj ∨ e.req = .update k obj →
        ∃ commonConfigSHA done g rest, getNodeSpecsByOrder o.groups m = done ++ g :: rest ∧
          (∀ g' ∈ done, MakesWorkload g') ∧ MakesWorkload g ∧ IsWorkloadOf m k obj.key g ∧
          podTemplate k obj =
            some (plannedTemplate hash commonConfigSHA
              (seenAfter hash commonConfigSHA m done) g) := by
  refine ⟨⟨?_, ?_⟩, fun h s k obj hk e he hreq => ?_⟩
  · intro hall done g rest hgroups hdone hmakes
    exact (probesGiven_iff hash "" m done g).1 (hall done g rest hgroups hdone hmakes "")
  · intro hall done g rest hgroups hdone hmakes sha
    exact (probesGiven_iff hash sha m done g).2 (hall done g rest hgroups hdone hmakes)
  · obtain ⟨common, done, g, rest, planned, version, -, hgroups, hdone, hplanned, rfl⟩ :=
      workload_planned h hash o m hk he hreq
    refine ⟨_, done, g, rest, hgroups, hdone, hplanned.makes,
      hplanned.isWorkloadOf (sameIdentity_seenAfter ..), Eq.trans ?_ hplanned.podTemplate_eq⟩
    rcases hk with rfl | rfl <;> rfl

/-! ## Two tiers with ports of their own -/

/-- A readiness probe without a port for all groups, and two groups with different ports. -/
def probedTiers : Druid where
  metadata := { name := "c", ns := "d" }
  body := {
    spec := {
      image := "v1"
      readinessProbe := some { httpGet := some { path := "/status/health" } }
      nodes := ⟨[
        ⟨"hot", { nodeType := .historical, druidPort := 8083, replicas := 1 }⟩,
        ⟨"cold", { nodeType := .historical, druidPort := 8084, replicas := 1 }⟩], by decide⟩ } }

/-- The StatefulSet of this name is created with this port in the readiness probe of its pods. -/
def probedAt (name : String) (port : Int) (r : Request) : Bool :=
  match r with
  | .create .statefulSet obj => decide (obj.name = name ∧
      (obj.body.spec.template.spec.containers.head?.bind (·.readinessProbe)).bind Probe.httpGet =
        some { path := "/status/health", port := { intVal := port } })
  | _ => false

/-- The readiness probe of the cold tier has the port of the hot one. -/
theorem tier_port_leaks :
    ((exec (serve {}) (deployDruidCluster imageHash {} probedTiers)
      (storedAlone probedTiers)).steps.any fun e => probedAt "druid-c-cold" 8083 e.req) ∧
    ∃ hot cold, getNodeSpecsByOrder ({} : MapOrders).groups probedTiers = [hot] ++ cold :: [] ∧
      groupName probedTiers cold = "druid-c-cold" ∧ cold.spec.druidPort = 8084 ∧
      ¬ ProbesGiven probedTiers cold
        (plannedTemplate imageHash "" (seenAfter imageHash "" probedTiers [hot]) cold) := by
  refine ⟨by decide +kernel, _, _, rfl, rfl, rfl, ?_⟩
  rw [probesGiven_iff]
  rintro ⟨-, hreadiness, -⟩
  rcases (hreadiness rfl).2 with hown | hport
  · cases hown
  · exact absurd (hport _ rfl) (by decide)

end DruidOperator.Controller
