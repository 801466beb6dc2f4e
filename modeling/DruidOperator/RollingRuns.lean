import DruidOperator.WorkloadWrites
import DruidOperator.Lib.Runs
import DruidOperator.Lib.Lists

/-!
# Rolling deploys over many reconciles

One reconcile gets past a node group only if the workload of the group is fully deployed. Over
several reconciles this is not enough: each call looks only at the groups before the one it
updates, in an order that Go's map iteration may change from call to call, and it trusts a status
that may be older than the last update.

* `update_after_passed` — what an update of a workload says about the steps before it.
* `rolling_sequential` — one rollout at a time, where statuses are up to date.
-/

namespace DruidOperator.Controller

open Interaction Prog Kube Runs

variable {env : Env} {k : Kind} {obj : Obj k} {rolling : List Workload}

/-! ## The steps before an update -/

/-- The workload is stored, and `isObjFullyDeployed` would return true for it. -/
def deployedIn (c : Cluster) (k : Kind) (key : String × String) : Bool :=
  match (c.store k).find? key with
  | some obj => (fullyDeployed k obj).1
  | none => false

/-- A workload that was reported deployed was deployed when the report was made. -/
theorem ReportedDeployed.deployedIn {m : Druid} {g : ServiceGroup} {steps : List (Step sig World)}
    (hd : ReportedDeployed (serve env) m g steps) :
    ∃ e ∈ steps, deployedIn (env.seen e.pre) (workloadKind g.spec)
      (m.ns, groupName m g) = true := by
  obtain ⟨s, err, hres, hwithin⟩ := hd
  have hk : workloadKind g.spec ≠ .storageClass := by
    rcases workloadKind_cases g.spec with h | h <;> rw [h] <;> decide
  have hmem : ⟨s, .get (workloadKind g.spec) m.ns (groupName m g), _⟩ ∈ steps :=
    hwithin.subset List.mem_cons_self
  refine ⟨_, hmem, ?_⟩
  unfold isObjFullyDeployed getObj at hres
  simp only [call_bind, ret_bind, exec_call] at hres
  cases hget : (serve env (.get (workloadKind g.spec) m.ns (groupName m g)) s).1 with
  | error e =>
      rw [hget] at hres
      cases hres
  | ok obj =>
      rw [hget] at hres
      unfold Controller.deployedIn
      rw [(serve_get_ok hk hget).2]
      simp only [exec_ret, pure_eq, Except.ok.injEq] at hres
      exact congrArg Prod.fst hres

theorem updatesWorkload_of_update (hk : k = .statefulSet ∨ k = .deployment) {r : Request}
    (hreq : r = .update k obj) : updatesWorkload r = true := by
  subst hreq
  rcases hk with rfl | rfl <;> rfl

theorem not_mem_of_workloadUpdates {σ : Type} {es : List (Step sig σ)}
    (hzero : workloadUpdates es = 0)
    {e : Step sig σ} (hup : updatesWorkload e.req = true) : e ∉ es := by
  intro he
  rw [workloadUpdates, List.countP_eq_zero] at hzero
  exact hzero e he hup

theorem IsTurn.isWorkloadOf {σ : Type} {h : Handler sig σ} {hash : Hash} {m : Druid}
    {g : ServiceGroup} {steps : List (Step sig σ)} (hturn : IsTurn h hash m g steps)
    {e : Step sig σ} (he : e ∈ steps) (hk : k = .statefulSet ∨ k = .deployment)
    (hreq : e.req = .update k obj) : IsWorkloadOf m k obj.key g := by
  obtain ⟨sha, l, s, hns, hname, rfl⟩ := hturn
  rw [deployNode_eq] at he
  have hw := (uses_applyGroup hash (makeLabelsForDruid m) sha l g).steps he .update k obj.key
    (by rw [hreq]; rfl)
  rw [hns, groupName_congr hname] at hw
  by_contra hnot
  exact spares_deploysNode hk hnot _ _ _ hw ⟨.inr rfl, rfl, rfl⟩

/-- **What comes before an update.** Before a call updates the workload of the group at position
`i`, it has updated none, and has seen the workload of every group before `i` fully deployed. -/
theorem update_after_passed {hash : Hash} {o : MapOrders} {m : Druid}
    (hroll : m.spec.rollingDeploy = true) (hgen : 1 < m.metadata.generation) {w : World}
    {before after : List (Step sig World)} {e : Step sig World}
    (hsteps : (exec (serve env) (deployDruidCluster hash o m) w).steps = before ++ e :: after)
    (hk : k = .statefulSet ∨ k = .deployment) (hreq : e.req = .update k obj) :
    workloadUpdates before = 0 ∧ ∃ (i : ℕ) (g : ServiceGroup),
      (getNodeSpecsByOrder o.groups m)[i]? = some g ∧ IsWorkloadOf m k obj.key g ∧
      ∀ j < i, ∀ g', (getNodeSpecsByOrder o.groups m)[j]? = some g' →
        ∃ e' ∈ before, deployedIn (env.seen e'.pre) (workloadKind g'.spec)
          (m.ns, groupName m g') = true := by
  obtain ⟨pre, turns, post, hg⟩ := gated_deployDruidCluster (h := serve env) hash o (m := m)
    ⟨hroll, hgen⟩ w fun e _ => stillRolling_same ⟨hroll, hgen⟩ e.req e.resp
  rw [hsteps] at hg
  have hup := updatesWorkload_of_update hk hreq
  have hone := hg.updates
  refine ⟨?_, ?_⟩
  · -- the update itself is the one that a call may make
    rw [workloadUpdates_append] at hone
    have : 1 ≤ workloadUpdates (e :: after) := by simp [workloadUpdates, hup]
    omega
  · have hmem : e ∈ pre ++ turns.flatten ++ post := hg.steps_eq ▸ by simp
    have hpre : e ∉ pre := fun he => by
      have hw := hg.before_writes e he .update k obj.key (by rw [hreq]; rfl)
      have := not_writtenBefore_workload k obj.key hw
      rcases hk with rfl | rfl
      · exact this.1 rfl
      · exact this.2 rfl
    have hpost : e ∉ post := fun he =>
      not_mem_of_workloadUpdates (hg.finish (List.ne_nil_of_mem he)).1 hup (by simp)
    have hturns : e ∈ turns.flatten := by
      simp only [List.mem_append] at hmem
      tauto
    obtain ⟨turn, hturn, he⟩ := List.mem_flatten.1 hturns
    obtain ⟨i, hi, rfl⟩ := List.getElem_of_mem hturn
    obtain ⟨g, hgroup, hisTurn⟩ := hg.turn i hi
    refine ⟨i, g, hgroup, hisTurn.isWorkloadOf he hk hreq, fun j hj g' hg' => ?_⟩
    obtain ⟨g'', hg'', hpassed⟩ := hg.gate j i hi hj
    obtain rfl : g'' = g' := Option.some.inj (hg''.symm.trans hg')
    obtain ⟨e', he', hdeployed⟩ := hpassed.deployed.deployedIn
    refine ⟨e', ?_, hdeployed⟩
    -- the turn of the earlier group lies before the update
    obtain ⟨a, b, hab⟩ := List.append_of_mem he
    have hsplit : turns.flatten = (turns.take i).flatten ++ (a ++ e :: b) ++
        (turns.drop (i + 1)).flatten := by
      rw [← hab, ← List.flatten_singleton (l := turns[i]), ← List.flatten_append,
        ← List.flatten_append, List.append_assoc,
          List.singleton_append, ← List.drop_eq_getElem_cons hi,
        List.take_append_drop]
    have hbefore : before = pre ++ (turns.take i).flatten ++ a := by
      have hlist : before ++ e :: after = (pre ++ (turns.take i).flatten ++ a) ++
          e :: (b ++ (turns.drop (i + 1)).flatten ++ post) := by
        rw [hg.steps_eq, hsplit]
        simp
      exact Lists.eq_of_append_cons (p := fun e : Step sig World =>
        updatesWorkload e.req) hlist hup hup hone
    rw [hbefore]
    refine List.mem_append_left _ (List.mem_append_right _ (List.mem_flatten.2 ⟨turns[j], ?_, he'⟩))
    exact List.mem_take_iff_getElem.2 ⟨j, by omega, rfl⟩

/-! ## Workloads that are rolling -/

/-- A workload: its kind and its key. -/
abbrev Workload := Kind × String × String

/-- The workload of a group. -/
def workloadOf (m : Druid) (g : ServiceGroup) : Workload :=
  (workloadKind g.spec, m.ns, groupName m g)

section Watch

variable (finished : Cluster → Workload → Bool)

/-- Forget the workloads that are finished in `c`. -/
def refresh (c : Cluster) (rolling : List Workload) : List Workload :=
  rolling.filter fun x => !finished c x

/-- The workloads that are rolling after a step: one that is updated is from now on, and each is
until it is seen finished. -/
def watch (env : Env) (rolling : List Workload) (e : Step sig World) : List Workload :=
  match e.req.write with
  | some (_, x) =>
      if updatesWorkload e.req then x :: refresh finished (env.seen e.pre) rolling
      else refresh finished (env.seen e.pre) rolling
  | none => refresh finished (env.seen e.pre) rolling

variable {finished}

theorem mem_refresh {c : Cluster} {x : Workload} :
    x ∈ refresh finished c rolling ↔ x ∈ rolling ∧ finished c x = false := by
  simp [refresh]

theorem watch_of_not_updates {e : Step sig World} (hup : updatesWorkload e.req = false) :
    watch finished env rolling e = refresh finished (env.seen e.pre) rolling := by
  unfold watch
  split
  · rw [hup]
    rfl
  · rfl

/-- Over steps without an update, what stays is what is never seen finished. -/
theorem mem_run_watch {es : List (Step sig World)} (hzero : workloadUpdates es = 0) {x : Workload} :
    x ∈ run (watch finished env) rolling es ↔
      x ∈ rolling ∧ ∀ e ∈ es, finished (env.seen e.pre) x = false := by
  induction es generalizing rolling with
  | nil => simp
  | cons e es ih =>
      rw [workloadUpdates, List.countP_eq_zero] at hzero
      have he : updatesWorkload e.req = false := by simpa using hzero e List.mem_cons_self
      have hes : workloadUpdates es = 0 :=
        List.countP_eq_zero.2 fun e' he' => hzero e' (List.mem_cons_of_mem e he')
      rw [run_cons, ih hes, watch_of_not_updates he, mem_refresh, List.forall_mem_cons]
      tauto

theorem mem_run_watch_cases {es : List (Step sig World)} {x : Workload}
    (hx : x ∈ run (watch finished env) rolling es) :
    x ∈ rolling ∨ ∃ e ∈ es, updatesWorkload e.req = true ∧ ∃ v, e.req.write = some (v, x) := by
  induction es generalizing rolling with
  | nil => exact .inl hx
  | cons e es ih =>
      rcases ih hx with hx | ⟨e', he', hup⟩
      · unfold watch at hx
        split at hx
        · next v y hwrite =>
            split_ifs at hx with hup
            · rcases List.mem_cons.1 hx with rfl | hx
              · exact .inr ⟨e, List.mem_cons_self, hup, v, hwrite⟩
              · exact .inl (mem_refresh.1 hx).1
            · exact .inl (mem_refresh.1 hx).1
        · exact .inl (mem_refresh.1 hx).1
      · exact .inr ⟨e', List.mem_cons_of_mem e he', hup⟩

end Watch

/-- `isObjFullyDeployed` would return true for the workload. -/
def isDeployed (c : Cluster) (x : Workload) : Bool := deployedIn c x.1 x.2

/-- A step that updates a workload is taken while no other workload is rolling. -/
def RollsAlone (env : Env) (rolling : List Workload) (e : Step sig World) : Prop :=
  updatesWorkload e.req = true → ∀ x ∈ refresh isDeployed (env.seen e.pre) rolling,
    e.req.write = some (.update, x)

theorem updatesWorkload_cases {r : Request} (hup : updatesWorkload r = true) :
    ∃ (k : Kind) (obj : Obj k), (k = .statefulSet ∨ k = .deployment) ∧ r = .update k obj := by
  unfold updatesWorkload at hup
  cases r with
  | update k obj =>
      refine ⟨k, obj, ?_, rfl⟩
      simp only [Request.write] at hup
      cases k <;> simp_all
  | create k obj => cases hup
  | delete k obj orphan => cases hup
  | _ => cases hup

/-! ## Runs of reconciles -/

/-- One reconcile: the outside, the orders of the map, and the resource as it is read. -/
structure Call where
  env : Env := {}
  orders : MapOrders := {}
  cr : Druid

/-- The cluster, and the workloads the operator updated that were not seen finished since. -/
structure Rollouts where
  world : World
  rolling : List Workload := []

def callSteps (hash : Hash) (s : Rollouts) (c : Call) : List (Step sig World) :=
  (exec (serve c.env) (deployDruidCluster hash c.orders c.cr) s.world).steps

def rollStep (finished : Cluster → Workload → Bool) (hash : Hash) (s : Rollouts) (c : Call) :
    Rollouts where
  world := (exec (serve c.env) (deployDruidCluster hash c.orders c.cr) s.world).state
  rolling := run (watch finished c.env) s.rolling (callSteps hash s c)

/-- The stored workload of the group has another hash than the call plans for it. -/
def outdated (hash : Hash) (s : Rollouts) (c : Call) (g : ServiceGroup) : Bool :=
  match (s.world.cluster.store (workloadKind g.spec)).find? (c.cr.ns, groupName c.cr g),
      plannedHash c.env hash c.orders c.cr s.world g with
  | some prev, some v => decide (v ≠ hashOf prev)
  | _, _ => false

/-- No group with an outdated workload comes before a group whose workload is still rolling. -/
def SparesRolling (hash : Hash) (s : Rollouts) (c : Call) : Prop :=
  (getNodeSpecsByOrder c.orders.groups c.cr).Pairwise fun g g' => outdated hash s c g = true →
    workloadOf c.cr g' ∉ refresh isDeployed (c.env.seen s.world) s.rolling

/-- Every workload the call updates, it updates while no other is rolling. -/
def Sequential (hash : Hash) (s : Rollouts) (c : Call) : Prop :=
  Meets (watch isDeployed c.env) (RollsAlone c.env) s.rolling (callSteps hash s c)

/-- Each call reads the one resource, with its one spec. -/
structure Fixed (m cr : Druid) : Prop where
  spec : cr.spec = m.spec
  ns : cr.ns = m.ns
  name : cr.name = m.name
  generation : 1 < cr.metadata.generation

/-- Others may change workloads in any way, their status above all, but not their hashes. -/
def KeepsHashes (env : Env) : Prop :=
  ∀ n c (k : Kind) key, k = .statefulSet ∨ k = .deployment →
    StoredSince (fun obj obj' : Obj k => hashOf obj = hashOf obj') key c (env.others n c)

/-- Everything that is rolling is the workload of a group. -/
def RollsGroups (m : Druid) (s : Rollouts) : Prop :=
  ∀ x ∈ s.rolling, ∃ g ∈ m.spec.nodes.items, g.spec.nodeType ∈ druidServicesOrder ∧
    x = workloadOf m g

section Call

variable {hash : Hash} {m : Druid} {s : Rollouts} {c : Call}

theorem Fixed.workloadOf_eq (hc : Fixed m c.cr) (g : ServiceGroup) :
    workloadOf c.cr g = workloadOf m g := by
  unfold workloadOf
  rw [hc.ns, groupName_congr hc.name]

theorem Fixed.mem_groups (hc : Fixed m c.cr) {g : ServiceGroup} :
    g ∈ getNodeSpecsByOrder c.orders.groups c.cr ↔
      g ∈ m.spec.nodes.items ∧ g.spec.nodeType ∈ druidServicesOrder := by
  rw [mem_getNodeSpecsByOrder, hc.spec]

theorem outdated_of_update (hkeeps : KeepsHashes c.env) {e : Step sig World}
    (he : e ∈ callSteps hash s c) (hk : k = .statefulSet ∨ k = .deployment)
    (hreq : e.req = .update k obj) :
    ∃ g ∈ getNodeSpecsByOrder c.orders.groups c.cr, IsWorkloadOf c.cr k obj.key g ∧
      outdated hash s c g = true := by
  obtain ⟨g, hg, hof, prev₀, prev, planned, sha, m', -, -, hprev₀, hsame, -, v, hv, hne⟩ :=
    workload_updated (R := fun obj obj' => hashOf obj = hashOf obj') hk (fun _ => rfl)
      (fun _ _ _ => Eq.trans) (fun n c key => hkeeps n c k key hk) he hreq
  refine ⟨g, hg, hof, ?_⟩
  obtain ⟨rfl, hkey⟩ := hof
  rw [← hkey] at hprev₀
  unfold outdated
  rw [hprev₀, hv]
  simpa [hsame] using hne

/-- A call keeps to the workloads of the groups. -/
theorem RollsGroups.step (hinv : RollsGroups m s) (hc : Fixed m c.cr) (hkeeps : KeepsHashes c.env) :
    RollsGroups m (rollStep isDeployed hash s c) := by
  intro x hx
  rcases mem_run_watch_cases hx with hx | ⟨e, he, hup, v, hwrite⟩
  · exact hinv x hx
  · obtain ⟨k, obj, hk, hreq⟩ := updatesWorkload_cases hup
    obtain ⟨g, hg, ⟨hkind, hkey⟩, -⟩ := outdated_of_update hkeeps he hk hreq
    obtain ⟨hnodes, htype⟩ := hc.mem_groups.1 hg
    refine ⟨g, hnodes, htype, ?_⟩
    rw [hreq] at hwrite
    cases hwrite
    rw [← hc.workloadOf_eq, workloadOf, hkind, hkey]

/-- **One call.** If no outdated workload comes before a rolling one, the call updates a workload
only while no other is rolling. -/
theorem sequential_call (hroll : m.spec.rollingDeploy = true) (hinv : RollsGroups m s)
    (hc : Fixed m c.cr) (hkeeps : KeepsHashes c.env) (hspares : SparesRolling hash s c) :
    Meets (watch isDeployed c.env) (RollsAlone c.env) s.rolling (callSteps hash s c) := by
  rw [meets_iff]
  intro before e after hsteps hup x hx
  obtain ⟨k, obj, hk, hreq⟩ := updatesWorkload_cases hup
  have he : e ∈ callSteps hash s c := hsteps ▸ by simp
  obtain ⟨hzero, i, g, hgi, hof, hpassed⟩ :=
    update_after_passed (by rw [hc.spec, hroll]) hc.generation hsteps hk hreq
  obtain ⟨hfold, hnow⟩ := mem_refresh.1 hx
  obtain ⟨hrolling, hnever⟩ := (mem_run_watch hzero).1 hfold
  obtain ⟨gx, hgx, htype, rfl⟩ := hinv x hrolling
  rw [← hc.workloadOf_eq] at hrolling hnever hnow ⊢
  obtain ⟨j, hj⟩ := List.getElem?_of_mem (hc.mem_groups.2 ⟨hgx, htype⟩)
  rcases Nat.lt_trichotomy j i with hlt | rfl | hgt
  · -- a group before the updated one was seen deployed
    obtain ⟨e', he', hdeployed⟩ := hpassed j hlt gx hj
    exact absurd ((hnever e' he').symm.trans hdeployed) Bool.false_ne_true
  · -- the group itself
    obtain rfl : g = gx := Option.some.inj (hgi.symm.trans hj)
    rw [hreq, workloadOf, hof.1, hof.2]
    rfl
  · -- a group after the updated one cannot be rolling, since the update was due
    exfalso
    obtain ⟨g', hg', hof', hout⟩ := outdated_of_update hkeeps he hk hreq
    obtain rfl : g' = g := by
      refine Table.eq_of_mem (mem_getNodeSpecsByOrder.1 hg').1
        (mem_getNodeSpecsByOrder.1 (List.mem_of_getElem? hgi)).1 ?_
      exact groupName_inj (congrArg Prod.snd (hof'.2.trans hof.2.symm))
    refine List.pairwise_iff_getElem.1 hspares i j (List.getElem?_eq_some_iff.1 hgi).1
      (List.getElem?_eq_some_iff.1 hj).1 hgt ?_ ?_
    · rwa [(List.getElem?_eq_some_iff.1 hgi).2]
    · rw [(List.getElem?_eq_some_iff.1 hj).2, mem_refresh]
      refine ⟨hrolling, ?_⟩
      -- the first request of the call is served in this state
      cases before with
      | nil => rwa [exec_steps_head hsteps] at hnow
      | cons b before =>
          have := hnever b List.mem_cons_self
          rwa [exec_steps_head hsteps] at this

end Call

/-- **One rollout at a time.** A resource with a rolling deploy and a fixed spec is reconciled over
and over, in any orders. If no reconcile finds an outdated workload before one that is still
rolling, a workload is only ever updated while no other one is rolling. -/
theorem rolling_sequential {hash : Hash} {m : Druid} (hroll : m.spec.rollingDeploy = true)
    {w : World} {calls : List Call}
    (hcalls : ∀ c ∈ calls, Fixed m c.cr ∧ KeepsHashes c.env)
    (hspares : Meets (rollStep isDeployed hash) (SparesRolling hash) ⟨w, []⟩ calls) :
    Meets (rollStep isDeployed hash) (Sequential hash) ⟨w, []⟩ calls := by
  refine hspares.ofInvariant (I := RollsGroups m) (fun s c hc hinv hspare => ?_)
    (by simp [RollsGroups])
  obtain ⟨hfixed, hkeeps⟩ := hcalls c hc
  exact ⟨hinv.step hfixed hkeeps, sequential_call hroll hinv hfixed hkeeps hspare⟩

instance (hash : Hash) (s : Rollouts) (c : Call) : Decidable (SparesRolling hash s c) :=
  inferInstanceAs (Decidable ((getNodeSpecsByOrder c.orders.groups c.cr).Pairwise fun g g' =>
    outdated hash s c g = true → workloadOf c.cr g' ∉ refresh isDeployed
      (c.env.seen s.world) s.rolling))

instance (env : Env) (rolling : List Workload) (e : Step sig World) :
    Decidable (RollsAlone env rolling e) :=
  inferInstanceAs (Decidable (updatesWorkload e.req = true →
    ∀ x ∈ refresh isDeployed (env.seen e.pre) rolling, e.req.write = some (.update, x)))

instance (hash : Hash) (s : Rollouts) (c : Call) : Decidable (Sequential hash s c) :=
  inferInstanceAs (Decidable (Meets (watch isDeployed c.env) (RollsAlone c.env) s.rolling
    (callSteps hash s c)))

/-- A new image for the two tiers, twice in the same order. -/
theorem rolling_sequential_tiers :
    Meets (rollStep isDeployed imageHash) (Sequential imageHash) ⟨tieredWorld, []⟩
      [{ cr := tieredCluster "v2" }, { cr := tieredCluster "v2" }] :=
  rolling_sequential (m := tieredCluster "v2") rfl
    (fun c hc => by
      obtain rfl : c = { cr := tieredCluster "v2" } := by simpa using hc
      exact ⟨⟨rfl, rfl, rfl, by decide⟩, fun n c k key _ obj hobj => ⟨obj, hobj, rfl⟩⟩)
    (by decide +kernel)

/-- The pods of the hot tier are being replaced. -/
def rollingHot (c : Cluster) : Cluster :=
  (c.patch .statefulSet ("d", "druid-c-hot") fun sts =>
    { sts with body := { sts.body with
      status := { sts.body.status with currentRevision := "1", updateRevision := "2" } } }).2

/-- The second call ranges over the tiers in the other order: it updates the cold tier while the
pods of the hot tier are being replaced. -/
theorem tiers_roll_together :
    ¬ Meets (rollStep isDeployed imageHash) (Sequential imageHash) ⟨tieredWorld, []⟩
      [{ cr := tieredCluster "v2" },
       { cr := tieredCluster "v2"
         env := { others := fun _ c => rollingHot c }
         orders := { groups := .reversed } }] := by
  decide +kernel

end DruidOperator.Controller
