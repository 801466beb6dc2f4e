import DruidOperator.IgnoredClusters
import DruidOperator.Lib.Rely

/-!
# Rules for the workers of a manager

Several workers reconcile at once, and users and other controllers write in between. What can be
said about all interleavings is said with a condition on the cluster and one on what each worker has
still to do. This file gives the rule: it is enough to look at one request of one worker, and at one
action of a user.

* `Discipline` — what has to be shown about one request.
* `Discipline.meets`, `Discipline.meets_kept` — it then holds of every request of every run.
-/

namespace DruidOperator.Controller.Manager

open Interaction Prog Kube Runs

/-! ## One request of a worker -/

/-- The outside of one request: what others do are actions of their own. -/
def workerEnv (clock : Int) (fault : Option Fault) : Env where
  clock := clock
  fault := fun _ => fault

theorem workerEnv_alone (clock : Int) (fault : Option Fault) : (workerEnv clock fault).Alone :=
  fun _ _ => rfl

/-- What one request of a worker is answered. -/
def answer (clock : Int) (fault : Option Fault) (req : Request) (c : Cluster) : Response req :=
  (serve (workerEnv clock fault) req ⟨c, 0⟩).1

/-- The cluster after one request of a worker. -/
def afterRequest (clock : Int) (fault : Option Fault) (req : Request) (c : Cluster) : Cluster :=
  (serve (workerEnv clock fault) req ⟨c, 0⟩).2.cluster

theorem afterRequest_cases (clock : Int) (fault : Option Fault) (req : Request) (c : Cluster) :
    afterRequest clock fault req c = (perform clock req c).2 ∨
      afterRequest clock fault req c = c := by
  rcases serve_state (workerEnv clock fault) req ⟨c, 0⟩ with hstate | hstate
  · exact .inl (congrArg World.cluster hstate)
  · exact .inr (congrArg World.cluster hstate)

/-- **Stored resources after a request.** What holds of every stored spec, and of the one an update
sends, holds afterwards. -/
theorem stored_perform {P : String × String → DruidSpec → Prop} {clock : Int} {req : Request}
    {c : Cluster} (hcreate : ∀ obj, req ≠ .create .druid obj)
    (hupdate : ∀ obj, req = .update .druid obj → P obj.key (sentSpec obj.spec))
    (hc : ∀ cr m, (c.store .druid).find? cr = some m → P cr m.spec)
    {cr : String × String} {m : Druid}
    (h : ((perform clock req c).2.store .druid).find? cr = some m) : P cr m.spec := by
  have heffect := perform_effect clock req c .druid
  generalize (perform clock req c).2 = c' at heffect h
  cases heffect with
  | none hstore hversion => exact hc cr m (hstore ▸ h)
  | created hnew => exact absurd rfl (hcreate _)
  | deleted =>
      rw [Cluster.modify_store_self, Table.find?_erase] at h
      split_ifs at h
      exact hc cr m h
  | @updated _ obj stored hstored hversion =>
      rw [Cluster.modify_store_self] at h
      rcases Cluster.find?_put_cases h with ⟨-, hold⟩ | ⟨rfl, rfl⟩
      · exact hc cr m hold
      · exact hupdate obj rfl
  | resource stored hwrite hstored =>
      rw [Cluster.modify_store_self] at h
      rcases Cluster.find?_put_cases h with ⟨-, hold⟩ | ⟨rfl, rfl⟩
      · exact hc cr m hold
      · exact hc _ stored hstored

theorem find?_deleteCR_cases {c : Cluster} {cr key : String × String} {t : Int} {m : Druid}
    (h : ((deleteCR c cr t).store .druid).find? key = some m) :
    ∃ stored, (c.store .druid).find? key = some stored ∧ m.spec = stored.spec := by
  rcases deleteCR_cases c cr t with heq | ⟨stored, hstored, -, heq⟩ <;> rw [heq] at h
  · exact ⟨m, h, rfl⟩
  · rw [Cluster.modify_store_self] at h
    rcases Cluster.find?_put_cases h with ⟨-, hold⟩ | ⟨rfl, rfl⟩
    · exact ⟨m, hold, rfl⟩
    · exact ⟨stored, hstored, rfl⟩

/-- The cluster after an action of a user or of another controller. -/
def userCluster (c : Cluster) : Action → Option Cluster
  | .store cr => some (storeCR c cr)
  | .delete key t => some (deleteCR c key t)
  | .outside change => some { change c with
      store := Function.update (change c).store .druid (c.store .druid) }
  | _ => none

/-! ## The rule -/

/-- **What has to be shown.** In a cluster with `C`, what a worker has still to do meets `W`, if it
decodes what it is answered as `D` says; others may change the cluster as `R` says, and `G` is what
is learnt about a request. -/
structure Discipline (hash : Hash) (D : Set Decoding) (C : Cluster → Prop)
    (R : Cluster → Cluster → Prop) (W : Cluster → String × String → Code Result → Prop)
    (G : Cluster → String × String → Request → Prop) : Prop where
  start : ∀ c key o dynamicConfigs, ∀ decoding ∈ D, C c →
    W c key (reconcile hash o dynamicConfigs key decoding)
  request : ∀ c key req rest, C c → W c key (.call req rest) → G c key req
  serve : ∀ c key req rest clock fault, C c → W c key (.call req rest) →
    R c (afterRequest clock fault req c) ∧
      W (afterRequest clock fault req c) key (rest (answer clock fault req c))
  stable : ∀ c c' key rest, C c → R c c' → W c key rest → W c' key rest

/-- The action starts no worker that decodes in another way. -/
def Action.DecodesIn (D : Set Decoding) : Action → Prop
  | .start _ _ decoding _ => decoding ∈ D
  | _ => True

theorem Action.decodesIn_univ (a : Action) : a.DecodesIn Set.univ := by
  cases a <;> trivial

/-- A worker that deploys the tiers goes on with what it read. -/
theorem reconciled_same (n : ℕ) {a : Action}
    (ha : a ∈ .store (tieredCluster "v1") :: reconciled n) :
    a.DecodesIn {.same} := by
  rcases List.mem_cons.1 ha with rfl | ha
  · trivial
  · rcases List.mem_cons.1 ha with rfl | ha
    · rfl
    · rw [List.eq_of_mem_replicate ha]
      trivial

/-- Users and other controllers change the cluster as the workers expect. -/
def UserChanges (D : Set Decoding) (R : Cluster → Cluster → Prop) (s : State) (a : Action) : Prop :=
  a.DecodesIn D ∧ ∀ c' ∈ userCluster s.cluster a, R s.cluster c'

/-- They also keep the condition on the cluster. -/
def UserKeeps (D : Set Decoding) (C : Cluster → Prop) (R : Cluster → Cluster → Prop) (s : State)
    (a : Action) : Prop :=
  a.DecodesIn D ∧ (C s.cluster → ∀ c' ∈ userCluster s.cluster a, C c' ∧ R s.cluster c')

/-- The request the action sends, if it is one of a worker. -/
def Requests (G : Cluster → String × String → Request → Prop) (s : State) : Action → Prop
  | .advance i _ _ => ∀ r ∈ s.running[i]?, ∀ req ∈ r.next, G s.cluster r.key req
  | _ => True

section Rule

variable {hash : Hash} {denyList : List String} {D : Set Decoding} {C : Cluster → Prop}
  {R : Cluster → Cluster → Prop} {W : Cluster → String × String → Code Result → Prop}
  {G : Cluster → String × String → Request → Prop} {s : State}

@[simp] theorem State.boot_cluster : (s.boot denyList).cluster = s.cluster := by
  unfold State.boot
  split_ifs <;> rfl

@[simp] theorem State.boot_running : (s.boot denyList).running = s.running := by
  unfold State.boot
  split_ifs <;> rfl

theorem advance_cluster (clock : Int) (fault : Option Fault) (i : ℕ) (r : Reconciling) :
    (advance denyList clock fault s i r).cluster =
      match r.next with
      | some req => afterRequest clock fault req s.cluster
      | none => s.cluster := by
  unfold advance Reconciling.next
  split
  · next hrest => rw [hrest]; rfl
  · next hrest => rw [hrest]; rfl
  · next hrest => rw [hrest]; rfl
  · next hrest => rw [hrest]; rfl
  · next req rest hrest =>
      rw [hrest]
      dsimp only
      split <;> rfl

theorem advance_running {clock : Int} {fault : Option Fault} {i : ℕ} {r r' : Reconciling}
    (hr' : r' ∈ (advance denyList clock fault s i r).running) :
    (∃ r₀ ∈ s.running, r'.key = r₀.key ∧ r'.rest = r₀.rest) ∨
      ∃ req rest, r.rest = .call req rest ∧ r'.key = r.key ∧
        r'.rest = rest (answer clock fault req s.cluster) := by
  unfold advance at hr'
  split at hr'
  · exact .inl ⟨r', List.mem_of_mem_eraseIdx hr', rfl, rfl⟩
  · exact .inl ⟨r', List.mem_of_mem_eraseIdx hr', rfl, rfl⟩
  · exact .inl ⟨r', List.mem_of_mem_eraseIdx hr', rfl, rfl⟩
  · cases hr'
  · next req rest hrest =>
      -- the reconcile that goes on takes the place it had
      have hset : ∀ r₁ ∈ s.running.set i { r with rest := rest (answer clock fault req s.cluster) },
          (∃ r₀ ∈ s.running, r₁.key = r₀.key ∧ r₁.rest = r₀.rest) ∨
            r₁.key = r.key ∧ r₁.rest = rest (answer clock fault req s.cluster) := by
        intro r₁ hr₁
        rcases List.mem_or_eq_of_mem_set hr₁ with hold | rfl
        · exact .inl ⟨r₁, hold, rfl, rfl⟩
        · exact .inr ⟨rfl, rfl⟩
      dsimp only at hr'
      split at hr'
      · obtain ⟨r₁, hr₁, rfl⟩ := List.mem_map.1 hr'
        exact (hset r₁ hr₁).imp_right fun h => ⟨req, rest, hrest, h⟩
      · exact (hset r' hr').imp_right fun h => ⟨req, rest, hrest, h⟩

/-- What a reconcile has still to do keeps after a change that the workers expect. -/
theorem Discipline.kept (hd : Discipline hash D C R W G) (hC : C s.cluster)
    (hs : ∀ r ∈ s.running, W s.cluster r.key r.rest) {c' : Cluster} (hR : R s.cluster c')
    {r : Reconciling} (hr : ∃ r₀ ∈ s.running, r.key = r₀.key ∧ r.rest = r₀.rest) :
    W c' r.key r.rest := by
  obtain ⟨r₀, hr₀, hkey, hrest⟩ := hr
  rw [hkey, hrest]
  exact hd.stable _ _ _ _ hC hR (hs r₀ hr₀)

theorem Discipline.wrote (hd : Discipline hash D C R W G) (hC : C s.cluster)
    (hs : ∀ r ∈ s.running, W s.cluster r.key r.rest) {after : Cluster} (key : String × String)
    (hR : R s.cluster after) : ∀ r ∈ (s.wrote denyList after key).running,
      W after r.key r.rest := by
  intro r hr
  obtain ⟨r₀, hr₀, rfl⟩ := List.mem_map.1 hr
  exact hd.kept hC hs hR ⟨r₀, hr₀, rfl, rfl⟩

theorem Discipline.advance (hd : Discipline hash D C R W G) (hC : C s.cluster)
    (hs : ∀ r ∈ s.running, W s.cluster r.key r.rest) {r : Reconciling} (hr : r ∈ s.running)
    (clock : Int) (fault : Option Fault) (i : ℕ) :
    ∀ r' ∈ (advance denyList clock fault s i r).running,
      W (advance denyList clock fault s i r).cluster r'.key r'.rest := by
  intro r' hr'
  have hW := hs r hr
  rw [advance_cluster]
  cases hnext : r.next with
  | none =>
      rcases advance_running hr' with ⟨r₀, hr₀, hkey, heq⟩ | ⟨req, rest, hcall, -⟩
      · rw [hkey, heq]
        exact hs r₀ hr₀
      · rw [Reconciling.next, hcall] at hnext
        cases hnext
  | some req =>
      obtain ⟨rest, hcall⟩ := r.next_eq_some hnext
      rw [hcall] at hW
      obtain ⟨hR, hrest⟩ := hd.serve _ _ _ _ clock fault hC hW
      rcases advance_running hr' with hold | ⟨req', rest', hcall', hkey, heq⟩
      · exact hd.kept hC hs hR hold
      · rw [hcall] at hcall'
        cases hcall'
        rw [hkey, heq]
        exact hrest

/-- **One step.** -/
theorem Discipline.step (hd : Discipline hash D C R W G) (hC : C s.cluster)
    (hs : ∀ r ∈ s.running, W s.cluster r.key r.rest) {a : Action} (huser : UserChanges D R s a) :
    (∀ r ∈ (step hash denyList s a).running,
      W (step hash denyList s a).cluster r.key r.rest) ∧ Requests G s a := by
  cases a with
  | store cr => exact ⟨hd.wrote hC hs _ (huser.2 _ rfl), trivial⟩
  | delete key t => exact ⟨hd.wrote hC hs _ (huser.2 _ rfl), trivial⟩
  | outside change =>
      exact ⟨fun r hr => hd.kept hC hs (huser.2 _ rfl) ⟨r, hr, rfl, rfl⟩, trivial⟩
  | relist key => exact ⟨hs, trivial⟩
  | start key o decoding dynamicConfigs =>
      refine ⟨?_, trivial⟩
      simp only [Manager.step]
      split_ifs
      · intro r hr
        rcases List.mem_append.1 hr with hold | hnew
        · exact hs r hold
        · rw [List.mem_singleton.1 hnew]
          exact hd.start _ _ _ _ _ huser.1 hC
      · exact hs
  | advance i clock fault =>
      simp only [Manager.step]
      cases hi : s.running[i]? with
      | none =>
          refine ⟨hs, fun r hr => ?_⟩
          rw [hi] at hr
          cases hr
      | some r =>
          have hr := List.mem_of_getElem? hi
          refine ⟨hd.advance hC hs hr clock fault i, fun r' hr' req hnext => ?_⟩
          rw [hi] at hr'
          cases hr'
          obtain ⟨rest, hcall⟩ := r.next_eq_some hnext
          exact hd.request _ _ _ _ hC (hcall ▸ hs r hr)
  | kill => exact ⟨fun r hr => absurd hr List.not_mem_nil, trivial⟩
  | boot =>
      refine ⟨fun r hr => ?_, trivial⟩
      simp only [Manager.step, State.boot_cluster, State.boot_running] at hr ⊢
      exact hs r hr

/-- The condition on the cluster after a step, where the requests of the workers keep it. -/
theorem step_kept (hkept : ∀ c key req rest clock fault, C c → W c key (.call req rest) →
      C (afterRequest clock fault req c)) (hC : C s.cluster)
    (hs : ∀ r ∈ s.running, W s.cluster r.key r.rest) {a : Action} (huser : UserKeeps D C R s a) :
    C (Manager.step hash denyList s a).cluster := by
  cases a with
  | store cr => exact (huser.2 hC _ rfl).1
  | delete key t => exact (huser.2 hC _ rfl).1
  | outside change => exact (huser.2 hC _ rfl).1
  | relist key => exact hC
  | start key o decoding dynamicConfigs =>
      simp only [Manager.step]
      split_ifs <;> exact hC
  | kill => exact hC
  | boot => rwa [Manager.step, State.boot_cluster]
  | advance i clock fault =>
      simp only [Manager.step]
      cases hi : s.running[i]? with
      | none => exact hC
      | some r =>
          rw [advance_cluster]
          cases hnext : r.next with
          | none => exact hC
          | some req =>
              obtain ⟨rest, hcall⟩ := r.next_eq_some hnext
              exact hkept _ _ _ _ clock fault hC (hcall ▸ hs r (List.mem_of_getElem? hi))

/-- **All interleavings**, as long as the cluster meets the condition: every request of every worker
is as it should be. -/
theorem Discipline.meets (hd : Discipline hash D C R W G) {c : Cluster} {acts : List Action}
    (hacts : Meets (Manager.step hash denyList) (fun s a => C s.cluster ∧ UserChanges D R s a)
      { cluster := c } acts) :
    Meets (Manager.step hash denyList) (Requests G) { cluster := c } acts := by
  refine hacts.ofInvariant (I := fun s => ∀ r ∈ s.running, W s.cluster r.key r.rest)
    (fun s a _ hs hact => ?_) fun _ h => absurd h List.not_mem_nil
  exact hd.step hact.1 hs hact.2

/-- **All interleavings**, where nobody breaks the condition on the cluster. -/
theorem Discipline.meets_kept (hd : Discipline hash D C R W G)
    (hkept : ∀ c key req rest clock fault, C c → W c key (.call req rest) →
      C (afterRequest clock fault req c)) {c : Cluster} (hc : C c) {acts : List Action}
    (huser : Meets (Manager.step hash denyList) (UserKeeps D C R) { cluster := c } acts) :
    Meets (Manager.step hash denyList) (fun s a => C s.cluster ∧ Requests G s a) { cluster := c }
      acts := by
  refine huser.ofInvariant
    (I := fun s => C s.cluster ∧ ∀ r ∈ s.running, W s.cluster r.key r.rest)
    (fun s a _ hs hkeeps => ?_) ⟨hc, fun _ h => absurd h List.not_mem_nil⟩
  have hstep : (∀ r ∈ (Manager.step hash denyList s a).running, W _ r.key r.rest) ∧
      Requests G s a :=
    hd.step hs.1 hs.2 ⟨hkeeps.1, fun c' hc' => (hkeeps.2 hs.1 c' hc').2⟩
  exact ⟨⟨step_kept hkept hs.1 hs.2 hkeeps, hstep.1⟩, hs.1, hstep.2⟩

end Rule

end DruidOperator.Controller.Manager
