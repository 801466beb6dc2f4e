import DruidOperator.Footprint

/-!
# The rollout status of a Deployment

Every branch of the loop over the conditions of a Deployment returns, so `isObjFullyDeployed` goes
by the first condition it meets. The API server promises no order of the conditions.

* `OrderFree` — what is asked of the result.
* `Agreeing` — all conditions say the same.
* `order_free_iff` — the first holds exactly under the second.
-/

namespace DruidOperator.Controller

open Interaction Prog Kube

/-- The Deployment with its conditions in another order. -/
def withConditions (obj : Obj .deployment) (conditions : List Condition) : Obj .deployment :=
  { obj with body := { obj.body with status := { obj.body.status with conditions := conditions } } }

/-- The rollout is not making progress. -/
def Stalled (condition : Condition) : Prop :=
  condition.type = "Progressing" ∧ condition.status ≠ .true

instance (condition : Condition) : Decidable (Stalled condition) :=
  inferInstanceAs (Decidable (_ ∧ _))

/-- The order of the conditions does not matter, a failure of replicas is an error, and a Deployment
is fully deployed only if its rollout is not stalled and every replica is ready. -/
structure OrderFree (obj : Obj .deployment) : Prop where
  order : ∀ conditions, conditions.Perm obj.body.status.conditions →
    fullyDeployed .deployment (withConditions obj conditions) = fullyDeployed .deployment obj
  failure : (∃ c ∈ obj.body.status.conditions, c.type = "ReplicaFailure") →
    (fullyDeployed .deployment obj).2.isSome
  done : fullyDeployed .deployment obj = (true, none) →
    (∀ c ∈ obj.body.status.conditions, ¬ Stalled c) ∧
      obj.body.status.readyReplicas = obj.body.status.replicas

/-- Two conditions say the same of a status. -/
structure Agree (status : DeploymentStatus) (a b : Condition) : Prop where
  type : a.type = "ReplicaFailure" ↔ b.type = "ReplicaFailure"
  reason : a.type = "ReplicaFailure" → a.reason = b.reason
  stalled : a.type ≠ "ReplicaFailure" → status.readyReplicas = status.replicas →
    (Stalled a ↔ Stalled b)

/-- All conditions say the same. -/
def Agreeing (status : DeploymentStatus) : Prop :=
  ∀ a ∈ status.conditions, ∀ b ∈ status.conditions, Agree status a b

/-! ## The first condition decides -/

/-- What the loop returns in the turn of a condition. -/
def verdict (status : DeploymentStatus) (condition : Condition) : Bool × Option Error :=
  deploymentDeployed { status with conditions := [condition] }

theorem verdict_eq (status : DeploymentStatus) (c : Condition) :
    verdict status c =
      if c.type = "ReplicaFailure" then (false, some ⟨c.reason, false⟩)
      else if Stalled c ∨ status.readyReplicas ≠ status.replicas then (false, none)
      else (true, none) := by
  unfold verdict deploymentDeployed Stalled
  by_cases hfailure : c.type = "ReplicaFailure"
  · simp [hfailure]
  · by_cases hready : status.readyReplicas = status.replicas <;> simp [hfailure, hready]

theorem verdict_eq_iff (status : DeploymentStatus) (a b : Condition) :
    verdict status a = verdict status b ↔ Agree status a b := by
  rw [verdict_eq, verdict_eq]
  by_cases ha : a.type = "ReplicaFailure" <;> by_cases hb : b.type = "ReplicaFailure"
  · simp only [ha, hb, if_true, Prod.mk.injEq, Option.some.injEq, Error.mk.injEq,
      true_and, and_true]
    exact ⟨fun h => ⟨by simp [ha, hb], fun _ => h, fun hne => absurd ha hne⟩, fun h => h.reason ha⟩
  · rw [if_pos ha, if_neg hb]
    refine ⟨fun h => ?_, fun h => absurd (h.type.1 ha) hb⟩
    split_ifs at h <;> cases h
  · rw [if_neg ha, if_pos hb]
    refine ⟨fun h => ?_, fun h => absurd (h.type.2 hb) ha⟩
    split_ifs at h <;> cases h
  · rw [if_neg ha, if_neg hb]
    by_cases hready : status.readyReplicas = status.replicas
    · have hiff : (if Stalled a ∨ status.readyReplicas ≠ status.replicas then (false, none)
          else (true, none) : Bool × Option Error) = (if Stalled b ∨ status.readyReplicas ≠
          status.replicas then (false, none) else (true, none)) ↔ (Stalled a ↔ Stalled b) := by
        by_cases hsa : Stalled a <;> by_cases hsb : Stalled b <;> simp [hsa, hsb, hready]
      rw [hiff]
      exact ⟨fun h => ⟨by simp [ha, hb], fun h' => absurd h' ha, fun _ _ => h⟩,
        fun h => h.stalled ha hready⟩
    · refine ⟨fun _ => ⟨by simp [ha, hb], fun h' => absurd h' ha, fun _ h' => absurd h' hready⟩,
        fun _ => ?_⟩
      rw [if_pos (.inr hready), if_pos (.inr hready)]

/-! ## The result -/

theorem isObjFullyDeployed_of_get {σ : Type} {h : Handler sig σ} {s : σ} {k : Kind} {obj : Obj k}
    {drd : Druid} {uniqueStr : String} (hget : (h (.get k drd.ns uniqueStr) s).1 = .ok obj) :
    (exec h (isObjFullyDeployed k uniqueStr drd) s).res = .ok (fullyDeployed k obj) := by
  rw [isObjFullyDeployed, getObj, call_bind, exec_call, hget]
  rfl

/-- Any condition may come first. -/
theorem exists_perm_cons {c : Condition} {conditions : List Condition} (hc : c ∈ conditions) :
    ∃ rest, (c :: rest).Perm conditions := by
  obtain ⟨before, after, rfl⟩ := List.append_of_mem hc
  exact ⟨before ++ after, List.perm_middle.symm⟩

theorem fullyDeployed_withConditions (obj : Obj .deployment) (c : Condition)
    (rest : List Condition) :
    fullyDeployed .deployment (withConditions obj (c :: rest)) = verdict obj.body.status c := rfl

theorem agreeing_of_order {obj : Obj .deployment} (h : ∀ conditions,
    conditions.Perm obj.body.status.conditions →
      fullyDeployed .deployment (withConditions obj conditions) = fullyDeployed .deployment obj) :
    Agreeing obj.body.status := by
  have hverdict : ∀ c ∈ obj.body.status.conditions,
      verdict obj.body.status c = fullyDeployed .deployment obj := by
    intro c hc
    obtain ⟨rest, hperm⟩ := exists_perm_cons hc
    rw [← fullyDeployed_withConditions obj c rest]
    exact h _ hperm
  intro a ha b hb
  rw [← verdict_eq_iff, hverdict a ha, hverdict b hb]

/-- Where the conditions agree, each of them says what is returned. -/
theorem Agreeing.verdict_eq {obj : Obj .deployment} (h : Agreeing obj.body.status) {c : Condition}
    (hc : c ∈ obj.body.status.conditions) :
    verdict obj.body.status c = fullyDeployed .deployment obj := by
  cases hconditions : obj.body.status.conditions with
  | nil => simp [hconditions] at hc
  | cons first rest =>
      have hfirst : first ∈ obj.body.status.conditions := by simp [hconditions]
      rw [(verdict_eq_iff _ _ _).2 (h c hc first hfirst),
        ← fullyDeployed_withConditions obj first rest, ← hconditions]
      rfl

theorem Agreeing.orderFree {obj : Obj .deployment} (h : Agreeing obj.body.status) :
    OrderFree obj := by
  refine ⟨fun conditions hperm => ?_, fun hfailure => ?_, fun hdone => ?_⟩
  · cases conditions with
    | nil =>
        have hnil : obj.body.status.conditions = [] := hperm.symm.eq_nil
        rw [← hnil]
        rfl
    | cons c rest =>
        rw [fullyDeployed_withConditions]
        exact h.verdict_eq (hperm.mem_iff.1 List.mem_cons_self)
  · obtain ⟨c, hc, htype⟩ := hfailure
    rw [← h.verdict_eq hc, Controller.verdict_eq, if_pos htype]
    rfl
  · have hcase : ∀ c ∈ obj.body.status.conditions,
        ¬ (Stalled c ∨ obj.body.status.readyReplicas ≠ obj.body.status.replicas) := by
      intro c hc hbad
      rw [← h.verdict_eq hc, Controller.verdict_eq, if_pos hbad] at hdone
      split_ifs at hdone <;> cases hdone
    refine ⟨fun c hc hstalled => hcase c hc (.inl hstalled), ?_⟩
    -- without a condition nothing is fully deployed
    cases hconditions : obj.body.status.conditions with
    | nil =>
        rw [fullyDeployed, deploymentDeployed, hconditions] at hdone
        cases hdone
    | cons c rest =>
        by_contra hready
        exact hcase c (by simp [hconditions]) (.inr hready)

/-- **The rollout status of a Deployment.** It does not depend on the order of the conditions,
reports every failure of replicas, and is done only without a stalled rollout and with all replicas
ready, exactly if all conditions say the same. -/
theorem order_free_iff (obj : Obj .deployment) (drd : Druid) (uniqueStr : String) :
    (∀ {σ : Type} (h : Handler sig σ) (s : σ),
      (h (.get .deployment drd.ns uniqueStr) s).1 = .ok obj →
      (exec h (isObjFullyDeployed .deployment uniqueStr drd) s).res =
        .ok (fullyDeployed .deployment obj)) ∧
    (OrderFree obj ↔ Agreeing obj.body.status) :=
  ⟨fun _ _ hget => isObjFullyDeployed_of_get hget,
    fun h => agreeing_of_order h.order, fun h => h.orderFree⟩

/-- A broker with one replica, which is ready. -/
def readyBroker (conditions : List Condition) : Obj .deployment where
  metadata := { name := "druid-c-b", ns := "d" }
  body := {
    spec := {
      selector := ∅
      replicas := 1
      template := makePodTemplate { nodeType := .broker, druidPort := 8082, replicas := 1 }
        { metadata := { name := "c", ns := "d" }, body := { spec := { image := "v1" } } } ∅
          "druid-c-b" ""
      strategyType := "RollingUpdate"
      rollingUpdate := {} }
    status := { replicas := 1, readyReplicas := 1, conditions := conditions } }

def availableCondition : Condition := { type := "Available", status := .true }

def failureCondition : Condition :=
  { type := "ReplicaFailure", status := .true, reason := "FailedCreate" }

/-- The failure counts only where it comes first. -/
theorem failure_overlooked :
    fullyDeployed .deployment (readyBroker [availableCondition, failureCondition]) =
      (true, none) ∧
    fullyDeployed .deployment (readyBroker [failureCondition, availableCondition]) =
      (false, some ⟨"FailedCreate", false⟩) ∧
    ¬ OrderFree (readyBroker [availableCondition, failureCondition]) := by
  refine ⟨rfl, rfl, fun h => ?_⟩
  have hfailure := h.failure ⟨failureCondition, by simp [readyBroker], rfl⟩
  exact absurd hfailure (by decide)

end DruidOperator.Controller
