import DruidOperator.Quiescence
import DruidOperator.RollingRuns
import DruidOperator.ValidSpecs

/-!
# Calls that fail on the way

A call of `deployDruidCluster` may end after any of its requests, and a request that failed may have
taken effect. This file says what is kept all the same: what is stored as the resource asks for it
stays so, and nothing is written that the resource does not ask for.

* `Wanted` — the objects a resource asks for, one for a name.
* `Grown` — what may become of the objects of one kind.
* `Building` — what a call has made of the cluster it started from, at any of its requests.
* `Deployable.building` — it holds at the end of every call, however that comes.
-/

namespace DruidOperator.Controller

open Interaction Prog Kube Runs

/-! ## Views that grow -/

/-- The objects a resource asks for, in its namespace, of each kind one for a name. -/
structure Wanted (m : Druid) where
  objs : (k : Kind) → List (Obj k)
  ns : ∀ k ∈ groupKinds, ∀ obj ∈ objs k, obj.ns = m.ns
  nodup : ∀ k ∈ groupKinds, ((objs k).map Object.name).Nodup

/-- What became of the object of this name. -/
inductive Became {k : Kind} (objs : List (Obj k)) (v v' : View) (name : String) : Prop where
  | kept (heq : v' name = v name)
  | sent (obj : Obj k) (hobj : obj ∈ objs) (hname : obj.name = name)
      (hsent : v' name = some (sentView obj))
  | gone (hnone : v' name = none) (hobjs : ∀ obj ∈ objs, obj.name ≠ name)

/-- Every object is as it was, as it is wanted, or gone, where none of its name is wanted. -/
def Grown {k : Kind} (objs : List (Obj k)) (v v' : View) : Prop := ∀ name, Became objs v v' name

section Grown

variable {k : Kind} {objs : List (Obj k)} {v v' v'' : View}

theorem Grown.refl (objs : List (Obj k)) (v : View) : Grown objs v v := fun _ => .kept rfl

theorem Grown.trans (h : Grown objs v v') (h' : Grown objs v' v'') : Grown objs v v'' := by
  intro name
  cases h' name with
  | kept heq =>
      cases h name with
      | kept heq' => exact .kept (heq.trans heq')
      | sent obj hobj hname hsent => exact .sent obj hobj hname (heq.trans hsent)
      | gone hnone hobjs => exact .gone (heq.trans hnone) hobjs
  | sent obj hobj hname hsent => exact .sent obj hobj hname hsent
  | gone hnone hobjs => exact .gone hnone hobjs

theorem Grown.alive (h : Grown objs v v') (hv : Alive v) : Alive v' := by
  intro name s hs
  cases h name with
  | kept heq => exact hv name s (heq ▸ hs)
  | sent obj hobj hname hsent =>
      rw [hsent] at hs
      cases hs
      rfl
  | gone hnone hobjs =>
      rw [hnone] at hs
      cases hs

/-- One object that is stored as it is sent. -/
theorem Grown.of_update {obj : Obj k} (hobj : obj ∈ objs) :
    Grown objs v (Function.update v obj.name (some (sentView obj))) := by
  intro name
  by_cases hname : name = obj.name
  · subst hname
    exact .sent obj hobj rfl (Function.update_self ..)
  · exact .kept (Function.update_of_ne hname ..)

theorem Placed.grown {obj : Obj k} (h : Placed obj v v') (hobj : obj ∈ objs) : Grown objs v v' := by
  cases h with
  | sent => exact .of_update hobj
  | kept s hs hhash => exact .refl _ _

/-- **What stands keeps standing.** -/
theorem Stands.grown {m : Druid} {D : Wanted m} (hk : k ∈ groupKinds) {c c' : Cluster} {obj : Obj k}
    (hobj : obj ∈ D.objs k) (h : Stands m c obj)
    (hgrown : Grown (D.objs k) (viewOf m.ns c k) (viewOf m.ns c' k)) : Stands m c' obj := by
  obtain ⟨hns, s, hs, hhash⟩ := h
  refine ⟨hns, ?_⟩
  cases hgrown obj.name with
  | kept heq => exact ⟨s, heq.trans hs, hhash⟩
  | sent obj' hobj' hname hsent =>
      obtain rfl := List.inj_on_of_nodup_map (D.nodup k hk) hobj' hobj hname
      exact ⟨_, hsent, rfl⟩
  | gone hnone hobjs => exact absurd rfl (hobjs obj hobj)

end Grown

/-! ## Requests that build -/

/-- The request stores only what is wanted, and deletes nothing of a name that is wanted. -/
def Builds {m : Druid} (D : Wanted m) : Request → Prop
  | .create k obj => k ∈ groupKinds ∧ obj ∈ D.objs k
  | .update k obj =>
      k ∈ groupKinds ∧ ∃ planned ∈ D.objs k, ∃ prev, obj = sent (updaterOf k) planned prev
  | .delete k obj _ => k ≠ .druid ∧ (k ∈ groupKinds → ∀ planned ∈ D.objs k, planned.name ≠ obj.name)
  | _ => True

section Requests

variable {m : Druid} {D : Wanted m} {r : Request} {c : Cluster} {k : Kind} (clock : Int)

theorem sentBy_key {planned prev : Obj k} : (sent (updaterOf k) planned prev).key = planned.key :=
  updaterOf_key ..

theorem fullyDeployed_updated (obj stored : Obj k) (version : ℕ) :
    fullyDeployed k ((Kube.updated k stored obj).withResourceVersion version) =
      fullyDeployed k stored := by
  cases k <;> rfl

theorem find?_updated {stored obj : Obj k} (hstored : (c.store k).find? obj.key = some stored)
    (halive : stored.metadata.deletionTimestamp = none) :
    ((c.modify k (Cluster.put k (Kube.updated k stored obj))).store k).find? obj.key =
      some ((Kube.updated k stored obj).withResourceVersion (c.version + 1)) := by
  rw [Cluster.modify_store_self]
  refine Cluster.find?_put_self (k := k) (Kube.updated k stored obj) _ (fun h => ?_) ?_
  · have hnone : (Kube.updated k stored obj).metadata.deletionTimestamp = none := halive
    rw [hnone] at h
    cases h.1
  · exact fun hnone => Option.some_ne_none _ (hstored.symm.trans hnone)

theorem alive_stored {obj stored : Obj k} (halive : Alive (viewOf m.ns c k)) (hns : obj.ns = m.ns)
    (hstored : (c.store k).find? obj.key = some stored) :
    stored.metadata.deletionTimestamp = none := by
  refine halive obj.name (shown stored) ?_
  rw [viewOf, ← hns]
  exact congrArg (Option.map shown) hstored

/-- **Views grow.** -/
theorem Builds.grown (hr : Builds D r) (hk : k ∈ groupKinds) (halive : Alive (viewOf m.ns c k)) :
    Grown (D.objs k) (viewOf m.ns c k) (viewOf m.ns (perform clock r c).2 k) := by
  have heffect := perform_effect clock r c k
  generalize (perform clock r c).2 = c' at heffect ⊢
  cases heffect with
  | none hstore hversion =>
      rw [viewOf_congr hstore]
      exact .refl _ _
  | resource stored hwrite hstored => exact absurd hk (by decide)
  | @claim base obj stored hstored =>
      have hcalm : Env.Calm { clock := clock } := ⟨fun _ _ => rfl, fun _ => rfl⟩
      have hview := viewOf_patchClaim hcalm (w := ⟨c, 0⟩) base obj halive
      simp only [serve_calm hcalm, perform, Cluster.patch, hstored] at hview
      rw [hview]
      exact .refl _ _
  | @created _ obj hnew =>
      have happlied : Applied (fun _ _ => true) (updaterOf k) obj c .resourceCreated _ :=
        .created hnew
      exact (placed_of_applied (D.ns k hk obj hr.2) halive happlied).grown hr.2
  | @updated _ _ stored hstored hversion =>
      obtain ⟨-, planned, hplanned, prev, rfl⟩ := hr
      have hns := D.ns k hk planned hplanned
      have hprev := alive_stored halive ((congrArg Prod.fst sentBy_key).trans hns) hstored
      have hview : viewOf m.ns (c.modify k (Cluster.put k (Kube.updated k stored
          (sent (updaterOf k) planned prev)))) k =
          Function.update (viewOf m.ns c k) planned.name (some (sentView planned)) := by
        funext name
        unfold viewOf
        by_cases hname : name = planned.name
        · have hkey : (m.ns, name) = (sent (updaterOf k) planned prev).key := by
            rw [sentBy_key, hname, ← hns]
          rw [hkey, find?_updated hstored hprev, Option.map_some, shown_updated, hprev, sentView,
            hname, Function.update_self]
        · rw [Function.update_of_ne hname, Cluster.modify_store_self, Cluster.find?_put_of_ne]
          intro heq
          have hkey : (Kube.updated k stored (sent (updaterOf k) planned prev)).key = planned.key :=
            sentBy_key
          exact hname (congrArg Prod.snd (heq.trans hkey))
      rw [hview]
      exact .of_update hplanned
  | @deleted _ obj orphan =>
      intro name
      by_cases hkey : obj.key = (m.ns, name)
      · refine .gone ?_ fun planned hplanned heq => hr.2 hk planned hplanned ?_
        · rw [viewOf, Cluster.modify_store_self, Table.find?_erase, if_pos hkey, Option.map_none]
        · exact heq.trans (congrArg Prod.snd hkey).symm
      · refine .kept ?_
        rw [viewOf, Cluster.modify_store_self, Table.find?_erase, if_neg hkey, viewOf]

theorem key_of_write {v v' : Verb} {key key' : String × String}
    (h : some (v, k, key) = some (v', k, key')) : key = key' :=
  congrArg (fun write => write.2.2) (Option.some.inj h)

theorem deployedIn_eq_true {key : String × String} :
    deployedIn c k key = true ↔
      ∃ obj, (c.store k).find? key = some obj ∧ (fullyDeployed k obj).1 = true := by
  unfold deployedIn
  cases (c.store k).find? key <;> simp

/-- **A wanted workload that is deployed stays so**: an update leaves its status. -/
theorem Builds.deployedIn (hr : Builds D r) (hk : k ∈ groupKinds) (halive : Alive (viewOf m.ns c k))
    {obj : Obj k} (hobj : obj ∈ D.objs k) (h : deployedIn c k obj.key = true) :
    deployedIn (perform clock r c).2 k obj.key = true := by
  obtain ⟨stored, hstored, hdeployed⟩ := deployedIn_eq_true.1 h
  by_cases hwrites : ∀ v, r.write ≠ some (v, k, obj.key)
  · exact deployedIn_eq_true.2 ⟨stored, (perform_frame hwrites).trans hstored, hdeployed⟩
  simp only [not_forall, not_not] at hwrites
  obtain ⟨v, hwrite⟩ := hwrites
  have heffect := perform_effect clock r c k
  generalize (perform clock r c).2 = c' at heffect ⊢
  cases heffect with
  | none hstore hversion => exact deployedIn_eq_true.2 ⟨stored, hstore ▸ hstored, hdeployed⟩
  | resource _ _ _ => cases hdeployed
  | claim _ => cases hdeployed
  | created hnew =>
      rw [key_of_write hwrite, hstored] at hnew
      cases hnew
  | @updated _ obj' prev hprev hversion =>
      have hkey := key_of_write hwrite
      obtain rfl : prev = stored := Option.some.inj (hprev.symm.trans (hkey ▸ hstored))
      refine deployedIn_eq_true.2 ⟨_, hkey ▸ find?_updated hprev
        (alive_stored halive (D.ns k hk obj hobj) hstored), ?_⟩
      rw [fullyDeployed_updated]
      exact hdeployed
  | deleted => exact absurd (congrArg Prod.snd (key_of_write hwrite)).symm (hr.2 hk obj hobj)

/-- The stored resource is `m`, but for its bookkeeping. -/
def KeptIn (m : Druid) (c : Cluster) : Prop :=
  ∃ drd, readCR m.key c = some drd ∧ Bookkept m drd

/-- **The resource keeps all but its bookkeeping.** -/
theorem Builds.keptIn (hr : Builds D r) (hstays : m.metadata.deletionTimestamp = none)
    (h : KeptIn m c) : KeptIn m (perform clock r c).2 := by
  obtain ⟨drd, hread, finalizers, version, status, rfl⟩ := h
  have hcreate : ∀ obj, r ≠ .create .druid obj := by
    rintro obj rfl
    exact absurd hr.1 (by decide)
  have hupdate : ∀ obj, r ≠ .update .druid obj := by
    rintro obj rfl
    exact absurd hr.1 (by decide)
  have hdelete : ∀ obj orphan, r ≠ .delete .druid obj orphan := by
    rintro obj orphan rfl
    exact hr.1 rfl
  obtain ⟨_, _, _, hkept⟩ :=
    readCR_perform clock hcreate hupdate hdelete hstays ⟨_, _, _, hread⟩
  exact ⟨_, hkept, _, _, _, rfl⟩

end Requests

/-! ## What a call has made of the cluster -/

/-- The cluster as requests that build make it from `c`. -/
structure Building {m : Druid} (D : Wanted m) (c : Cluster) (w : World) : Prop where
  views : ∀ k ∈ groupKinds, Grown (D.objs k) (viewOf m.ns c k) (viewOf m.ns w.cluster k)
  alive : ∀ k ∈ groupKinds, Alive (viewOf m.ns w.cluster k)
  deployed : ∀ k ∈ groupKinds, ∀ obj ∈ D.objs k, deployedIn c k obj.key = true →
    deployedIn w.cluster k obj.key = true
  resource : KeptIn m w.cluster

section Building

variable {m : Druid} {D : Wanted m} {c : Cluster} {w : World} {env : Env}

theorem Building.start (halive : ∀ k ∈ groupKinds, Alive (viewOf m.ns w.cluster k))
    (hm : KeptIn m w.cluster) : Building D w.cluster w where
  views _ _ := .refl _ _
  alive := halive
  deployed _ _ _ _ h := h
  resource := hm

theorem Building.recount (h : Building D c w) (n : ℕ) : Building D c ⟨w.cluster, n⟩ :=
  ⟨h.views, h.alive, h.deployed, h.resource⟩

/-- **One request**, whether it fails or not. -/
theorem Building.serve (h : Building D c w) (henv : env.Alone)
    (hstays : m.metadata.deletionTimestamp = none) {r : Request} (hr : Builds D r) :
    Building D c (Kube.serve env r w).2 := by
  rcases serve_state env r w with hstate | hstate
  · rw [hstate, seen_alone henv]
    have hgrown := fun k hk => hr.grown env.clock hk (h.alive k hk)
    exact {
      views := fun k hk => (h.views k hk).trans (hgrown k hk)
      alive := fun k hk => (hgrown k hk).alive (h.alive k hk)
      deployed := fun k hk obj hobj hd =>
        hr.deployedIn env.clock hk (h.alive k hk) hobj (h.deployed k hk obj hobj hd)
      resource := hr.keptIn env.clock hstays h.resource }
  · rw [hstate, seen_alone henv]
    exact h.recount _

/-- **A program whose requests build.** -/
theorem Building.triple {α : Type} {p : Code α} (henv : env.Alone)
    (hstays : m.metadata.deletionTimestamp = none) (hp : p.Uses (Builds D)) :
    Triple (Kube.serve env) (Building D c) p (fun _ => Building D c) fun _ => True :=
  Triple.ofUses (hp.mono fun _ hr _ hw => ⟨hw.serve henv hstays hr, trivial⟩)

end Building

/-! ## The parts of a call -/

section Parts

variable {m : Druid} {D : Wanted m}

theorem builds_of_within {α : Type} {p : Code α} {A : Verb → Kind → String × String → Prop}
    (hp : p.Uses (Request.Within A))
    (hA : ∀ v k key, A v k key → v = .patch ∨ v = .delete ∧ k ≠ .druid ∧ k ∉ groupKinds) :
    p.Uses (Builds D) := by
  refine hp.mono fun r hr => ?_
  cases r with
  | create k obj =>
      rcases hA _ _ _ (hr .create k obj.key rfl) with hv | ⟨hv, -⟩ <;> cases hv
  | update k obj =>
      rcases hA _ _ _ (hr .update k obj.key rfl) with hv | ⟨hv, -⟩ <;> cases hv
  | delete k obj orphan =>
      rcases hA _ _ _ (hr .delete k obj.key rfl) with hv | ⟨-, hne, hk⟩
      · cases hv
      · exact ⟨hne, fun hk' => absurd hk' hk⟩
  | _ => trivial

theorem builds_createOrUpdate {k : Kind} (hk : k ∈ groupKinds) (isEqualFn : Obj k → Obj k → Bool)
    {obj : Obj k} (hobj : obj ∈ D.objs k) :
    (createOrUpdate isEqualFn (updaterOf k) obj).Uses (Builds D) := by
  unfold createOrUpdate
  refine (uses_getObj _ _ _ trivial).bind fun answer => ?_
  cases answer with
  | error err =>
      dsimp only
      split_ifs
      · refine Uses.bind ?_ fun answer => Uses.bind (by simp) fun _ => trivial
        rw [uses_createObj]
        exact ⟨hk, hobj⟩
      · simp
  | ok prev =>
      dsimp only
      split_ifs
      · refine Uses.bind ?_ fun answer => Uses.bind (by simp) fun _ => trivial
        rw [uses_updateObj]
        exact ⟨hk, obj, hobj, prev, rfl⟩
      · trivial

theorem builds_applyObj {k : Kind} (hk : k ∈ groupKinds) {obj : Obj k} (hobj : obj ∈ D.objs k) :
    (applyObj (updaterOf k) obj).Uses (Builds D) :=
  (builds_createOrUpdate hk _ hobj).bind fun _ => trivial

theorem builds_applyOption {k : Kind} (hk : k ∈ groupKinds) (hupdater : updaterOf k = noopUpdaterFn)
    {obj : Option (Obj k)} (hobj : ∀ o ∈ obj, o ∈ D.objs k) :
    (applyOption obj).Uses (Builds D) := by
  cases obj with
  | none => trivial
  | some o =>
      rw [applyOption, ← hupdater]
      exact builds_applyObj hk (hobj o rfl)

/-- All of these objects are wanted. -/
def Wanted.Has (D : Wanted m) (objs : (k : Kind) → List (Obj k)) : Prop :=
  ∀ k ∈ groupKinds, ∀ obj ∈ objs k, obj ∈ D.objs k

variable {hash : Hash} {commonConfigSHA : String} {ls : StrMap} {drd : Druid} {g : ServiceGroup}

theorem expandIfAsked_eq (hsizes : drd.spec.scalePvcSts = false) (nodeSpec : DruidNodeSpec)
    (uniqueStr : String) (hash : Hash) (g : ServiceGroup) :
    expandIfAsked nodeSpec uniqueStr (afterServices hash drd g) = .ret () := by
  have hscale := ((Shares.refl drd).afterServices hash g).scalePvcSts_eq.trans hsizes
  rw [expandIfAsked, if_neg (by simp [hscale])]
  rfl

theorem builds_afterStatefulSet (nodeSpec : DruidNodeSpec) (uniqueStr : String) (drd : Druid)
    (status : DruidNodeStatus) :
    (afterStatefulSet nodeSpec uniqueStr drd status).Uses (Builds D) := by
  refine builds_of_within (uses_afterStatefulSet _ _ _ _) ?_
  rintro v k key ⟨rfl, rfl⟩
  exact .inr ⟨rfl, by decide, by decide⟩

theorem builds_afterDeployment (uniqueStr : String) (drd : Druid) (status : DruidNodeStatus) :
    (afterDeployment uniqueStr drd status).Uses (Builds D) :=
  builds_of_within (A := fun _ _ _ => False) (uses_afterDeployment _ _ _) fun _ _ _ h => h.elim

theorem builds_applyWorkload (hsizes : drd.spec.scalePvcSts = false)
    (hobjs : D.Has (workloadObjects hash commonConfigSHA drd g)) :
    (applyWorkload hash commonConfigSHA drd g).Uses (Builds D) := by
  unfold applyWorkload
  split_ifs with hkind
  · cases hobj : plannedDeployment hash commonConfigSHA drd g with
    | error e => trivial
    | ok obj =>
        have hmem : obj ∈ workloadObjects hash commonConfigSHA drd g .deployment := by
          simp [workloadObjects, hkind, hobj, Except.toOption]
        exact Uses.bind (builds_createOrUpdate (k := .deployment) (by decide) _
          (hobjs .deployment (by decide) obj hmem)) fun status => builds_afterDeployment _ _ status
  · rw [expandIfAsked_eq hsizes, ret_bind]
    have hmem : plannedStatefulSet hash commonConfigSHA drd g ∈
        workloadObjects hash commonConfigSHA drd g .statefulSet := by
      simp [workloadObjects, hkind]
    exact Uses.bind (builds_createOrUpdate (k := .statefulSet) (by decide) _
      (hobjs .statefulSet (by decide) _ hmem)) fun status => builds_afterStatefulSet _ _ _ status

theorem builds_applyRest (hobjs : D.Has (restObjects hash ls drd g)) :
    (applyRest hash ls drd g).Uses (Builds D) := by
  refine (builds_applyOption (by decide) rfl fun o ho => ?_).bind fun _ => ?_
  · exact hobjs .ingress (by decide) o (Option.mem_toList.2 ho)
  refine (builds_applyOption (by decide) rfl fun o ho => ?_).bind fun _ => ?_
  · exact hobjs .podDisruptionBudget (by decide) o (Option.mem_toList.2 ho)
  refine (builds_applyOption (by decide) rfl fun o ho => ?_).bind fun _ => ?_
  · exact hobjs .horizontalPodAutoscaler (by decide) o (Option.mem_toList.2 ho)
  · exact Uses.forEach fun pvc hpvc => builds_applyObj (k := .persistentVolumeClaim) (by decide)
      (hobjs .persistentVolumeClaim (by decide) pvc hpvc)

theorem Wanted.Has.workload (h : D.Has (groupObjects hash commonConfigSHA ls drd g)) :
    D.Has (workloadObjects hash commonConfigSHA drd g) := by
  intro k hk obj hobj
  cases k with
  | statefulSet => exact h .statefulSet hk obj hobj
  | deployment => exact h .deployment hk obj hobj
  | _ => cases hobj

theorem Wanted.Has.rest (h : D.Has (groupObjects hash commonConfigSHA ls drd g)) :
    D.Has (restObjects hash ls drd g) := by
  intro k hk obj hobj
  cases k <;> first | exact h _ hk obj hobj | cases hobj

theorem builds_applyGroup {l : Loop} (hsizes : l.m.spec.scalePvcSts = false)
    (hobjs : D.Has (groupObjects hash commonConfigSHA ls l.m g)) :
    (applyGroup hash ls commonConfigSHA l g).Uses (Builds D) := by
  refine (builds_applyObj (k := .configMap) (by decide)
    (hobjs .configMap (by decide) _ List.mem_cons_self)).bind fun _ => ?_
  refine Uses.bind (Uses.forEach fun svc hsvc => builds_applyObj (k := .service) (by decide)
    (hobjs .service (by decide) svc hsvc)) fun _ => ?_
  refine (builds_applyWorkload hsizes hobjs.workload).bind fun goOn => ?_
  split_ifs
  · exact (builds_applyRest hobjs.rest).bind fun _ => trivial
  · trivial

theorem Wanted.Has.cons {groups : List ServiceGroup}
    (h : D.Has (loopObjects hash commonConfigSHA ls drd (g :: groups))) :
    D.Has (groupObjects hash commonConfigSHA ls drd g) ∧
      D.Has (loopObjects hash commonConfigSHA ls (afterGroup hash commonConfigSHA drd g) groups) :=
  ⟨fun k hk obj hobj => h k hk obj (List.mem_append_left _ hobj),
    fun k hk obj hobj => h k hk obj (List.mem_append_right _ hobj)⟩

theorem builds_loop {l : Loop} (hsizes : l.m.spec.scalePvcSts = false) {groups : List ServiceGroup}
    (hobjs : D.Has (loopObjects hash commonConfigSHA ls l.m groups)) :
    (iterate (applyGroup hash ls commonConfigSHA) l groups).Uses (Builds D) := by
  induction groups generalizing l with
  | nil => trivial
  | cons g groups ih =>
      refine (builds_applyGroup hsizes hobjs.cons.1).bindYields
        (yields_applyGroup hash ls commonConfigSHA l g) fun x hx => ?_
      cases x with
      | none => trivial
      | some l' =>
          obtain ⟨-, rfl⟩ := hx l' rfl
          exact ih
            (((Shares.refl l.m).afterGroup hash commonConfigSHA g).scalePvcSts_eq.trans hsizes)
            hobjs.cons.2

theorem builds_updateFinalizers (drd : Druid) : (updateFinalizers drd).Uses (Builds D) :=
  builds_of_within (uses_updateFinalizers drd) fun _ _ _ h => .inl h.1

/-- Nothing is collected that is wanted. -/
theorem builds_deleteUnusedResources {k : Kind} (hk : k ≠ .druid) (drd : Druid)
    {names : List String} (hnames : ∀ obj ∈ D.objs k, obj.name ∈ names) (ls : StrMap) :
    (deleteUnusedResources k drd names ls).Uses (Builds D) := by
  rw [deleteUnusedResources_eq]
  refine ⟨trivial, fun answer => ?_⟩
  cases answer with
  | error e => trivial
  | ok items =>
      refine Uses.accumulate (fun survivors s _ => ?_) []
      unfold dropUnused
      split_ifs with hname
      · trivial
      · refine ⟨⟨hk, fun _ planned hplanned heq => hname (heq ▸ hnames planned hplanned)⟩,
          fun answer => ?_⟩
        cases answer <;> trivial

theorem builds_finishDeploy {l : Loop} (hkeeps : l.m.spec.deleteOrphanPvc = false)
    (hnames : ∀ k ∈ collectedKinds, ∀ obj ∈ D.objs k, obj.name ∈ l.names k) :
    (finishDeploy ls l).Uses (Builds D) := by
  have hcollect : ∀ k ∈ collectedKinds,
      (deleteUnusedResources k l.m (l.names k) ls).Uses (Builds D) :=
    fun k hk => builds_deleteUnusedResources
      (fun heq => absurd (heq ▸ hk) (by decide)) l.m (hnames k hk) ls
  unfold finishDeploy collectOrphans updateStatus
  rw [if_neg (by simp [hkeeps]), pure_eq, ret_bind]
  refine (hcollect .statefulSet (by decide)).bind fun _ => ?_
  refine (hcollect .deployment (by decide)).bind fun _ => ?_
  refine (hcollect .horizontalPodAutoscaler (by decide)).bind fun _ => ?_
  refine (hcollect .ingress (by decide)).bind fun _ => ?_
  refine (hcollect .podDisruptionBudget (by decide)).bind fun _ => ?_
  refine (hcollect .service (by decide)).bind fun _ => ?_
  refine (hcollect .configMap (by decide)).bind fun _ => ?_
  refine (uses_listObjs _ _ _ trivial).bind fun pods => ?_
  unfold druidClusterStatusPatcher
  dsimp only
  split_ifs
  · exact Uses.bind (by simp [Builds]) fun _ => trivial
  · trivial

end Parts

/-! ## Whole calls -/

/-- The resource is accepted and stays, its files and its workloads can be made, and no two of its
objects of one kind have the same name. Claims are neither expanded nor collected. -/
structure Deployable (hash : Hash) (o : MapOrders) (m : Druid) (data : StrMap) : Prop where
  verified : verifyDruidSpec o m = .ok ()
  staying : m.metadata.deletionTimestamp = none
  keeps : m.spec.deleteOrphanPvc = false
  sizes : m.spec.scalePvcSts = false
  data : commonConfigData m = .ok data
  makes : ∀ g ∈ getNodeSpecsByOrder o.groups m, MakesWorkload g
  names : ∀ k ∈ groupKinds, (generatedNames hash o m k).Nodup

/-- Either no request fails, or no file is read from another ConfigMap: the files are those of the
spec, whatever fails. -/
def ReadsFiles (m : Druid) (env : Env) : Prop :=
  (∀ n, env.fault n = none) ∨ m.spec.extraCommonConfig = []

section Calls

variable {hash : Hash} {o o' : MapOrders} {m drd : Druid} {data files : StrMap} {env : Env}
  {c : Cluster} {w : World}

/-- What the resource asks for. -/
def Deployable.wanted (hm : Deployable hash o m data) (files : StrMap) : Wanted m where
  objs := callObjects hash o m files
  ns _ _ _ hobj := callObjects_ns hobj
  nodup k hk := callObjects_names hm.makes hk ▸ hm.names k hk

/-- A call generates what is wanted, in an order that makes no difference. -/
theorem Deployable.has (hm : Deployable hash o m data) (hdrd : Bookkept m drd)
    (ho : SameObjects o o' m) : (hm.wanted files).Has (callObjects hash o' drd files) := by
  obtain ⟨finalizers, version, status, rfl⟩ := hdrd
  intro k hk obj hobj
  rw [callObjects_rewritten] at hobj
  exact mem_callObjects_of_same hm.makes ho hobj

theorem Deployable.named (hm : Deployable hash o m data) (hdrd : Bookkept m drd) {k : Kind}
    (hk : k ∈ groupKinds) {obj : Obj k} (hobj : obj ∈ (hm.wanted files).objs k) :
    obj.name ∈ (callObjects hash o' drd files k).map Object.name := by
  obtain ⟨finalizers, version, status, rfl⟩ := hdrd
  have hnames : (callObjects hash o m files k).map Object.name = generatedNames hash o m k :=
    callObjects_names hm.makes hk
  have hname : obj.name ∈ generatedNames hash o m k := hnames ▸ List.mem_map_of_mem hobj
  rw [callObjects_rewritten, callObjects_names (makes_of_order hm.makes) hk]
  exact mem_generatedNames_iff.2 hname

theorem Bookkept.key_eq (hdrd : Bookkept m drd) : drd.key = m.key := by
  obtain ⟨finalizers, version, status, rfl⟩ := hdrd
  rfl

theorem Bookkept.spec_eq (hdrd : Bookkept m drd) : drd.spec = m.spec := by
  obtain ⟨finalizers, version, status, rfl⟩ := hdrd
  rfl

/-- The bookkeeping and the order make no difference. -/
theorem Deployable.bookkept (hm : Deployable hash o m data) (hdrd : Bookkept m drd)
    (o' : MapOrders) :
    Deployable hash o' drd data := by
  obtain ⟨finalizers, version, status, rfl⟩ := hdrd
  have hperm := (perm_getNodeSpecsByOrder o'.groups m).trans
      (perm_getNodeSpecsByOrder o.groups m).symm
  exact {
    verified := (verify_iff o' m).2 ((verify_iff o m).1 hm.verified)
    staying := hm.staying
    keeps := hm.keeps
    sizes := hm.sizes
    data := hm.data
    makes := makes_of_order hm.makes
    names := fun k hk => (List.Perm.nodup_iff (List.Perm.append_left _ (hperm.flatMap_right _))).2
      (hm.names k hk) }

theorem ReadsFiles.extraData_eq (henv : ReadsFiles m env) (n : ℕ) (data : StrMap) :
    extraData env c n m.spec.extraCommonConfig data =
      filesRead c m.spec.extraCommonConfig data := by
  rcases henv with hserved | hnone
  · exact extraData_served hserved c n _ _
  · rw [hnone]
    rfl

theorem exec_applyCommonConfig_files (henv : env.Alone) (hreads : ReadsFiles m env)
    (hdata : commonConfigData m = .ok data) (hash : Hash)
    (hfiles : files = filesRead w.cluster m.spec.extraCommonConfig data) :
    (exec (serve env) (applyCommonConfig hash m) w).res =
        (exec (serve env) (applyMade hash m files files) ⟨w.cluster, commonCall m w⟩).res ∧
      (exec (serve env) (applyCommonConfig hash m) w).state =
        (exec (serve env) (applyMade hash m files files) ⟨w.cluster, commonCall m w⟩).state := by
  obtain ⟨reads, -, hcommon⟩ := exec_applyCommonConfig henv hash hdata w
  rw [hashedData, writtenData, hreads.extraData_eq, hreads.extraData_eq, ← hfiles] at hcommon
  rw [hcommon]
  exact ⟨rfl, rfl⟩

/-- A call once the common ConfigMap is made. -/
def applyAll (hash : Hash) (o : MapOrders) (m : Druid) (files : StrMap) : Code Unit :=
  applyMade hash m files files >>= fun common => deployLoop hash o m common >>= thenFinish m

/-- A call ends as what is left of it once the files are read. -/
theorem afterCall_eq (henv : env.Alone) (hreads : ReadsFiles m env)
    (hverify : verifyDruidSpec o m = .ok ())
    (hstays : m.metadata.deletionTimestamp = none) (hdata : commonConfigData m = .ok data)
    (hfiles : files = filesRead w.cluster m.spec.extraCommonConfig data) :
    afterCall hash o m env w =
      (exec (serve env) (applyAll hash o m files) ⟨w.cluster, commonCall m w⟩).state := by
  obtain ⟨hres, hstate⟩ := exec_applyCommonConfig_files henv hreads hdata hash hfiles
  rw [afterCall, deployDruidCluster_eq_thenFinish, deployGroups_eq hash hverify hstays, bind_assoc,
    applyAll]
  cases hmade : (exec (serve env) (applyMade hash m files files)
    ⟨w.cluster, commonCall m w⟩).res with
  | error e => rw [exec_bind_error (hres.trans hmade), exec_bind_error hmade, hstate]
  | ok common => rw [exec_bind_ok (hres.trans hmade), exec_bind_ok hmade, hstate]

theorem Deployable.builds_deployLoop (hm : Deployable hash o m data) (hdrd : Bookkept m drd)
    (ho : SameObjects o o' m) :
    (deployLoop hash o' drd (commonSHA hash drd files, commonConfigName drd)).Uses
      (Builds (hm.wanted files)) := by
  have hhas : (hm.wanted files).Has (callObjects hash o' drd files) := hm.has hdrd ho
  have hsizes := (hm.bookkept hdrd o').sizes
  refine (builds_updateFinalizers drd).bindYields (yields_updateFinalizers drd)
    fun updated hupdated => ?_
  obtain ⟨finalizers, rfl⟩ := hupdated
  refine builds_loop
    (by exact hsizes) fun k hk obj hobj => hhas k hk obj (List.mem_append_right _ ?_)
  rwa [Loop.named_m, loopObjects_withFinalizers] at hobj

/-- **All requests of a call build.** -/
theorem Deployable.builds_applyAll (hm : Deployable hash o m data) (hdrd : Bookkept m drd)
    (ho : SameObjects o o' m) : (applyAll hash o' drd files).Uses (Builds (hm.wanted files)) := by
  have hhas : (hm.wanted files).Has (callObjects hash o' drd files) := hm.has hdrd ho
  refine Uses.bindYields
    (R := fun common => common = (commonSHA hash drd files, commonConfigName drd))
    ?_ ((yields_true _).bind fun _ _ => rfl) fun common hcommon => ?_
  · refine (builds_createOrUpdate (k := .configMap) (by decide) _ ?_).bind fun _ => trivial
    exact hhas .configMap (by decide) _ (List.mem_append_left _ List.mem_cons_self)
  · subst hcommon
    refine (hm.builds_deployLoop hdrd ho).bindYields (yields_deployLoop _) fun x hx => ?_
    cases x with
    | none => trivial
    | some l =>
        obtain ⟨hmakes, finalizers, hvars⟩ := hx l rfl
        obtain ⟨hnames, hresource⟩ := loop_variables hmakes hvars
        refine builds_finishDeploy ?_ fun k hk obj hobj => ?_
        · obtain ⟨_, _, _, _, _, hshared, -⟩ := shares_seenAfter hash (commonSHA hash drd files) drd
            (getNodeSpecsByOrder o'.groups drd)
          rw [hresource, hshared]
          exact (hm.bookkept hdrd o').keeps
        · rw [hnames k (groupKinds_of_collectedKinds k hk)]
          exact hm.named hdrd (groupKinds_of_collectedKinds k hk) hobj

/-- **However a call ends**, what was stored as the resource asks for it is still stored so, and
nothing else is stored than before. -/
theorem Deployable.building (hm : Deployable hash o m data) (henv : env.Alone)
    (hreads : ReadsFiles m env) (hdrd : Bookkept m drd) (ho : SameObjects o o' m)
    (hfiles : files = filesRead w.cluster m.spec.extraCommonConfig data)
    (hw : Building (hm.wanted files) c w) :
    Building (hm.wanted files) c (afterCall hash o' drd env w) := by
  have hd := hm.bookkept hdrd o'
  have hreads' : ReadsFiles drd env := by rwa [ReadsFiles, hdrd.spec_eq]
  rw [afterCall_eq henv hreads' hd.verified hd.staying hd.data (hdrd.spec_eq ▸ hfiles)]
  exact (Building.triple henv hm.staying (hm.builds_applyAll hdrd ho) _ (hw.recount _)).1

end Calls

end DruidOperator.Controller
