import DruidOperator.ExtraConfig
import DruidOperator.SentObjects

/-!
# Placing objects

Where no request fails and nobody else writes, applying an object comes to one of two things: it is
stored as it is sent, or one with its hash is found and left alone. This file states that on what is
seen of a cluster, and gives the rules for programs that apply one object after the other.

* `View` — the objects of one kind in one namespace, as far as anything is decided by them.
* `Placed` — what applying one object does to the view of its kind.
* `Applies` — a program that places a list of objects of each kind.
* `Expands` — what volume expansion may do in between.
-/

namespace DruidOperator.Controller

open Interaction Prog Kube Runs

variable {k : Kind} {obj : Obj k}

/-! ## Views -/

/-- The kinds of the objects a group consists of. -/
def groupKinds : List Kind :=
  [.configMap, .service, .statefulSet, .deployment, .ingress, .podDisruptionBudget,
    .horizontalPodAutoscaler, .persistentVolumeClaim]

def portsOf : (k : Kind) → Body k → List ServicePort
  | .service, svc => svc.ports.getD []
  | _, _ => []

def claimTemplatesOf : (k : Kind) → Body k → List (Object PersistentVolumeClaim)
  | .statefulSet, sts => sts.spec.volumeClaimTemplates
  | _, _ => []

/-- What is seen of a stored object. -/
structure Shown where
  labels : Option StrMap
  annotations : Option StrMap
  deletionTimestamp : Option Int
  ports : List ServicePort
  claimTemplates : List (Object PersistentVolumeClaim)

def shown {k : Kind} (o : Obj k) : Shown where
  labels := o.metadata.labels
  annotations := o.metadata.annotations
  deletionTimestamp := o.metadata.deletionTimestamp
  ports := portsOf k o.body
  claimTemplates := claimTemplatesOf k o.body

/-- The hash the object carries. -/
def Shown.hash (s : Shown) : String := StrMap.getD s.annotations druidOpResourceHash

@[simp] theorem shown_hash (o : Obj k) : (shown o).hash = hashOf o := rfl

/-- The objects of one kind in one namespace, by name. -/
abbrev View := String → Option Shown

def viewOf (ns : String) (c : Cluster) (k : Kind) : View :=
  fun name => ((c.store k).find? (ns, name)).map shown

/-- Nothing is being deleted. -/
def Alive (v : View) : Prop := ∀ name s, v name = some s → s.deletionTimestamp = none

/-- What is seen of an object that is stored as it is sent. -/
def sentView {k : Kind} (obj : Obj k) : Shown := { shown obj with deletionTimestamp := none }

@[simp] theorem sentView_hash (obj : Obj k) : (sentView obj).hash = hashOf obj := rfl

/-- What applying an object comes to. -/
inductive Placed {k : Kind} (obj : Obj k) (v : View) : View → Prop where
  | sent : Placed obj v (Function.update v obj.name (some (sentView obj)))
  | kept (s : Shown) (hs : v obj.name = some s) (hhash : s.hash = hashOf obj) : Placed obj v v

theorem Placed.alive {v v' : View} (h : Placed obj v v') (hv : Alive v) : Alive v' := by
  cases h with
  | kept s hs hhash => exact hv
  | sent =>
      intro name s hs
      by_cases hname : name = obj.name
      · rw [hname, Function.update_self] at hs
        cases hs
        rfl
      · rw [Function.update_of_ne hname] at hs
        exact hv name s hs

theorem alive_of_path {objs : List (Obj k)} {v v' : View} (h : Path Placed objs v v')
    (hv : Alive v) :
    Alive v' :=
  h.invariant (fun _ _ _ _ hplaced halive => hplaced.alive halive) hv

theorem viewOf_congr {ns : String} {c c' : Cluster} (h : c'.store k = c.store k) :
    viewOf ns c' k = viewOf ns c k := by
  unfold viewOf
  rw [h]

/-- An update shows what was sent, but for what it keeps of the stored object; it does not matter
what was found when the object was looked up. -/
theorem shown_updated (obj prev stored : Obj k) (version : ℕ) :
    shown ((Kube.updated k stored (sent (updaterOf k) obj prev)).withResourceVersion version) =
      { shown obj with deletionTimestamp := stored.metadata.deletionTimestamp } := by
  cases k <;>
    simp [shown, Kube.updated, sent, updaterOf, noopUpdaterFn, keepClusterIP, sentBody,
      Object.withResourceVersion, portsOf, claimTemplatesOf]

theorem placed_of_applied {isEqualFn : Obj k → Obj k → Bool} {c c' : Cluster}
    {status : DruidNodeStatus} {ns : String} (hns : obj.ns = ns) (halive : Alive (viewOf ns c k))
    (h : Applied isEqualFn (updaterOf k) obj c status c') :
    Placed obj (viewOf ns c k) (viewOf ns c' k) := by
  have hkey : obj.key = (ns, obj.name) := by rw [← hns]
  have hother : ∀ name, name ≠ obj.name → (ns, name) ≠ obj.key := by
    intro name hname heq
    exact hname (congrArg Prod.snd (heq.trans hkey))
  cases h with
  | created hstored =>
      have hview : viewOf ns (c.modify k fun version t => t.insert (accepted obj version)) k =
          Function.update (viewOf ns c k) obj.name (some (sentView obj)) := by
        funext name
        unfold viewOf
        rw [Cluster.modify_store_self, Table.find?_insert (by exact hstored)]
        by_cases hname : name = obj.name
        · rw [hname, Function.update_self, if_pos (by exact hkey)]
          rfl
        · rw [Function.update_of_ne hname, if_neg (by exact (hother name hname).symm)]
      rw [hview]
      exact .sent
  | unchanged prev hstored hhash =>
      refine .kept (shown prev) ?_ hhash.symm
      rw [viewOf, ← hkey, hstored, Option.map_some]
  | updated prev hstored hhash =>
      have hprev : prev.metadata.deletionTimestamp = none := by
        refine halive obj.name (shown prev) ?_
        rw [viewOf, ← hkey, hstored, Option.map_some]
      have hstays :
          ¬ ((Kube.updated k prev (sent (updaterOf k) obj prev)).metadata.deletionTimestamp.isSome
          ∧ (Kube.updated k prev (sent (updaterOf k) obj prev)).metadata.finalizers = []) := by
        intro hgone
        have hsome : prev.metadata.deletionTimestamp.isSome := hgone.1
        rw [hprev] at hsome
        cases hsome
      have hsent : (Kube.updated k prev (sent (updaterOf k) obj prev)).key = obj.key := by
        cases k <;> rfl
      have hview : viewOf ns (c.modify k (Cluster.put k (Kube.updated k prev
          (sent (updaterOf k) obj prev)))) k =
          Function.update (viewOf ns c k) obj.name (some (sentView obj)) := by
        funext name
        unfold viewOf
        rw [Cluster.modify_store_self]
        by_cases hname : name = obj.name
        · rw [hname, Function.update_self, ← hkey, ← hsent, Cluster.find?_put_self _ _ hstays
            (by rw [hsent, hstored]; exact Option.some_ne_none _), Option.map_some,
            shown_updated, hprev, sentView]
        · rw [Function.update_of_ne hname,
            Cluster.find?_put_of_ne (by rw [hsent]; exact hother name hname)]
      rw [hview]
      exact .sent

/-! ## Programs that place objects -/

/-- A run that returns a value in `R` has placed the objects `objs`, kind by kind, in the namespace,
provided that nothing there was being deleted. -/
def Applies {α : Type} (env : Env) (ns : String) (R : α → Prop) (p : Code α)
    (objs : (k : Kind) → List (Obj k)) : Prop :=
  ∀ w a, (∀ k ∈ groupKinds, Alive (viewOf ns w.cluster k)) → (exec (serve env) p w).res = .ok a →
    R a → ∀ k ∈ groupKinds, Path Placed (objs k) (viewOf ns w.cluster k)
      (viewOf ns (exec (serve env) p w).state.cluster k)

/-- One object of one kind. -/
def only (k : Kind) (obj : Obj k) : (k' : Kind) → List (Obj k') :=
  Function.update (fun _ => []) k [obj]

section Applies

variable {env : Env} {ns : String} {α β : Type} {R : α → Prop} {Q : β → Prop} {p : Code α}
  {objs objs' : (k : Kind) → List (Obj k)}

theorem Applies.congr (h : Applies env ns R p objs) (hobjs : ∀ k ∈ groupKinds, objs k = objs' k) :
    Applies env ns R p objs' := by
  intro w a halive hres hR k hk
  rw [← hobjs k hk]
  exact h w a halive hres hR k hk

theorem Applies.ret (a : α) : Applies env ns R (.ret a) fun _ => [] :=
  fun _ _ _ _ _ _ _ => .nil _

theorem Applies.exit (e : Exit) : Applies env ns R (.exit e : Code α) objs := by
  intro w a halive hres
  cases hres

theorem Applies.bindYields {f : α → Code β} (hp : Applies env ns (fun _ => True) p objs)
    (hy : p.Yields R) (hf : ∀ a, R a → Applies env ns Q (f a) objs') :
    Applies env ns Q (p >>= f) fun k => objs k ++ objs' k := by
  intro w b halive hres hQ k hk
  obtain ⟨a, hp', hres, -⟩ := exec_bind_returned hres
  rw [exec_bind_ok hp']
  have hfirst := hp w a halive hp' trivial
  refine (hfirst k hk).append (hf a (hy.result hp') _ b ?_ hres hQ k hk)
  exact fun k' hk' => alive_of_path (hfirst k' hk') (halive k' hk')

theorem Applies.bind {f : α → Code β} (hp : Applies env ns (fun _ => True) p objs)
    (hf : ∀ a, Applies env ns Q (f a) objs') :
    Applies env ns Q (p >>= f) fun k => objs k ++ objs' k :=
  hp.bindYields (yields_true p) fun a _ => hf a

theorem applies_of_within (henv : env.Alone) {A : Verb → Kind → String × String → Prop}
    (hp : p.Uses (Request.Within A)) (hA : ∀ v key, ∀ k ∈ groupKinds, ¬ A v k key) :
    Applies env ns R p fun _ => [] := by
  intro w a halive hres hR k hk
  rw [viewOf_congr (exec_store henv hp fun v key => hA v key k hk)]
  exact .nil _

theorem updaterOf_key (prev curr : Obj k) : (updaterOf k prev curr).key = curr.key := by
  cases k <;> rfl

theorem updaterOf_version (prev curr : Obj k) :
    (updaterOf k prev curr).metadata.resourceVersion = curr.metadata.resourceVersion := by
  cases k <;> rfl

/-- **Applying an object places it.** -/
theorem applies_createOrUpdate (henv : env.Calm) (hk : k ∈ groupKinds)
    (isEqualFn : Obj k → Obj k → Bool) (hns : obj.ns = ns) :
    Applies env ns (fun _ => True) (createOrUpdate isEqualFn (updaterOf k) obj) (only k obj) := by
  intro w status halive hres _ k' hk'
  by_cases hkind : k' = k
  · subst hkind
    have hclass : k' ≠ .storageClass := by
      rintro rfl
      simp [groupKinds] at hk
    obtain ⟨status', -, happlied⟩ := createOrUpdate_applied (w := w) henv.alone hclass isEqualFn
      updaterOf_key updaterOf_version obj (henv.served _) (henv.served _)
    rw [only, Function.update_self]
    exact .single (placed_of_applied hns (halive k' hk') happlied)
  · rw [only, Function.update_of_ne hkind, viewOf_congr (exec_store henv.alone
      (uses_createOrUpdate updaterOf_key obj) fun v key happlies => hkind happlies.2.1)]
    exact .nil _

theorem applies_applyObj (henv : env.Calm) (hk : k ∈ groupKinds) (hns : obj.ns = ns) :
    Applies env ns (fun _ => True) (applyObj (updaterOf k) obj) (only k obj) := by
  refine ((applies_createOrUpdate henv hk alwaysTrueIsEqualsFn hns).bind fun _ => .ret ()).congr ?_
  exact fun k' _ => List.append_nil _

theorem applies_applyOption (henv : env.Calm) (hk : k ∈ groupKinds)
    (hupdater : updaterOf k = noopUpdaterFn) {obj : Option (Obj k)} (hns : ∀ o ∈ obj, o.ns = ns) :
    Applies env ns (fun _ => True) (applyOption obj)
      (Function.update (fun _ => []) k obj.toList) := by
  cases obj with
  | none =>
      refine (Applies.ret ()).congr fun k' _ => ?_
      by_cases hkind : k' = k
      · subst hkind
        rw [Function.update_self]
        rfl
      · rw [Function.update_of_ne hkind]
  | some o =>
      rw [applyOption, ← hupdater]
      exact applies_applyObj henv hk (hns o rfl)

theorem applies_forEach (henv : env.Calm) (hk : k ∈ groupKinds) {updaterFn : Obj k → Obj k → Obj k}
    (hupdater : updaterOf k = updaterFn) {os : List (Obj k)} (hns : ∀ o ∈ os, o.ns = ns) :
    Applies env ns (fun _ => True) (forEach (applyObj updaterFn) os)
      (Function.update (fun _ => []) k os) := by
  subst hupdater
  induction os with
  | nil =>
      refine (Applies.ret ()).congr fun k' _ => ?_
      by_cases hkind : k' = k
      · subst hkind
        rw [Function.update_self]
      · rw [Function.update_of_ne hkind]
  | cons o os ih =>
      refine ((applies_applyObj henv hk (hns o List.mem_cons_self)).bind fun _ =>
        ih fun o' ho' => hns o' (List.mem_cons_of_mem _ ho')).congr fun k' _ => ?_
      by_cases hkind : k' = k
      · subst hkind
        rw [only, Function.update_self, Function.update_self, Function.update_self]
        rfl
      · rw [only, Function.update_of_ne hkind, Function.update_of_ne hkind,
          Function.update_of_ne hkind]
        rfl

end Applies

/-! ## Volume expansion -/

/-- Volume expansion for the StatefulSet `name`: it may be gone, the rest looks as before. -/
structure Expands (ns name : String) (c c' : Cluster) : Prop where
  others : ∀ k ∈ groupKinds, k ≠ .statefulSet → viewOf ns c' k = viewOf ns c k
  sets : viewOf ns c' .statefulSet = viewOf ns c .statefulSet ∨
    viewOf ns c' .statefulSet = Function.update (viewOf ns c .statefulSet) name none

theorem Expands.refl (ns name : String) (c : Cluster) : Expands ns name c c :=
  ⟨fun _ _ _ => rfl, .inl rfl⟩

section Expansion

variable {env : Env} (henv : env.Calm) {ns name : String} {c₀ : Cluster} {w : World}

include henv

/-- The size of a claim is not shown. -/
theorem viewOf_patchClaim (base obj : Obj .persistentVolumeClaim)
    (halive : Alive (viewOf ns w.cluster .persistentVolumeClaim)) :
    viewOf ns (serve env (.patchClaim base obj) w).2.cluster .persistentVolumeClaim =
      viewOf ns w.cluster .persistentVolumeClaim := by
  rw [serve_calm henv, perform, Cluster.patch]
  cases hfind : (w.cluster.store .persistentVolumeClaim).find? obj.key with
  | none => rfl
  | some stored =>
      funext n
      have hmeta := patchedClaim_metadata base obj stored
      have hkey : (patchedClaim base obj stored).key = obj.key :=
        (patchedClaim_key ..).trans (Table.find?_eq_some.1 hfind).2
      dsimp only
      unfold viewOf
      rw [Cluster.modify_store_self]
      by_cases hn : (ns, n) = obj.key
      · have hstored : viewOf ns w.cluster .persistentVolumeClaim n = some (shown stored) := by
          rw [viewOf, hn, hfind, Option.map_some]
        have hstays : ¬ ((patchedClaim base obj stored).metadata.deletionTimestamp.isSome ∧
            (patchedClaim base obj stored).metadata.finalizers = []) := by
          have hnone : stored.metadata.deletionTimestamp = none := halive n _ hstored
          rw [hmeta, hnone]
          exact fun hgone => by cases hgone.1
        rw [hn, ← hkey, Cluster.find?_put_self (k := .persistentVolumeClaim) _ _ hstays
          (by rw [hkey, hfind]; exact Option.some_ne_none _), hkey, hfind, Option.map_some,
          Option.map_some]
        simp only [shown, Object.withResourceVersion, hmeta, portsOf, claimTemplatesOf]
      · rw [Cluster.find?_put_of_ne (k := .persistentVolumeClaim) (by rw [hkey]; exact hn)]

theorem viewOf_delete (hkey : obj.key = (ns, name)) (orphan : Bool) :
    viewOf ns (serve env (.delete k obj orphan) w).2.cluster k =
      Function.update (viewOf ns w.cluster k) name none := by
  rw [serve_calm henv, perform, hkey]
  funext n
  cases hfind : (w.cluster.store k).find? (ns, name) with
  | none =>
      by_cases hn : n = name
      · rw [hn, Function.update_self]
        simp [viewOf, hfind]
      · rw [Function.update_of_ne hn]
  | some stored =>
      dsimp only
      unfold viewOf
      rw [Cluster.modify_store_self, Table.find?_erase]
      by_cases hn : n = name
      · rw [hn, Function.update_self, if_pos rfl, Option.map_none]
      · rw [Function.update_of_ne hn, if_neg fun heq => hn (congrArg Prod.snd heq).symm]

theorem Expands.serve (halive : ∀ k ∈ groupKinds, Alive (viewOf ns c₀ k)) {r : Request}
    (hr : r.Within (expandsSet (ns, name))) (hw : Expands ns name c₀ w.cluster) :
    Expands ns name c₀ (Kube.serve env r w).2.cluster := by
  -- a request that does not write a kind leaves its view alone
  have hframe : ∀ k, (∀ v key, r.write ≠ some (v, k, key)) →
      viewOf ns (Kube.serve env r w).2.cluster k = viewOf ns w.cluster k :=
    fun k hk => viewOf_congr (serve_store henv.alone hk)
  cases hwrite : r.write with
  | none =>
      have hsame : (Kube.serve env r w).2.cluster = w.cluster := by
        rw [serve_read henv.alone hwrite]
      rwa [hsame]
  | some target =>
      obtain ⟨v, k, key⟩ := target
      rcases hr v k key hwrite with ⟨rfl, rfl, rfl⟩ | ⟨rfl, rfl⟩
      · -- the StatefulSet is deleted
        cases r <;> simp only [Request.write, Option.some.injEq, Prod.mk.injEq, reduceCtorEq,
          false_and, true_and] at hwrite
        next k obj orphan =>
          obtain ⟨rfl, hkey⟩ := hwrite
          refine ⟨fun k hk hne => ?_, .inr ?_⟩
          · rw [hframe k (by simp [Request.write, hne.symm]), hw.others k hk hne]
          · rw [viewOf_delete henv (by exact Prod.ext hkey.1 hkey.2)]
            rcases hw.sets with hsets | hsets <;> rw [hsets]
            exact Function.update_idem ..
      · -- a claim is patched
        cases r <;> simp only [Request.write, Option.some.injEq, Prod.mk.injEq, reduceCtorEq,
          false_and, true_and, and_false] at hwrite
        next base obj =>
          have hclaims := viewOf_patchClaim henv base obj
            (hw.others .persistentVolumeClaim (by decide) (by decide) ▸ halive _ (by decide))
          refine ⟨fun k hk hne => ?_, ?_⟩
          · by_cases hclaim : k = .persistentVolumeClaim
            · subst hclaim
              rw [hclaims, hw.others _ hk hne]
            · rw [hframe k (by simp [Request.write, Ne.symm hclaim]), hw.others k hk hne]
          · rw [hframe .statefulSet (by simp [Request.write])]
            exact hw.sets

end Expansion

section Workload

variable {env : Env} (henv : env.Calm) {ns : String} {c₀ : Cluster}

include henv

/-- Volume expansion reads, looks at the StatefulSet, and expands its claims. -/
theorem triple_scalePVCForSts {I : World → Prop} {G : Step sig World → Prop}
    {P : Obj .statefulSet → Prop} {nodeSpec : DruidNodeSpec} {uniqueStr : String} {drd : Druid}
    (hread : ∀ r : Request, r.write = none → ∀ w, I w →
      I (serve env r w).2 ∧ G ⟨w, r, (serve env r w).1⟩)
    (hsts : ∀ w sts, I w → w.cluster.find? .statefulSet drd.ns uniqueStr = some sts → P sts)
    (hexpand : ∀ sts pvcList, P sts →
      Triple (serve env) I (expandClaims nodeSpec sts pvcList) (fun _ => I) G) :
    Triple (serve env) I (scalePVCForSts nodeSpec uniqueStr drd) (fun _ => I) G := by
  unfold scalePVCForSts listObjs getObj
  simp only [call_bind, ret_bind]
  refine Triple.step (M := fun _ => I) (fun w hw => (hread _ rfl w hw).2)
    (fun w hw => (hread _ rfl w hw).1) fun answer => ?_
  cases answer with
  | error err => exact Triple.ret fun _ hw => hw
  | ok getSTSList =>
      dsimp only
      split_ifs
      · refine Triple.step (S := sig) (h := serve env)
          (r := Request.get .statefulSet drd.ns uniqueStr)
          (M := fun (answer : Except Error (Obj .statefulSet)) w => I w ∧
            ∀ sts, answer = .ok sts → P sts) (fun w hw => (hread _ rfl w hw).2)
          (fun w hw => ⟨(hread _ rfl w hw).1, fun sts hanswer => hsts w sts hw ?_⟩) fun answer => ?_
        · rw [serve_calm henv, perform] at hanswer
          cases hfind : w.cluster.find? .statefulSet drd.ns uniqueStr with
          | none => simp [hfind] at hanswer
          | some stored =>
              simp only [hfind, Except.ok.injEq] at hanswer
              rw [hanswer]
        · cases answer with
          | error err => exact Triple.ret fun _ hw => hw.1
          | ok sts =>
              refine Triple.step (M := fun _ w => I w ∧ P sts) (fun w hw => (hread _ rfl w hw.1).2)
                (fun w hw => ⟨(hread _ rfl w hw.1).1, hw.2 sts rfl⟩) fun answer => ?_
              cases answer with
              | error err => exact Triple.ret fun _ hw => hw.1
              | ok pvcList => exact fun w hw => hexpand sts pvcList hw.2 w hw.1
      · exact Triple.ret fun _ hw => hw

/-- The whole of it, where the resource asks for it. -/
theorem triple_expandIfAsked {I : World → Prop} {G : Step sig World → Prop}
    {P : Obj .statefulSet → Prop} {nodeSpec : DruidNodeSpec} {uniqueStr : String} {drd : Druid}
    (hread : ∀ r : Request, r.write = none → ∀ w, I w →
      I (serve env r w).2 ∧ G ⟨w, r, (serve env r w).1⟩)
    (hsts : drd.spec.scalePvcSts = true → ∀ w sts, I w →
      w.cluster.find? .statefulSet drd.ns uniqueStr = some sts → P sts)
    (hexpand : ∀ sts pvcList, P sts →
      Triple (serve env) I (expandClaims nodeSpec sts pvcList) (fun _ => I) G) :
    Triple (serve env) I (expandIfAsked nodeSpec uniqueStr drd) (fun _ => I) G := by
  unfold expandIfAsked expandStatefulSetVolumes
  split_ifs with hasked
  · refine Triple.bindInvariant (Triple.ofUses ((uses_isVolumeExpansionEnabled
      (A := fun _ _ _ => False) drd _).mono fun r hr w hw => hread r ?_ w hw)) fun isEnabled => ?_
    · cases hwrite : r.write with
      | none => rfl
      | some target => exact (hr _ _ _ hwrite).elim
    · split_ifs
      · exact triple_scalePVCForSts henv hread (hsts hasked.2) hexpand
      · exact Triple.ret fun _ hw => hw
  · exact Triple.ret fun _ hw => hw

theorem expandIfAsked_expands (halive : ∀ k ∈ groupKinds, Alive (viewOf ns c₀ k))
    (nodeSpec : DruidNodeSpec) (uniqueStr : String) {m : Druid} (hns : m.ns = ns) {w : World}
    (hw : w.cluster = c₀) :
    Expands ns uniqueStr c₀
      (exec (serve env) (expandIfAsked nodeSpec uniqueStr m) w).state.cluster := by
  subst hns
  have hkeep : Triple (serve env) (fun w => Expands m.ns uniqueStr c₀ w.cluster)
      (expandIfAsked nodeSpec uniqueStr m) (fun _ w => Expands m.ns uniqueStr c₀ w.cluster)
      fun _ => True := by
    refine triple_expandIfAsked henv (P := fun sts => sts.key = (m.ns, uniqueStr))
      (fun r hr w hw => ⟨?_, trivial⟩) (fun _ w sts _ hfind => (Table.find?_eq_some.1 hfind).2)
      fun sts pvcList hkey => ?_
    · rwa [serve_read henv.alone hr]
    · have huses := uses_expandClaims nodeSpec sts pvcList
      rw [hkey] at huses
      exact Triple.ofUses (huses.mono fun r hr w hw => ⟨hw.serve henv halive hr, trivial⟩)
  subst hw
  exact (hkeep w (.refl m.ns uniqueStr w.cluster)).1

end Workload

/-- An object that was removed just before it is applied is sent. -/
theorem Placed.of_removed {v v' : View} (h : Placed obj (Function.update v obj.name none) v') :
    Placed obj v v' := by
  cases h with
  | sent =>
      rw [Function.update_idem]
      exact .sent
  | kept s hs hhash =>
      rw [Function.update_self] at hs
      cases hs

end DruidOperator.Controller
