import DruidOperator.Footprint
import Mathlib.Algebra.Order.BigOperators.Group.List

/-!
# What volume expansion does to the claims

`scalePVCForSts` pairs the desired sizes, the sizes of the StatefulSet and the claims by index, and
compares every desired size with every claim as it was listed. `expanded_iff` says for which sizes
this gives each claim the size of its own template.
-/

namespace DruidOperator.Controller

open Interaction Prog Kube

variable {env : Env} {w : World}

variable {c : Cluster} {pvc : Obj .persistentVolumeClaim}
    {pvcs : List (Obj .persistentVolumeClaim × Quantity)} {sts : Obj .statefulSet}

/-! ## The inner loop -/

/-- What the inner loop makes of a claim in hand. -/
def resize (desired : Quantity) (x : Obj .persistentVolumeClaim × Quantity) :
    Obj .persistentVolumeClaim × Quantity :=
  if desired ≠ x.2 then (withStorageRequest x.1 desired, x.2) else x

@[simp] theorem storageRequest_withStorageRequest (o : Object PersistentVolumeClaim)
    (q : Quantity) :
    storageRequest (withStorageRequest o q) = some q := by
  simp [storageRequest, withStorageRequest]

theorem resize_key (desired : Quantity) (x : Obj .persistentVolumeClaim × Quantity) :
    (resize desired x).1.key = x.1.key := by
  unfold resize
  split_ifs <;> rfl

/-- A claim in hand is stored with the request it has in hand. -/
def Tracked (c : Cluster) (pvc : Obj .persistentVolumeClaim) : Prop :=
  pvc.body.requests.isSome ∧
    ∃ stored, (c.store .persistentVolumeClaim).find? pvc.key = some stored ∧
      storageRequest stored = storageRequest pvc ∧
      ¬ (stored.metadata.deletionTimestamp.isSome ∧ stored.metadata.finalizers = [])

theorem Tracked.congr {c' : Cluster} (h : Tracked c pvc)
    (hfind : (c'.store .persistentVolumeClaim).find? pvc.key =
      (c.store .persistentVolumeClaim).find? pvc.key) : Tracked c' pvc := by
  unfold Tracked
  rw [hfind]
  exact h

theorem patchedClaim_request {base stored : Object PersistentVolumeClaim} (q : Quantity)
    (h : storageRequest stored = storageRequest base) :
    storageRequest (patchedClaim base (withStorageRequest base q) stored) = some q := by
  unfold patchedClaim
  simp only [storageRequest_withStorageRequest]
  split_ifs with hbase
  · rw [h, hbase]
  · exact storageRequest_withStorageRequest stored q

theorem serve_patchClaim (henv : env.Alone) (hfault : env.fault w.calls = none) (q : Quantity)
    (hpvc : Tracked w.cluster pvc) :
    (serve env (.patchClaim pvc (withStorageRequest pvc q)) w).1 = .ok () ∧
      Tracked (serve env (.patchClaim pvc (withStorageRequest pvc q)) w).2.cluster
        (withStorageRequest pvc q) := by
  obtain ⟨-, stored, hfind, hrequest, hstays⟩ := hpvc
  have hkey : (patchedClaim pvc (withStorageRequest pvc q) stored).key = pvc.key :=
    (patchedClaim_key ..).trans (Table.find?_eq_some.1 hfind).2
  have hpatch : perform env.clock (.patchClaim pvc (withStorageRequest pvc q)) w.cluster =
      (.ok (), w.cluster.modify .persistentVolumeClaim (Cluster.put .persistentVolumeClaim
        (patchedClaim pvc (withStorageRequest pvc q) stored))) := by
    have hfind' : (w.cluster.store .persistentVolumeClaim).find?
      (Object.key (withStorageRequest pvc q)) = some stored := hfind
    rw [perform, Cluster.patch, hfind']
  rw [serve_alone henv hfault, hpatch]
  have hput := Cluster.find?_put_self (k := .persistentVolumeClaim)
    (t := w.cluster.store .persistentVolumeClaim)
    (patchedClaim pvc (withStorageRequest pvc q) stored) (w.cluster.version + 1)
    (by rw [patchedClaim_metadata]; exact hstays)
    (by rw [hkey, hfind]; exact Option.some_ne_none _)
  rw [hkey] at hput
  refine ⟨rfl, rfl, (patchedClaim pvc (withStorageRequest pvc q) stored).withResourceVersion
    (w.cluster.version + 1), ?_, ?_, ?_⟩
  · rw [Cluster.modify_store_self]
    exact hput
  · exact (patchedClaim_request q hrequest).trans (storageRequest_withStorageRequest ..).symm
  · rw [← patchedClaim_metadata pvc (withStorageRequest pvc q) stored] at hstays
    exact hstays

theorem patchClaims_cons {desired : Quantity} {size : Quantity}
    {rest : List (Obj .persistentVolumeClaim × Quantity)} (hreq : pvc.body.requests.isSome) :
    patchClaims desired ((pvc, size) :: rest) =
      if desired ≠ size then
        .call (.patchClaim pvc (withStorageRequest pvc desired)) fun answer =>
          orReturn answer >>= fun _ => patchClaims desired rest >>= fun rest =>
            .ret (resize desired (pvc, size) :: rest)
      else patchClaims desired rest >>= fun rest => .ret (resize desired (pvc, size) :: rest) := by
  obtain ⟨requests, hsome⟩ := Option.isSome_iff_exists.1 hreq
  by_cases hne : desired ≠ size
  · simp only [patchClaims, setStorage, hsome, resize, if_pos hne]
    rfl
  · simp only [patchClaims, resize, if_neg hne]
    rfl

/-- The patch of a claim in hand. -/
def patchOf (desired : Quantity) (p : Obj .persistentVolumeClaim × Quantity) : Request :=
  .patchClaim p.1 (withStorageRequest p.1 desired)

/-- The inner loop writes the claims in hand and nothing else. -/
theorem patchClaims_within (desired : Quantity)
    (pvcs : List (Obj .persistentVolumeClaim × Quantity)) :
    (patchClaims desired pvcs).Uses (Request.Within fun v k key =>
      patchesClaims v k key ∧ key ∈ pvcs.map fun x => x.1.key) := by
  induction pvcs with
  | nil => trivial
  | cons p rest ih =>
      obtain ⟨pvc, size⟩ := p
      have hrest : (patchClaims desired rest).Uses (Request.Within fun v k key =>
          patchesClaims v k key ∧ key ∈ ((pvc, size) :: rest).map fun x => x.1.key) :=
        ih.mono fun r hr => hr.mono fun _ _ _ h => ⟨h.1, List.mem_cons_of_mem _ h.2⟩
      unfold patchClaims setStorage
      split_ifs
      · split
        · trivial
        · rw [ret_bind]
          refine Uses.bind ?_ fun answer => Uses.bind (by simp) fun _ => hrest.bind fun _ => trivial
          simp [patchesClaims, Object.key, withStorageRequest]
      · exact hrest.bind fun _ => trivial

/-- What the inner loop comes to if nobody else writes. -/
structure Patched (env : Env) (desired : Quantity)
    (pvcs : List (Obj .persistentVolumeClaim × Quantity))
    (o : Outcome sig World Exit (List (Obj .persistentVolumeClaim × Quantity))) : Prop where
  /-- Every patch is of a claim that is stored with the request it has in hand. -/
  asked : ∀ e ∈ o.steps,
    ∃ p ∈ pvcs, desired ≠ p.2 ∧ e.req = patchOf desired p ∧ Tracked e.pre.cluster p.1
  /-- What is stored follows what is in hand. -/
  resized : ∀ resized, o.res = .ok resized →
    resized = pvcs.map (resize desired) ∧ ∀ p ∈ resized, Tracked o.state.cluster p.1
  served : (∀ n, env.fault n = none) → o.res = .ok (pvcs.map (resize desired))

/-- **The inner loop.** -/
theorem patchClaims_alone (henv : env.Alone) (desired : Quantity)
    (hnodup : (pvcs.map fun x => x.1.key).Nodup) (hpvcs : ∀ x ∈ pvcs, Tracked w.cluster x.1) :
    Patched env desired pvcs (exec (serve env) (patchClaims desired pvcs) w) := by
  induction pvcs generalizing w with
  | nil =>
      refine ⟨fun e he => (by cases he), fun resized hres => ?_, fun _ => rfl⟩
      cases hres
      exact ⟨rfl, fun p hp => by cases hp⟩
  | cons p rest ih =>
      obtain ⟨pvc, size⟩ := p
      rw [List.map_cons, List.nodup_cons] at hnodup
      have hpvc : Tracked w.cluster pvc := hpvcs _ List.mem_cons_self
      -- once the head is dealt with, the rest is dealt with in a state that differs at its key only
      have hgo : ∀ w₁ : World, Tracked w₁.cluster (resize desired (pvc, size)).1 →
          (∀ key ≠ pvc.key, (w₁.cluster.store .persistentVolumeClaim).find? key =
            (w.cluster.store .persistentVolumeClaim).find? key) →
          Patched env desired ((pvc, size) :: rest) (exec (serve env) (patchClaims desired rest >>=
            fun rest => .ret (resize desired (pvc, size) :: rest)) w₁) := by
        intro w₁ hhead hframe
        have hrest : ∀ x ∈ rest, Tracked w₁.cluster x.1 := fun x hx =>
          (hpvcs x (List.mem_cons_of_mem _ hx)).congr (hframe _ fun hkey =>
            hnodup.1 (hkey ▸ List.mem_map_of_mem hx))
        obtain ⟨hasked, hresized, hserved⟩ := ih hnodup.2 hrest
        refine ⟨fun e he => ?_, fun resized hres => ?_, fun hfaults => ?_⟩
        · rw [exec_bind_pure_steps] at he
          obtain ⟨q, hq, hpatch⟩ := hasked e he
          exact ⟨q, List.mem_cons_of_mem _ hq, hpatch⟩
        · obtain ⟨tail, hinner, hres, -⟩ := exec_bind_returned hres
          obtain ⟨rfl, htracked⟩ := hresized tail hinner
          rw [exec_bind_ok hinner]
          cases hres
          refine ⟨rfl, List.forall_mem_cons.2 ⟨hhead.congr ?_, htracked⟩⟩
          rw [resize_key]
          exact exec_frame henv (patchClaims_within desired rest) fun v h => hnodup.1 h.2
        · rw [exec_bind_ok (hserved hfaults)]
          rfl
      rw [patchClaims_cons hpvc.1]
      split_ifs with hne
      · rw [exec_call]
        have hframe : ∀ key ≠ pvc.key,
            ((serve env (.patchClaim pvc (withStorageRequest pvc desired))
            w).2.cluster.store .persistentVolumeClaim).find? key =
            (w.cluster.store .persistentVolumeClaim).find? key := by
          intro key hkey
          refine serve_frame henv fun v hwrite => hkey ?_
          cases hwrite
          rfl
        have hfirst : ∃ p ∈ (pvc, size) :: rest, desired ≠ p.2 ∧
            (.patchClaim pvc (withStorageRequest pvc desired) : Request) = patchOf desired p ∧
            Tracked w.cluster p.1 := ⟨_, List.mem_cons_self, hne, rfl, hpvc⟩
        cases hfault : env.fault w.calls with
        | none =>
            obtain ⟨hok, hhead⟩ := serve_patchClaim henv hfault desired hpvc
            rw [hok]
            obtain ⟨hasked, hresized, hserved⟩ := hgo _ (by rwa [resize, if_pos hne]) hframe
            exact ⟨List.forall_mem_cons.2 ⟨hfirst, hasked⟩, hresized, hserved⟩
        | some f =>
            rw [serve_fault hfault]
            refine ⟨List.forall_mem_cons.2 ⟨hfirst, fun e he => (by cases he)⟩,
              fun resized hres => (by cases hres), fun hfaults => ?_⟩
            cases (hfaults _).symm.trans hfault
      · exact hgo w (by rwa [resize, if_neg hne]) fun _ _ => rfl

/-! ## The outer loop -/

/-- Whether the loop over the sizes gets through, and whether the StatefulSet is stored then: it is
deleted for every size that is not the current one, and can be deleted once. -/
def sweep : Bool → List Quantity → List Quantity → Option Bool
  | stored, [], _ => some stored
  | _, _ :: _, [] => none
  | stored, desired :: des, current :: cur =>
      if desired < current then none
      else if desired ≠ current then if stored then sweep false des cur else none
      else sweep stored des cur

/-- What the outer loop makes of a claim in hand. -/
def resizeAll (des : List Quantity) (x : Obj .persistentVolumeClaim × Quantity) :
    Obj .persistentVolumeClaim × Quantity :=
  des.foldl (fun x desired => resize desired x) x

theorem resize_snd (desired : Quantity) (x : Obj .persistentVolumeClaim × Quantity) :
    (resize desired x).2 = x.2 := by
  unfold resize
  split_ifs <;> rfl

theorem map_resize_keys (desired : Quantity) (pvcs : List (Obj .persistentVolumeClaim × Quantity)) :
    (pvcs.map (resize desired)).map (fun x => x.1.key) = pvcs.map fun x => x.1.key := by
  rw [List.map_map]
  exact List.map_congr_left fun x _ => resize_key desired x

theorem serve_deleteSts (henv : env.Calm) (sts : Obj .statefulSet) :
    (((w.cluster.store .statefulSet).find? sts.key).isSome = true →
      (serve env (.delete .statefulSet sts true) w).1 = .ok () ∧
      (((serve env (.delete .statefulSet sts true) w).2.cluster.store .statefulSet).find?
        sts.key).isSome = false) ∧
    (((w.cluster.store .statefulSet).find? sts.key).isSome = false →
      ∃ e, (serve env (.delete .statefulSet sts true) w).1 = .error e) := by
  rw [serve_calm henv, perform]
  cases hfind : (w.cluster.store .statefulSet).find? sts.key with
  | none => exact ⟨fun h => (by cases h), fun _ => ⟨_, rfl⟩⟩
  | some stored =>
      refine ⟨fun _ => ⟨rfl, ?_⟩, fun h => by cases h⟩
      dsimp only
      rw [Cluster.modify_store_self, Table.find?_erase, if_pos rfl]
      rfl

/-- What the outer loop comes to, for the sizes `des` and `cur` and the claims in hand. -/
structure Swept (sts : Obj .statefulSet) (stored : Bool) (des cur : List Quantity)
    (pvcs : List (Obj .persistentVolumeClaim × Quantity)) (o : Outcome sig World Exit Unit) :
    Prop where
  stopped : sweep stored des cur = none → o.res ≠ .ok ()
  returned : ∀ stored', sweep stored des cur = some stored' → o.res = .ok ()
  sized : ∀ stored', sweep stored des cur = some stored' →
    ∀ x ∈ pvcs, Tracked o.state.cluster (resizeAll des x).1
  kept : ∀ stored', sweep stored des cur = some stored' →
    ((o.state.cluster.store .statefulSet).find? sts.key).isSome = stored'

theorem Swept.ofStopped {stored : Bool} {des cur : List Quantity} {o : Outcome sig World Exit Unit}
    (hsweep : sweep stored des cur = none) (hres : o.res ≠ .ok ()) :
    Swept sts stored des cur pvcs o := by
  have hno : ∀ stored', sweep stored des cur ≠ some stored' := by simp [hsweep]
  exact ⟨fun _ => hres, fun _ h => absurd h (hno _), fun _ h => absurd h (hno _),
    fun _ h => absurd h (hno _)⟩

/-- The rest of the loop, after one turn that left the StatefulSet stored or not. -/
theorem Swept.cons {stored stored₁ : Bool} {desired current : Quantity} {des cur : List Quantity}
    {o o' : Outcome sig World Exit Unit}
    (hsweep : sweep stored (desired :: des) (current :: cur) = sweep stored₁ des cur)
    (hrest : Swept sts stored₁ des cur (pvcs.map (resize desired)) o) (hres : o'.res = o.res)
    (hstate : o'.state = o.state) :
    Swept sts stored (desired :: des) (current :: cur) pvcs o' := by
  refine ⟨?_, ?_, ?_, ?_⟩
  · rw [hsweep, hres]
    exact hrest.stopped
  · rw [hsweep, hres]
    exact hrest.returned
  · rw [hsweep, hstate]
    exact fun stored' h x hx => hrest.sized stored' h _ (List.mem_map_of_mem hx)
  · rw [hsweep, hstate]
    exact hrest.kept

/-- **The outer loop.** -/
theorem expandTemplates_served (henv : env.Calm) (sts : Obj .statefulSet) (des cur : List Quantity)
    (hnodup : (pvcs.map fun x => x.1.key).Nodup) (hpvcs : ∀ x ∈ pvcs, Tracked w.cluster x.1)
    {stored : Bool} (hstored : ((w.cluster.store .statefulSet).find? sts.key).isSome = stored) :
    Swept sts stored des cur pvcs (exec (serve env) (expandTemplates sts des cur pvcs) w) := by
  induction des generalizing cur pvcs w stored with
  | nil =>
      refine ⟨fun h => (by cases h), fun _ _ => rfl, fun _ _ => hpvcs, fun stored' h => ?_⟩
      cases h
      exact hstored
  | cons desired des ih =>
      cases cur with
      | nil => exact Swept.ofStopped rfl (fun h => by cases h)
      | cons current cur =>
          -- what happens once the StatefulSet is dealt with
          have hgo : ∀ {w₁ : World} {stored₁ : Bool}, (∀ x ∈ pvcs, Tracked w₁.cluster x.1) →
              ((w₁.cluster.store .statefulSet).find? sts.key).isSome = stored₁ →
              Swept sts stored₁ des cur (pvcs.map (resize desired)) (exec (serve env)
                (patchClaims desired pvcs >>= fun pvcs =>
                  expandTemplates sts des cur pvcs) w₁) := by
            intro w₁ stored₁ htracked hstored₁
            have hpatched := patchClaims_alone henv.alone desired hnodup htracked
            have hres := hpatched.served henv.served
            have hresized := (hpatched.resized _ hres).2
            have hsts : (exec (serve env) (patchClaims desired pvcs) w₁).state.cluster.store
                .statefulSet = w₁.cluster.store .statefulSet :=
              exec_store henv.alone (uses_patchClaims desired pvcs) (by simp [patchesClaims])
            have hrest := ih cur (by rwa [map_resize_keys]) hresized (hsts ▸ hstored₁)
            rw [exec_bind_ok hres]
            exact ⟨hrest.stopped, hrest.returned, hrest.sized, hrest.kept⟩
          rw [expandTemplates, expandTemplate]
          split_ifs with hlt hne
          · exact Swept.ofStopped (if_pos hlt) (fun h => by cases h)
          · obtain ⟨hdelete, hgone⟩ := serve_deleteSts (w := w) henv sts
            have hsweep : sweep stored (desired :: des) (current :: cur) =
                if stored then sweep false des cur else none := by
              simp only [sweep, if_neg hlt, if_pos hne]
            rw [deleteObj, call_bind, call_bind, exec_call]
            cases stored with
            | false =>
                obtain ⟨e, he⟩ := hgone hstored
                refine Swept.ofStopped hsweep ?_
                rw [he]
                exact fun h => by cases h
            | true =>
                obtain ⟨hok, hempty⟩ := hdelete hstored
                rw [hok]
                have hclaims : (serve env (.delete .statefulSet sts true) w).2.cluster.store
                    .persistentVolumeClaim = w.cluster.store .persistentVolumeClaim :=
                  serve_store henv.alone (by rintro v key ⟨⟩)
                refine Swept.cons hsweep (hgo (fun x hx => ?_) hempty) rfl rfl
                exact (hpvcs x hx).congr (by rw [hclaims])
          · refine Swept.cons ?_ (hgo hpvcs hstored) rfl rfl
            simp only [sweep, if_neg hlt, if_neg hne]

/-! ## The sizes -/

/-- The number of indices at which the desired size is not the current one. -/
def changes (des cur : List Quantity) : ℕ := (des.zip cur).countP fun x => x.1 ≠ x.2

theorem changes_cons (desired current : Quantity) (des cur : List Quantity) :
    changes (desired :: des) (current :: cur) =
      changes des cur + if desired ≠ current then 1 else 0 := by
  simp [changes, List.countP_cons]

/-- No size shrinks and the StatefulSet has to be deleted at most once. -/
theorem sweep_eq_some (stored stored' : Bool) (des cur : List Quantity)
    (hlength : des.length = cur.length) :
    sweep stored des cur = some stored' ↔
      (∀ x ∈ des.zip cur, x.2 ≤ x.1) ∧ changes des cur ≤ stored.toNat ∧
        stored' = (stored && decide (changes des cur = 0)) := by
  induction des generalizing cur stored with
  | nil => cases stored <;> simp [sweep, changes, eq_comm]
  | cons desired des ih =>
      cases cur with
      | nil => cases hlength
      | cons current cur =>
          have ih := fun stored => ih stored cur (Nat.succ.inj hlength)
          rw [sweep, changes_cons, List.zip_cons_cons]
          by_cases hlt : desired < current
          · rw [if_pos hlt]
            constructor
            · exact fun h => by cases h
            · exact fun h => absurd (h.1 _ List.mem_cons_self) (not_le.2 hlt)
          · rw [if_neg hlt, List.forall_mem_cons]
            by_cases hne : desired ≠ current
            · cases stored with
              | false => simp [hne]
              | true =>
                  rw [if_pos hne, if_pos hne, if_pos rfl, ih]
                  simp [not_lt.1 hlt]
            · rw [if_neg hne, if_neg hne, ih]
              simp [not_lt.1 hlt]

/-- The last of the sizes that is not `size`, if there is one. -/
def lastOther (des : List Quantity) (size : Quantity) : Quantity :=
  ((des.filter (· ≠ size)).getLast?).getD size

theorem storageOf_resizeAll (des : List Quantity) (x : Obj .persistentVolumeClaim × Quantity) :
    storageOf (resizeAll des x).1 = ((des.filter (· ≠ x.2)).getLast?).getD (storageOf x.1) := by
  induction des generalizing x with
  | nil => rfl
  | cons desired des ih =>
      rw [resizeAll, List.foldl_cons, ← resizeAll, ih, resize_snd]
      by_cases hne : desired ≠ x.2
      · rw [List.filter_cons_of_pos (by simpa using hne), List.getLast?_cons, resize, if_pos hne]
        simp [storageOf]
      · rw [List.filter_cons_of_neg (by simpa using hne), resize, if_neg hne]

/-- Paired by index, no size shrinks: there is a change exactly if the sum grows. -/
theorem changes_pos_iff {des cur : List Quantity} (hlength : des.length = cur.length)
    (hle : ∀ x ∈ des.zip cur, x.2 ≤ x.1) : 0 < changes des cur ↔ cur.sum < des.sum := by
  have hdes : des.sum = ((des.zip cur).map Prod.fst).sum := by
    rw [List.map_fst_zip hlength.le]
  have hcur : cur.sum = ((des.zip cur).map Prod.snd).sum := by
    rw [List.map_snd_zip hlength.ge]
  rw [hdes, hcur, changes, List.countP_pos_iff]
  constructor
  · rintro ⟨x, hx, hne⟩
    refine List.sum_lt_sum _ _ hle ⟨x, hx, lt_of_le_of_ne (hle x hx) ?_⟩
    exact fun h => (of_decide_eq_true hne) h.symm
  · intro hlt
    by_contra hall
    push Not at hall
    refine hlt.ne (congrArg List.sum (List.map_congr_left fun x hx => ?_))
    by_contra hne
    exact hall x hx (decide_eq_true fun h => hne h.symm)

variable {des cur : List (Object PersistentVolumeClaim)}

/-- The size of the template with this name. -/
def sizeNamed (cur : List (Object PersistentVolumeClaim)) (name : String) : Quantity :=
  ((cur.find? fun t => t.name = name).map storageOf).getD 0

theorem sizeNamed_of_mem (hnodup : (cur.map Object.name).Nodup) {t : Object PersistentVolumeClaim}
    (ht : t ∈ cur) : sizeNamed cur t.name = storageOf t := by
  have hfind : cur.find? (fun t' => t'.name = t.name) = some t := by
    cases hfound : cur.find? (fun t' => t'.name = t.name) with
    | none => simpa using List.find?_eq_none.1 hfound t ht
    | some t' =>
        have hname : t'.name = t.name := by simpa using List.find?_some hfound
        rw [List.inj_on_of_nodup_map hnodup (List.mem_of_find?_eq_some hfound) ht hname]
  rw [sizeNamed, hfind]
  rfl

/-- Some template of the StatefulSet is smaller than the template of its name. -/
def Grew (des cur : List (Object PersistentVolumeClaim)) : Prop :=
  ∃ t ∈ des, ∃ s ∈ cur, s.name = t.name ∧ storageOf s < storageOf t

/-- Paired by name, no size shrinks: some template grew exactly if the sum grows. -/
theorem grew_iff (hperm : (cur.map Object.name).Perm (des.map Object.name))
    (hdistinct : (des.map Object.name).Nodup)
    (hle : ∀ t ∈ des, ∀ s ∈ cur, s.name = t.name → storageOf s ≤ storageOf t) :
    Grew des cur ↔ (cur.map storageOf).sum < (des.map storageOf).sum := by
  have hnodup : (cur.map Object.name).Nodup := hperm.nodup_iff.2 hdistinct
  have hsum : (cur.map storageOf).sum = (des.map fun t => sizeNamed cur t.name).sum := by
    calc (cur.map storageOf).sum
        = ((cur.map Object.name).map (sizeNamed cur)).sum := by
          rw [List.map_map]
          exact congrArg List.sum (List.map_congr_left fun s hs =>
            (sizeNamed_of_mem hnodup hs).symm)
      _ = ((des.map Object.name).map (sizeNamed cur)).sum := (hperm.map _).sum_eq
      _ = (des.map fun t => sizeNamed cur t.name).sum := by rw [List.map_map]; rfl
  have hpartner : ∀ t ∈ des, ∃ s ∈ cur, s.name = t.name ∧ sizeNamed cur t.name = storageOf s := by
    intro t ht
    obtain ⟨s, hs, hname⟩ := List.mem_map.1 (hperm.mem_iff.2 (List.mem_map_of_mem ht))
    exact ⟨s, hs, hname, hname ▸ sizeNamed_of_mem hnodup hs⟩
  rw [hsum]
  constructor
  · rintro ⟨t, ht, s, hs, hname, hlt⟩
    refine List.sum_lt_sum _ _ (fun t ht => ?_) ⟨t, ht, ?_⟩
    · obtain ⟨s, hs, hname, hsize⟩ := hpartner t ht
      exact hsize ▸ hle t ht s hs hname
    · rw [← hname, sizeNamed_of_mem hnodup hs]
      exact hlt
  · intro hlt
    by_contra hno
    refine hlt.ne (congrArg List.sum (List.map_congr_left fun t ht => ?_))
    obtain ⟨s, hs, hname, hsize⟩ := hpartner t ht
    rw [hsize]
    by_contra hne
    exact hno ⟨t, ht, s, hs, hname, lt_of_le_of_ne (hle t ht s hs hname) hne⟩

/-! ## Claims and their templates -/

/-- The claim is one of those the StatefulSet controller makes from the template: its name is that
of the template, of the StatefulSet and an ordinal. -/
def InstanceOf (sts : Obj .statefulSet) (template pvc : Object PersistentVolumeClaim) : Prop :=
  ∃ n : ℕ, pvc.name = template.name ++ "-" ++ sts.name ++ "-" ++ toString n

theorem hyphen_notMem_toString (n : ℕ) : '-' ∉ (toString n).toList := by
  intro h
  have hdigit : '-'.isDigit = true :=
    Nat.isDigit_of_mem_toDigits (b := 10) (n := n) (by norm_num) (by norm_num) (by
      simpa [toString, Nat.repr] using h)
  exact absurd hdigit (by decide)

/-- A claim is an instance of templates of one name only. -/
theorem InstanceOf.name_eq {t t' pvc : Object PersistentVolumeClaim} (h : InstanceOf sts t pvc)
    (h' : InstanceOf sts t' pvc) : t.name = t'.name := by
  obtain ⟨n, hn⟩ := h
  obtain ⟨n', hn'⟩ := h'
  have hlists := congrArg String.toList (hn.symm.trans hn')
  have hcut : t.name.toList ++ '-' :: sts.name.toList = t'.name.toList ++ '-' :: sts.name.toList :=
    append_separator_inj (hyphen_notMem_toString n) (hyphen_notMem_toString n')
      (by simpa using hlists)
  exact String.toList_inj.1 (List.append_cancel_right hcut)

/-- The claims of a group. -/
def groupClaims (c : Cluster) (drd : Druid) (uniqueStr : String) :
    List (Obj .persistentVolumeClaim) :=
  c.listed .persistentVolumeClaim drd.ns (claimLabels uniqueStr)

/-- What is assumed of the group: the templates of the StatefulSet have the names of those of the
resource, every claim comes from one of them and every one has a claim, and no size shrinks. -/
structure Expandable (c : Cluster) (nodeSpec : DruidNodeSpec) (uniqueStr : String) (drd : Druid)
    (sts : Obj .statefulSet) : Prop where
  ready : allReady (c.listed .statefulSet drd.ns (makeLabelsForDruid drd)) = true
  stored : (c.store .statefulSet).find? (drd.ns, uniqueStr) = some sts
  distinct : (nodeSpec.volumeClaimTemplates.map Object.name).Nodup
  templates : (sts.body.spec.volumeClaimTemplates.map Object.name).Perm
    (nodeSpec.volumeClaimTemplates.map Object.name)
  instances : ∀ pvc ∈ groupClaims c drd uniqueStr,
    ∃ t ∈ nodeSpec.volumeClaimTemplates, InstanceOf sts t pvc
  claimed : ∀ t ∈ nodeSpec.volumeClaimTemplates,
    ∃ pvc ∈ groupClaims c drd uniqueStr, InstanceOf sts t pvc
  grows : ∀ t ∈ nodeSpec.volumeClaimTemplates, ∀ s ∈ sts.body.spec.volumeClaimTemplates,
    s.name = t.name → storageOf s ≤ storageOf t
  fits : ∀ pvc ∈ groupClaims c drd uniqueStr, ∀ t ∈ nodeSpec.volumeClaimTemplates,
    InstanceOf sts t pvc → storageOf pvc ≤ storageOf t
  /-- A stored claim has a request, and is gone once it is being deleted and has no finalizer. -/
  requests : ∀ pvc ∈ groupClaims c drd uniqueStr, pvc.body.requests.isSome ∧
    ¬ (pvc.metadata.deletionTimestamp.isSome ∧ pvc.metadata.finalizers = [])

/-- What the expansion is to come to. -/
structure Expanded (c : Cluster) (nodeSpec : DruidNodeSpec) (uniqueStr : String) (drd : Druid)
    (sts : Obj .statefulSet) (o : Outcome sig World Exit Unit) : Prop where
  returned : o.res = .ok ()
  sized : ∀ pvc ∈ groupClaims c drd uniqueStr, ∀ t ∈ nodeSpec.volumeClaimTemplates,
    InstanceOf sts t pvc →
      ∃ stored, (o.state.cluster.store .persistentVolumeClaim).find? pvc.key = some stored ∧
        storageOf stored = storageOf t
  deleted : (o.state.cluster.store .statefulSet).find? sts.key = none ↔
    Grew nodeSpec.volumeClaimTemplates sts.body.spec.volumeClaimTemplates
  orphaned : ∀ e ∈ o.steps, ∀ k obj orphan, e.req = .delete k obj orphan → orphan = true

/-- The sizes for which index and listed size do not matter. -/
structure Aligned (nodeSpec : DruidNodeSpec) (sts : Obj .statefulSet)
    (claims : List (Obj .persistentVolumeClaim)) : Prop where
  /-- Paired by index, no size shrinks. -/
  grows : ∀ x ∈ (nodeSpec.volumeClaimTemplates.map storageOf).zip
    (sts.body.spec.volumeClaimTemplates.map storageOf), x.2 ≤ x.1
  /-- The StatefulSet has to be deleted at most once. -/
  once : changes (nodeSpec.volumeClaimTemplates.map storageOf)
    (sts.body.spec.volumeClaimTemplates.map storageOf) ≤ 1
  /-- The last desired size that is not the one a claim has is that of its own template; if there is
  none, it has the size of its template. -/
  last : ∀ pvc ∈ claims, ∀ t ∈ nodeSpec.volumeClaimTemplates, InstanceOf sts t pvc →
    lastOther (nodeSpec.volumeClaimTemplates.map storageOf) (storageOf pvc) = storageOf t

/-- There are at least as many claims as templates. -/
theorem Expandable.length_le {nodeSpec : DruidNodeSpec} {uniqueStr : String} {drd : Druid}
    (h : Expandable c nodeSpec uniqueStr drd sts) :
    nodeSpec.volumeClaimTemplates.length ≤ (groupClaims c drd uniqueStr).length := by
  -- a claim for every template; two templates with one claim would have one name
  choose! claim hclaim hinstance using h.claimed
  have hnodup : (nodeSpec.volumeClaimTemplates.map claim).Nodup := by
    refine List.Nodup.map_on (fun t ht t' ht' heq => ?_) h.distinct.of_map
    refine List.inj_on_of_nodup_map h.distinct ht ht' ((hinstance t ht).name_eq ?_)
    rw [heq]
    exact hinstance t' ht'
  have hsubset : nodeSpec.volumeClaimTemplates.map claim ⊆ groupClaims c drd uniqueStr := by
    intro pvc hpvc
    obtain ⟨t, ht, rfl⟩ := List.mem_map.1 hpvc
    exact hclaim t ht
  simpa using (hnodup.subperm hsubset).length_le

theorem Expandable.expandClaims_eq {nodeSpec : DruidNodeSpec} {uniqueStr : String} {drd : Druid}
    (h : Expandable c nodeSpec uniqueStr drd sts) :
    expandClaims nodeSpec sts (groupClaims c drd uniqueStr) =
      expandTemplates sts (nodeSpec.volumeClaimTemplates.map storageOf)
        (sts.body.spec.volumeClaimTemplates.map storageOf)
        ((groupClaims c drd uniqueStr).map fun pvc => (pvc, storageOf pvc)) := by
  have hlength : ¬ ((groupClaims c drd uniqueStr).map storageOf).length <
      (nodeSpec.volumeClaimTemplates.map storageOf).length := by
    simpa using h.length_le
  rw [List.map_prod_left_eq_zip]
  exact if_neg hlength

theorem exec_scalePVCForSts (henv : env.Calm) {nodeSpec : DruidNodeSpec} {uniqueStr : String}
    {drd : Druid} (h : Expandable w.cluster nodeSpec uniqueStr drd sts)
    {o : Outcome sig World Exit Unit}
    (ho : exec (serve env) (expandTemplates sts (nodeSpec.volumeClaimTemplates.map storageOf)
      (sts.body.spec.volumeClaimTemplates.map storageOf)
      ((groupClaims w.cluster drd uniqueStr).map fun pvc => (pvc, storageOf pvc)))
      ⟨w.cluster, w.calls + 3⟩ = o) :
    (exec (serve env) (scalePVCForSts nodeSpec uniqueStr drd) w).res = o.res ∧
      (exec (serve env) (scalePVCForSts nodeSpec uniqueStr drd) w).state = o.state := by
  have hfind : w.cluster.find? .statefulSet drd.ns uniqueStr = some sts := h.stored
  unfold scalePVCForSts listObjs getObj
  simp only [call_bind, ret_bind, exec_call, serve_calm henv, perform, h.ready, hfind, if_true]
  rw [← ho, ← h.expandClaims_eq]
  exact ⟨rfl, rfl⟩

/-- A StatefulSet is deleted with its pods orphaned. -/
def Orphans : Request → Prop
  | .delete _ _ orphan => orphan = true
  | _ => True

theorem patchClaims_orphans (desired : Quantity)
    (pvcs : List (Obj .persistentVolumeClaim × Quantity)) :
    (patchClaims desired pvcs).Uses Orphans := by
  refine (uses_patchClaims desired pvcs).mono fun r hr => ?_
  cases r with
  | delete k obj orphan => cases (hr _ _ _ rfl).1
  | _ => trivial

theorem expandTemplates_orphans (sts : Obj .statefulSet) (des cur : List Quantity)
    (pvcs : List (Obj .persistentVolumeClaim × Quantity)) :
    (expandTemplates sts des cur pvcs).Uses Orphans := by
  induction des generalizing cur pvcs with
  | nil => trivial
  | cons desired des ih =>
      cases cur with
      | nil => trivial
      | cons current cur =>
          refine Uses.bind ?_ fun pvcs => ih cur pvcs
          unfold expandTemplate
          split_ifs
          · simp
          · refine Uses.bind (by simp [Orphans]) fun answer => ?_
            exact Uses.bind (by simp) fun _ => patchClaims_orphans desired pvcs
          · exact patchClaims_orphans desired pvcs

theorem scalePVCForSts_orphans (nodeSpec : DruidNodeSpec) (uniqueStr : String) (drd : Druid) :
    (scalePVCForSts nodeSpec uniqueStr drd).Uses Orphans := by
  unfold scalePVCForSts
  refine (uses_listObjs _ _ _ trivial).bind fun answer => ?_
  cases answer with
  | error err => trivial
  | ok getSTSList =>
      dsimp only
      split_ifs
      · refine (uses_getObj _ _ _ trivial).bind fun answer => ?_
        cases answer with
        | error err => trivial
        | ok sts =>
            refine (uses_listObjs _ _ _ trivial).bind fun answer => ?_
            cases answer with
            | error err => trivial
            | ok pvcList =>
                simp only [expandClaims]
                split_ifs
                · trivial
                · exact expandTemplates_orphans ..
      · trivial

theorem resizeAll_key (des : List Quantity) (x : Obj .persistentVolumeClaim × Quantity) :
    (resizeAll des x).1.key = x.1.key := by
  induction des generalizing x with
  | nil => rfl
  | cons desired des ih => exact (ih (resize desired x)).trans (resize_key desired x)

section Expandable

variable {nodeSpec : DruidNodeSpec} {uniqueStr : String} {drd : Druid} {sts : Obj .statefulSet}

theorem Expandable.sizes_length (h : Expandable c nodeSpec uniqueStr drd sts) :
    (nodeSpec.volumeClaimTemplates.map storageOf).length =
      (sts.body.spec.volumeClaimTemplates.map storageOf).length := by
  simpa using h.templates.length_eq.symm

theorem Expandable.swept (henv : env.Calm) (h : Expandable w.cluster nodeSpec uniqueStr drd sts) :
    Swept sts true (nodeSpec.volumeClaimTemplates.map storageOf)
      (sts.body.spec.volumeClaimTemplates.map storageOf)
      ((groupClaims w.cluster drd uniqueStr).map fun pvc => (pvc, storageOf pvc))
      (exec (serve env) (scalePVCForSts nodeSpec uniqueStr drd) w) := by
  have hnodup : (((groupClaims w.cluster drd uniqueStr).map fun pvc => (pvc, storageOf pvc)).map
      fun x => x.1.key).Nodup := by
    rw [List.map_map]
    exact Cluster.listed_nodup w.cluster .persistentVolumeClaim drd.ns (claimLabels uniqueStr)
  have htracked : ∀ x ∈ (groupClaims w.cluster drd uniqueStr).map fun pvc => (pvc, storageOf pvc),
      Tracked w.cluster x.1 := by
    intro x hx
    obtain ⟨pvc, hpvc, rfl⟩ := List.mem_map.1 hx
    obtain ⟨hrequest, hstays⟩ := h.requests pvc hpvc
    exact ⟨hrequest, pvc, Cluster.stored_of_listed hpvc, rfl, hstays⟩
  have hsts : ((w.cluster.store .statefulSet).find? sts.key).isSome = true := by
    rw [(Table.find?_eq_some.1 h.stored).2, h.stored]
    rfl
  have hswept := expandTemplates_served (w := ⟨w.cluster, w.calls + 3⟩) henv sts
    (nodeSpec.volumeClaimTemplates.map storageOf) (sts.body.spec.volumeClaimTemplates.map storageOf)
    hnodup htracked hsts
  obtain ⟨hres, hstate⟩ := exec_scalePVCForSts henv h rfl
  exact ⟨by rw [hres]; exact hswept.stopped, by rw [hres]; exact hswept.returned,
    by rw [hstate]; exact hswept.sized, by rw [hstate]; exact hswept.kept⟩

theorem Expandable.size_eq (henv : env.Calm) (h : Expandable w.cluster nodeSpec uniqueStr drd sts)
    {stored' : Bool} (hsweep : sweep true (nodeSpec.volumeClaimTemplates.map storageOf)
      (sts.body.spec.volumeClaimTemplates.map storageOf) = some stored')
    (hpvc : pvc ∈ groupClaims w.cluster drd uniqueStr) :
    ∃ stored, ((exec (serve env) (scalePVCForSts nodeSpec uniqueStr drd) w).state.cluster.store
        .persistentVolumeClaim).find? pvc.key = some stored ∧
      storageOf stored = lastOther (nodeSpec.volumeClaimTemplates.map storageOf)
        (storageOf pvc) := by
  obtain ⟨-, stored, hfind, hrequest, -⟩ :=
    (h.swept henv).sized stored' hsweep (pvc, storageOf pvc) (List.mem_map_of_mem hpvc)
  rw [resizeAll_key] at hfind
  refine ⟨stored, hfind, ?_⟩
  have hsize := storageOf_resizeAll (nodeSpec.volumeClaimTemplates.map storageOf)
    (pvc, storageOf pvc)
  unfold storageOf at hsize ⊢
  rw [hrequest]
  exact hsize

/-- **When volume expansion gives every claim the size of its own template.** Paired by index no
size may shrink and at most one may change, since the StatefulSet can be deleted once; and the last
desired size that differs from the size of a claim has to be the one of its template. -/
theorem expanded_iff (henv : env.Calm) (h : Expandable w.cluster nodeSpec uniqueStr drd sts) :
    Expanded w.cluster nodeSpec uniqueStr drd sts
        (exec (serve env) (scalePVCForSts nodeSpec uniqueStr drd) w) ↔
      Aligned nodeSpec sts (groupClaims w.cluster drd uniqueStr) := by
  have hswept := h.swept henv
  have hsome := fun stored' => sweep_eq_some true stored' _ _ h.sizes_length
  constructor
  · intro hexp
    -- the loop returned, so the sizes were swept
    cases hsweep : sweep true (nodeSpec.volumeClaimTemplates.map storageOf)
        (sts.body.spec.volumeClaimTemplates.map storageOf) with
    | none => exact absurd hexp.returned (hswept.stopped hsweep)
    | some stored' =>
        obtain ⟨hgrows, honce, -⟩ := (hsome stored').1 hsweep
        refine ⟨hgrows, honce, fun pvc hpvc t ht hinst => ?_⟩
        obtain ⟨stored, hfind, hsize⟩ := hexp.sized pvc hpvc t ht hinst
        obtain ⟨stored₁, hfind₁, hsize₁⟩ := h.size_eq henv hsweep hpvc
        rw [hfind] at hfind₁
        cases hfind₁
        rw [← hsize₁, hsize]
  · intro hal
    have hsweep := (hsome _).2 ⟨hal.grows, hal.once, rfl⟩
    refine ⟨hswept.returned _ hsweep, fun pvc hpvc t ht hinst => ?_, ?_, ?_⟩
    · obtain ⟨stored, hfind, hsize⟩ := h.size_eq henv hsweep hpvc
      exact ⟨stored, hfind, hsize.trans (hal.last pvc hpvc t ht hinst)⟩
    · rw [grew_iff h.templates h.distinct h.grows, ← changes_pos_iff h.sizes_length hal.grows,
        ← Option.not_isSome_iff_eq_none, hswept.kept _ hsweep]
      simp [Nat.pos_iff_ne_zero]
    · intro e he k obj orphan hreq
      have hcall := (scalePVCForSts_orphans nodeSpec uniqueStr drd).steps he
      rw [hreq] at hcall
      exact hcall

end Expandable

/-! ## One and two templates -/

/-- A template, or a claim of the group. -/
def sizedClaim (name : String) (labels : Option StrMap) (size : Quantity) :
    Obj .persistentVolumeClaim where
  metadata := { name := name, ns := "d", labels := labels }
  body := { requests := some (Finmap.singleton "storage" size) }

/-- A group whose templates have these names and sizes. -/
def diskGroup (disks : List (String × Quantity)) : DruidNodeSpec where
  nodeType := .historical
  druidPort := 8083
  replicas := 1
  volumeClaimTemplates := disks.map fun x => sizedClaim x.1 none x.2

def diskCluster : Druid where
  metadata := { name := "c", ns := "d" }
  body := { spec := { image := "druid", nodes := .empty } }

def diskSet (disks : List (String × Quantity)) : Obj .statefulSet :=
  makeStatefulSet (diskGroup disks) diskCluster (makeLabelsForDruid diskCluster) "s" "" ""

def diskClaims (disks : List (String × Quantity)) : Store .persistentVolumeClaim :=
  disks.foldl (fun t x =>
    t.insert (sizedClaim (x.1 ++ "-s-0") (some (claimLabels "s")) x.2)) .empty

/-- A StatefulSet with templates of these sizes, and one claim of each. -/
def diskWorld (disks : List (String × Quantity)) : World where
  cluster := { store := Function.update (Function.update (fun _ => .empty) .statefulSet
    (Table.insert .empty (diskSet disks))) .persistentVolumeClaim (diskClaims disks) }

/-- Two disks of ten and twenty. -/
def twoDisks : List (String × Quantity) := [("a", 10), ("b", 20)]

/-- The expansion of the two disks to these sizes. -/
def expansion (a b : Quantity) : Outcome sig World Exit Unit :=
  exec (serve {}) (scalePVCForSts (diskGroup [("a", a), ("b", b)]) "s" diskCluster)
    (diskWorld twoDisks)

theorem groupClaims_twoDisks : groupClaims (diskWorld twoDisks).cluster diskCluster "s" =
    [sizedClaim "a-s-0" (some (claimLabels "s")) 10,
      sizedClaim "b-s-0" (some (claimLabels "s")) 20] := rfl

theorem instanceOf_a (size : Quantity) (labels : Option StrMap) :
    InstanceOf (diskSet twoDisks) (sizedClaim "a" none size) (sizedClaim "a-s-0" labels 10) :=
  ⟨0, rfl⟩

theorem instanceOf_b (size : Quantity) (labels : Option StrMap) :
    InstanceOf (diskSet twoDisks) (sizedClaim "b" none size) (sizedClaim "b-s-0" labels 20) :=
  ⟨0, rfl⟩

theorem twoDisks_expandable {a b : Quantity} (ha : 10 ≤ a) (hb : 20 ≤ b) :
    Expandable (diskWorld twoDisks).cluster (diskGroup [("a", a), ("b", b)]) "s" diskCluster
      (diskSet twoDisks) where
  ready := by decide +kernel
  stored := rfl
  distinct := show ["a", "b"].Nodup by decide
  templates := List.Perm.refl _
  instances := by
    rw [groupClaims_twoDisks]
    simp only [List.forall_mem_cons]
    exact ⟨⟨_, List.mem_cons_self, instanceOf_a a _⟩,
      ⟨_, List.mem_cons_of_mem _ List.mem_cons_self, instanceOf_b b _⟩, fun _ h => by cases h⟩
  claimed := by
    rw [groupClaims_twoDisks]
    simp only [diskGroup, List.map_cons, List.forall_mem_cons]
    exact ⟨⟨_, List.mem_cons_self, instanceOf_a a _⟩,
      ⟨_, List.mem_cons_of_mem _ List.mem_cons_self, instanceOf_b b _⟩, fun _ h => by cases h⟩
  grows := by
    have hset : (diskSet twoDisks).body.spec.volumeClaimTemplates =
      [sizedClaim "a" none 10, sizedClaim "b" none 20] := rfl
    rw [hset]
    simp only [diskGroup, List.map_cons, List.map_nil, List.mem_cons, List.not_mem_nil, or_false]
    rintro t (rfl | rfl) s (rfl | rfl) hname
    · exact ha
    · exact absurd hname (show "b" ≠ "a" by decide)
    · exact absurd hname (show "a" ≠ "b" by decide)
    · exact hb
  fits := by
    rw [groupClaims_twoDisks]
    simp only [diskGroup, List.map_cons, List.map_nil, List.mem_cons, List.not_mem_nil, or_false]
    rintro pvc (rfl | rfl) t (rfl | rfl) hinst
    · exact ha
    · exact absurd (hinst.name_eq (instanceOf_a a _)) (show "b" ≠ "a" by decide)
    · exact absurd (hinst.name_eq (instanceOf_b b _)) (show "a" ≠ "b" by decide)
    · exact hb
  requests := by
    rw [groupClaims_twoDisks]
    simp only [List.forall_mem_cons]
    exact ⟨⟨rfl, by decide⟩, ⟨rfl, by decide⟩, fun _ h => by cases h⟩

theorem expanded_twoDisks :
    Expanded (diskWorld twoDisks).cluster (diskGroup [("a", 20), ("b", 20)]) "s" diskCluster
      (diskSet twoDisks) (expansion 20 20) := by
  have hsizes : (diskGroup [("a", 20), ("b", 20)]).volumeClaimTemplates.map storageOf =
    [20, 20] := rfl
  have hcurrent : (diskSet twoDisks).body.spec.volumeClaimTemplates.map storageOf =
    [10, 20] := rfl
  refine (expanded_iff ⟨fun _ _ => rfl, fun _ => rfl⟩
    (twoDisks_expandable (by decide) (by decide))).2 ⟨?_, ?_, ?_⟩
  · rw [hsizes, hcurrent]
    decide
  · rw [hsizes, hcurrent]
    decide
  · rw [groupClaims_twoDisks, hsizes]
    simp only [diskGroup, List.map_cons, List.map_nil, List.mem_cons, List.not_mem_nil, or_false]
    rintro pvc (rfl | rfl) t (rfl | rfl) hinst <;> rfl

/-- With the sizes the templates have already, the claims are given the size of each other. -/
theorem sizes_swapped :
    Expandable (diskWorld twoDisks).cluster (diskGroup twoDisks) "s" diskCluster
        (diskSet twoDisks) ∧
      ¬ Expanded (diskWorld twoDisks).cluster (diskGroup twoDisks) "s" diskCluster
        (diskSet twoDisks) (expansion 10 20) := by
  refine ⟨twoDisks_expandable (by decide) (by decide), fun h => ?_⟩
  obtain ⟨stored, hfind, hsize⟩ := h.sized (sizedClaim "a-s-0" (some (claimLabels "s")) 10)
    (by rw [groupClaims_twoDisks]; exact List.mem_cons_self) (sizedClaim "a" none 10)
    List.mem_cons_self (instanceOf_a 10 _)
  have hafter : (((expansion 10 20).state.cluster.store .persistentVolumeClaim).find?
    ("d", "a-s-0")).map storageOf = some 20 := by decide +kernel
  have hkey : (sizedClaim "a-s-0" (some (claimLabels "s")) 10).key = ("d", "a-s-0") := rfl
  rw [← hkey, hfind] at hafter
  cases Option.some.inj hafter ▸ hsize

end DruidOperator.Controller
