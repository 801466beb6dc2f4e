import DruidOperator.ShrinkRejection

/-!
# Where the expansion stands still, and where it overruns

The loop of `scalePVCForSts` reads the sizes of the StatefulSet at the index of a template of the
node group. The StatefulSet has the templates of the cluster before those of the group, and may be
older than a template that was added: the sizes at one index need not be those of one template, and
there may be none.

- `converged_quiet_iff`: for which sizes a group that has converged is left alone.
- `in_bounds_iff`: for which sizes no index is out of range.
-/

namespace DruidOperator.Controller

open Interaction Prog Kube

/-! ## The look-ups -/

section LookUps

variable {σ : Type} {h : Handler sig σ} {s : σ} {drd : Druid} {uniqueStr : String}

/-- What the look-ups find, if they find something. -/
def Finds (h : Handler sig σ) (s : σ) (drd : Druid) (uniqueStr : String) (sts : Obj .statefulSet)
    (pvcList : List (Obj .persistentVolumeClaim)) : Prop :=
  ∀ sts' pvcList', Found h s drd uniqueStr sts' pvcList' → sts' = sts ∧ pvcList' = pvcList

/-- The call issued no write and returned without an error. -/
def Idle (o : Outcome sig σ Exit Unit) : Prop :=
  o.res = .ok () ∧ ∀ e ∈ o.steps, e.req.write = none

/-- Where a look-up fails, or a StatefulSet is not ready, the call returns. -/
theorem idle_of_not_found (hno : ∀ sts pvcList, ¬ Found h s drd uniqueStr sts pvcList)
    (nodeSpec : DruidNodeSpec) : Idle (exec h (scalePVCForSts nodeSpec uniqueStr drd) s) := by
  unfold scalePVCForSts listObjs getObj
  simp only [call_bind, ret_bind, exec_call]
  cases hlist : h (.list .statefulSet drd.ns (makeLabelsForDruid drd)) s with
  | mk answer s₁ =>
      cases answer with
      | error err => exact ⟨rfl, by simp [Request.write]⟩
      | ok stss =>
          dsimp only
          split_ifs with hready
          · simp only [exec_call]
            cases hget : h (.get .statefulSet drd.ns uniqueStr) s₁ with
            | mk answer s₂ =>
                cases answer with
                | error err => exact ⟨rfl, by simp [Request.write]⟩
                | ok sts =>
                    simp only [exec_call]
                    cases hclaims : h (.list .persistentVolumeClaim drd.ns (claimLabels uniqueStr))
                        s₂ with
                    | mk answer s₃ =>
                        cases answer with
                        | error err => exact ⟨rfl, by simp [Request.write]⟩
                        | ok pvcList =>
                            exact absurd ⟨stss, s₁, s₂, s₃, hready, hlist, hget, hclaims⟩
                              (hno sts pvcList)
          · exact ⟨rfl, by simp [Request.write]⟩

variable {env : Env} (henv : env.Alone) {w w' : World} {k : Kind} {ns : String}
include henv

theorem list_alone {selector : StrMap} {objs : List (Obj k)}
    (hlist : serve env (.list k ns selector) w = (.ok objs, w')) :
    objs = w.cluster.listed k ns selector ∧ w' = ⟨w.cluster, w.calls + 1⟩ := by
  have hstate := serve_read henv (r := .list k ns selector) (w := w) rfl
  have hobjs := eq_listed_of_list (congrArg Prod.fst hlist)
  rw [hlist] at hstate
  rw [seen_alone henv] at hobjs
  exact ⟨hobjs, hstate⟩

theorem get_alone {name : String} {obj : Obj k}
    (hget : serve env (.get k ns name) w = (.ok obj, w')) :
    w.cluster.find? k ns name = some obj ∧ w' = ⟨w.cluster, w.calls + 1⟩ := by
  have hstate := serve_read henv (r := .get k ns name) (w := w) rfl
  have hfound := find?_of_get (congrArg Prod.fst hget)
  rw [hget] at hstate
  rw [seen_alone henv] at hfound
  exact ⟨hfound, hstate⟩

theorem Found.stored {sts : Obj .statefulSet} {pvcList : List (Obj .persistentVolumeClaim)}
    (found : Found (serve env) w drd uniqueStr sts pvcList) :
    (w.cluster.store .statefulSet).find? (drd.ns, uniqueStr) = some sts ∧
      pvcList = groupClaims w.cluster drd uniqueStr := by
  obtain ⟨stss, s₁, s₂, s₃, -, hlist, hget, hclaims⟩ := found
  obtain ⟨-, rfl⟩ := list_alone henv hlist
  obtain ⟨hstored, rfl⟩ := get_alone henv hget
  obtain ⟨rfl, -⟩ := list_alone henv hclaims
  exact ⟨hstored, rfl⟩

end LookUps

theorem found_answering (drd : Druid) (uniqueStr : String) (sts : Obj .statefulSet)
    (pvcList : List (Obj .persistentVolumeClaim)) :
    Found (answering sts pvcList) () drd uniqueStr sts pvcList :=
  ⟨[], (), (), (), rfl, rfl, rfl, rfl⟩

theorem finds_answering (drd : Druid) (uniqueStr : String) (sts : Obj .statefulSet)
    (pvcList : List (Obj .persistentVolumeClaim)) :
    Finds (answering sts pvcList) () drd uniqueStr sts pvcList := by
  intro sts' pvcList' ⟨stss, s₁, s₂, s₃, _, _, hget, hclaims⟩
  cases hget
  cases hclaims
  exact ⟨rfl, rfl⟩

/-! ## A group that has converged -/

/-- The StatefulSet has the templates that are generated for it, and every claim has the size of its
template. -/
structure Converged (nodeSpec : DruidNodeSpec) (drd : Druid) (sts : Obj .statefulSet)
    (pvcList : List (Obj .persistentVolumeClaim)) : Prop where
  templates : sts.body.spec.volumeClaimTemplates = getPersistentVolumeClaim nodeSpec drd
  sized : ∀ pvc ∈ pvcList, ∀ t ∈ getPersistentVolumeClaim nodeSpec drd, InstanceOf sts t pvc →
    storageOf pvc = storageOf t

/-- Paired by index, the templates of the group and the generated ones have the same sizes, and
every claim has each of them. Only matters where there are claims enough. -/
def StandsStill (nodeSpec : DruidNodeSpec) (drd : Druid)
    (pvcList : List (Obj .persistentVolumeClaim)) : Prop :=
  nodeSpec.volumeClaimTemplates.length ≤ pvcList.length →
    ∀ x ∈ nodeSpec.volumeClaimTemplates.zip (getPersistentVolumeClaim nodeSpec drd),
      storageOf x.1 = storageOf x.2 ∧ ∀ pvc ∈ pvcList, storageOf x.1 = storageOf pvc

theorem mem_claimsInHand {pvcList : List (Obj .persistentVolumeClaim)}
    {p : Obj .persistentVolumeClaim × Quantity} :
    p ∈ claimsInHand pvcList ↔ p.1 ∈ pvcList ∧ p.2 = storageOf p.1 := by
  unfold claimsInHand
  rw [← List.map_prod_left_eq_zip, List.mem_map]
  constructor
  · rintro ⟨pvc, hpvc, rfl⟩
    exact ⟨hpvc, rfl⟩
  · rintro ⟨hpvc, hsize⟩
    exact ⟨p.1, hpvc, by rw [← hsize]⟩

theorem unchanging_sizes_iff (des cur : List (Object PersistentVolumeClaim))
    (pvcList : List (Obj .persistentVolumeClaim)) :
    Unchanging ((des.map storageOf).zip (cur.map storageOf)) (claimsInHand pvcList) ↔
      ∀ x ∈ des.zip cur, storageOf x.1 = storageOf x.2 ∧
        ∀ pvc ∈ pvcList, storageOf x.1 = storageOf pvc := by
  unfold Unchanging
  rw [List.zip_map, List.forall_mem_map]
  refine forall₂_congr fun x _ => and_congr_right fun _ => ?_
  constructor
  · intro hall pvc hpvc
    exact hall (pvc, storageOf pvc) (mem_claimsInHand.2 ⟨hpvc, rfl⟩)
  · intro hall p hp
    obtain ⟨hpvc, hsize⟩ := mem_claimsInHand.1 hp
    rw [hsize]
    exact hall p.1 hpvc

theorem not_shrinks_of_unchanging {des cur : List Quantity}
    {pvcs : List (Obj .persistentVolumeClaim × Quantity)} (h : Unchanging (des.zip cur) pvcs) :
    ¬ Shrinks des cur := by
  rintro ⟨x, hx, hlt⟩
  exact hlt.ne (h x hx).1

/-- **A converged group.** The call is idle, whatever is answered, exactly if the sizes stand still
at each index. -/
theorem converged_quiet_iff (nodeSpec : DruidNodeSpec) (uniqueStr : String) (drd : Druid)
    (sts : Obj .statefulSet) (pvcList : List (Obj .persistentVolumeClaim))
    (hconverged : Converged nodeSpec drd sts pvcList) :
    (∀ {σ : Type} (h : Handler sig σ) (s : σ), Finds h s drd uniqueStr sts pvcList →
      Idle (exec h (scalePVCForSts nodeSpec uniqueStr drd) s)) ↔
    StandsStill nodeSpec drd pvcList := by
  have hlonger : nodeSpec.volumeClaimTemplates.length ≤
      (getPersistentVolumeClaim nodeSpec drd).length := by
    rw [getPersistentVolumeClaim, List.length_append]
    exact Nat.le_add_left _ _
  unfold StandsStill
  rw [← unchanging_sizes_iff]
  constructor
  · intro hall hlength
    obtain ⟨t, reads, -, hres, hsteps⟩ :=
      (found_answering drd uniqueStr sts pvcList).exec_eq nodeSpec
    obtain ⟨hok, hquiet⟩ :=
      hall (answering sts pvcList) () (finds_answering drd uniqueStr sts pvcList)
    rw [expandClaims_eq_ite, if_neg (by simpa using hlength), hconverged.templates] at hres hsteps
    have hno : ∀ x, (.ok () : Except Exit Unit) = .error x → Own (answering sts pvcList) sts x :=
      fun x hx => by cases hx
    obtain ⟨hend, -, hsizes⟩ := expandTemplates_ended hno (hres.symm.trans hok)
    have hgrows : ¬ Shrinks (nodeSpec.volumeClaimTemplates.map storageOf)
        ((getPersistentVolumeClaim nodeSpec drd).map storageOf) := by
      intro hshrinks
      cases (loopEnd_of_shrinks hshrinks).symm.trans hend
    rw [← untilShrink_of_not_shrinks hgrows]
    exact hsizes fun e he => hquiet e (hsteps ▸ List.mem_append_right _ he)
  · intro hstill σ h s finds
    by_cases hfound : ∃ sts' pvcList', Found h s drd uniqueStr sts' pvcList'
    · obtain ⟨sts', pvcList', found⟩ := hfound
      obtain ⟨rfl, rfl⟩ := finds sts' pvcList' found
      obtain ⟨t, reads, hreads, hres, hsteps⟩ := found.exec_eq nodeSpec
      unfold Idle
      rw [hres, hsteps, expandClaims_eq_ite, hconverged.templates]
      split_ifs with hlength
      · exact ⟨rfl, by simpa using hreads⟩
      · have hsizes := hstill (by simpa using hlength)
        have hgrows := not_shrinks_of_unchanging hsizes
        rw [exec_expandTemplates_unchanging (by rwa [untilShrink_of_not_shrinks hgrows]),
          loopEnd_of_not_shrinks hgrows, if_pos (by simpa using hlonger)]
        exact ⟨rfl, by simpa using hreads⟩
    · exact idle_of_not_found (fun sts' pvcList' found => hfound ⟨sts', pvcList', found⟩) nodeSpec

/-! ## Indices -/

/-- The StatefulSet has a size at every index that the loop gets to. -/
def InBounds (nodeSpec : DruidNodeSpec) (sts : Obj .statefulSet)
    (pvcList : List (Obj .persistentVolumeClaim)) : Prop :=
  let des := nodeSpec.volumeClaimTemplates.map storageOf
  let cur := sts.body.spec.volumeClaimTemplates.map storageOf
  -- the loop does not get past a size that shrinks, or a claim that cannot be resized
  des.length ≤ cur.length ∨ Shrinks des cur ∨ ¬ Resizable (des.zip cur) (claimsInHand pvcList)

/-- **The indices of the loop.** With claims enough, no index is out of range, whatever is answered,
exactly if the StatefulSet has sizes enough or the loop stops before. -/
theorem in_bounds_iff (nodeSpec : DruidNodeSpec) (uniqueStr : String) (drd : Druid)
    (sts : Obj .statefulSet) (pvcList : List (Obj .persistentVolumeClaim))
    (hlength : nodeSpec.volumeClaimTemplates.length ≤ pvcList.length) :
    (∀ {σ : Type} (h : Handler sig σ) (s : σ), Finds h s drd uniqueStr sts pvcList →
      (exec h (scalePVCForSts nodeSpec uniqueStr drd) s).res ≠
        .error (.panic "index out of range")) ↔
    InBounds nodeSpec sts pvcList := by
  have henough : ¬ pvcList.length < (nodeSpec.volumeClaimTemplates.map storageOf).length := by
    simpa using hlength
  unfold InBounds
  constructor
  · intro hall
    by_contra hout
    rw [not_or, not_or, not_not, not_le] at hout
    obtain ⟨hshort, hgrows, hresizable⟩ := hout
    obtain ⟨t, reads, -, hres, -⟩ := (found_answering drd uniqueStr sts pvcList).exec_eq nodeSpec
    refine hall (answering sts pvcList) () (finds_answering drd uniqueStr sts pvcList) ?_
    rw [← untilShrink_of_not_shrinks hgrows] at hresizable
    rw [hres, expandClaims_eq_ite, if_neg henough,
      expandTemplates_agreed (agrees_answering sts pvcList) hresizable,
      loopEnd_of_not_shrinks hgrows, if_neg (not_le.2 hshort)]
  · intro hin σ h s finds hpanic
    by_cases hfound : ∃ sts' pvcList', Found h s drd uniqueStr sts' pvcList'
    · obtain ⟨sts', pvcList', found⟩ := hfound
      obtain ⟨rfl, rfl⟩ := finds sts' pvcList' found
      obtain ⟨t, reads, -, hres, -⟩ := found.exec_eq nodeSpec
      rw [hres, expandClaims_eq_ite, if_neg henough] at hpanic
      obtain ⟨hend, hresizable, -⟩ := expandTemplates_ended (fun x hx => by
        cases hx
        exact own_outOfRange h sts') hpanic
      have hgrows : ¬ Shrinks (nodeSpec.volumeClaimTemplates.map storageOf)
          (sts'.body.spec.volumeClaimTemplates.map storageOf) := by
        intro hshrinks
        cases (loopEnd_of_shrinks hshrinks).symm.trans hend
      rw [untilShrink_of_not_shrinks hgrows] at hresizable
      rcases hin with hfits | hshrinks | hstuck
      · rw [loopEnd_of_not_shrinks hgrows, if_pos hfits] at hend
        cases hend
      · exact hgrows hshrinks
      · exact hstuck hresizable
    · have hidle := idle_of_not_found (fun sts' pvcList' found => hfound ⟨sts', pvcList', found⟩)
        nodeSpec
      cases hidle.1.symm.trans hpanic

/-! ## Templates of the cluster, and a template that was added -/

/-- The first disk is declared for the whole cluster. -/
def sharedDiskCluster : Druid where
  metadata := { name := "c", ns := "d" }
  body := { spec := {
    image := "druid"
    nodes := .empty
    volumeClaimTemplates := [sizedClaim "a" none 10] } }

theorem finds_diskWorld (disks : List (String × Quantity)) :
    Finds (serve {}) (diskWorld disks) sharedDiskCluster "s" (diskSet disks)
      (groupClaims (diskWorld disks).cluster sharedDiskCluster "s") := by
  intro sts pvcList found
  obtain ⟨hstored, hclaims⟩ := found.stored fun _ _ => rfl
  exact ⟨(Option.some.inj hstored).symm, hclaims⟩

/-- The second disk is declared for the group, and has this size. -/
def sharedDisks (size : Quantity) : List (String × Quantity) := [("a", 10), ("b", size)]

theorem groupClaims_sharedDisks (size : Quantity) :
    groupClaims (diskWorld (sharedDisks size)).cluster sharedDiskCluster "s" =
      [sizedClaim "a-s-0" (some (claimLabels "s")) 10,
        sizedClaim "b-s-0" (some (claimLabels "s")) size] := rfl

theorem converged_sharedDisks (size : Quantity) :
    Converged (diskGroup [("b", size)]) sharedDiskCluster (diskSet (sharedDisks size))
      (groupClaims (diskWorld (sharedDisks size)).cluster sharedDiskCluster "s") := by
  refine ⟨rfl, ?_⟩
  have htemplates : getPersistentVolumeClaim (diskGroup [("b", size)]) sharedDiskCluster =
    [sizedClaim "a" none 10, sizedClaim "b" none size] := rfl
  have ha : InstanceOf (diskSet (sharedDisks size)) (sizedClaim "a" none 10)
    (sizedClaim "a-s-0" (some (claimLabels "s")) 10) := ⟨0, rfl⟩
  have hb : InstanceOf (diskSet (sharedDisks size)) (sizedClaim "b" none size)
    (sizedClaim "b-s-0" (some (claimLabels "s")) size) := ⟨0, rfl⟩
  rw [groupClaims_sharedDisks, htemplates]
  simp only [List.mem_cons, List.not_mem_nil, or_false]
  rintro pvc (rfl | rfl) t (rfl | rfl) hinst
  · rfl
  · exact absurd (hinst.name_eq ha) (show "b" ≠ "a" by decide)
  · exact absurd (hinst.name_eq hb) (show "a" ≠ "b" by decide)
  · rfl

/-- With disks of one size nothing is done. -/
theorem converged_quiet_disks :
    Idle (exec (serve {}) (scalePVCForSts (diskGroup [("b", 10)]) "s" sharedDiskCluster)
      (diskWorld (sharedDisks 10))) := by
  refine (converged_quiet_iff _ "s" _ _ _ (converged_sharedDisks 10)).2 ?_ (serve {}) _
    (finds_diskWorld _)
  rw [groupClaims_sharedDisks]
  intro _ x hx
  have hzip : (diskGroup [("b", 10)]).volumeClaimTemplates.zip
      (getPersistentVolumeClaim (diskGroup [("b", 10)]) sharedDiskCluster) =
    [(sizedClaim "b" none 10, sizedClaim "a" none 10)] := rfl
  rw [hzip, List.mem_singleton] at hx
  rw [hx]
  refine ⟨rfl, fun pvc hpvc => ?_⟩
  simp only [List.mem_cons, List.not_mem_nil, or_false] at hpvc
  rcases hpvc with rfl | rfl <;> rfl

/-- The size of the group's only template is compared with that of the cluster's: the StatefulSet is
deleted, and the claim of the cluster's template grows. -/
theorem converged_but_deleted :
    Converged (diskGroup [("b", 20)]) sharedDiskCluster (diskSet (sharedDisks 20))
      (groupClaims (diskWorld (sharedDisks 20)).cluster sharedDiskCluster "s") ∧
    (exec (serve {}) (scalePVCForSts (diskGroup [("b", 20)]) "s" sharedDiskCluster)
      (diskWorld (sharedDisks 20))).steps.filterMap (fun e => e.req.write) =
        [(.delete, .statefulSet, "d", "s"), (.patch, .persistentVolumeClaim, "d", "a-s-0")] :=
  ⟨converged_sharedDisks 20, by decide +kernel⟩

theorem in_bounds_disks :
    (exec (serve {}) (scalePVCForSts (diskGroup [("b", 20)]) "s" sharedDiskCluster)
      (diskWorld (sharedDisks 20))).res ≠ .error (.panic "index out of range") :=
  (in_bounds_iff _ "s" _ _ _ (by decide)).2 (.inl (by decide)) (serve {}) _ (finds_diskWorld _)

/-- A template that names its storage class. -/
def classedClaim (name storageClassName : String) (size : Quantity) :
    Obj .persistentVolumeClaim where
  metadata := { name := name, ns := "d" }
  body := {
    requests := some (Finmap.singleton "storage" size)
    storageClassName := some storageClassName }

/-- A group whose templates have these names, classes and sizes. -/
def classedGroup (disks : List (String × String × Quantity)) : DruidNodeSpec where
  nodeType := .historical
  druidPort := 8083
  replicas := 1
  volumeClaimTemplates := disks.map fun x => classedClaim x.1 x.2.1 x.2.2

/-- A group to which the second disk was added. -/
def addedDiskGroup : DruidNodeSpec := classedGroup [("a", "gp2", 10), ("b", "gp2", 10)]

def addedDiskCluster : Druid where
  metadata := { name := "c", ns := "d" }
  body := { spec := {
    image := "druid"
    nodes := ⟨[⟨"h", addedDiskGroup⟩], by simp⟩ } }

/-- The claims of two replicas with one disk. -/
def replicaClaims : Store .persistentVolumeClaim :=
  (Table.insert .empty (sizedClaim "a-s-0" (some (claimLabels "s")) 10)).insert
    (sizedClaim "a-s-1" (some (claimLabels "s")) 10)

def addedDiskWorld : World where
  cluster := { store := Function.update (Function.update (fun _ => .empty) .statefulSet
    (Table.insert .empty (diskSet [("a", 10)]))) .persistentVolumeClaim replicaClaims }

/-- The size of the template that was added is looked for in the StatefulSet. -/
theorem added_disk_overruns :
    verifyDruidSpec {} addedDiskCluster = .ok () ∧
    addedDiskGroup.volumeClaimTemplates.length ≤
      (groupClaims addedDiskWorld.cluster addedDiskCluster "s").length ∧
    (exec (serve {}) (scalePVCForSts addedDiskGroup "s" addedDiskCluster) addedDiskWorld).res =
      .error (.panic "index out of range") := by
  decide +kernel

end DruidOperator.Controller
