import DruidOperator.Footprint
import DruidOperator.Lib.Runs

/-!
# Finalizers of other controllers

`updateFinalizers` replaces the whole list of finalizers by one computed from the copy of the
resource that the reconcile read. This file interleaves it with other controllers, which add and
remove finalizers of their own on the stored resource.
-/

namespace DruidOperator.Controller.FinalizerRuns

open Interaction Prog Kube Runs

/-- The resource of this key is followed. -/
structure State where
  world : World
  /-- The copy of the resource that the reconcile under way works on. -/
  copy : Option Druid := none
  /-- The finalizers that other controllers added and did not remove since. -/
  theirs : List String

inductive Action where
  /-- Another controller adds a finalizer to the stored resource. -/
  | add (finalizer : String)
  | remove (finalizer : String)
  /-- The operator reads the resource. -/
  | read
  /-- The operator goes on to `updateFinalizers`, with the copy it has. -/
  | update (fault : Option Fault)

/-- Change the stored finalizers of the resource. -/
def setFinalizers (key : String × String) (f : List String → List String) (c : Cluster) : Cluster :=
  (c.patch .druid key fun cr => withFinalizers cr (f cr.metadata.finalizers)).2

def stored (key : String × String) (s : State) : Option Druid :=
  (s.world.cluster.store .druid).find? key

def calmly (fault : Option Fault) : Env := { fault := fun _ => fault }

variable (key : String × String)

def step (s : State) : Action → State
  | .add finalizer =>
      -- a finalizer can only be added to a resource that is there
      if (stored key s).isSome then
        { s with
          world := { s.world with
            cluster := setFinalizers key (fun l => if finalizer ∈ l then l else l ++ [finalizer])
              s.world.cluster }
          theirs := if finalizer ∈ s.theirs then s.theirs else s.theirs ++ [finalizer] }
      else s
  | .remove finalizer =>
      { s with
        world := { s.world with
          cluster := setFinalizers key (fun l => removeString l finalizer) s.world.cluster }
        theirs := removeString s.theirs finalizer }
  | .read => { s with copy := stored key s }
  | .update fault =>
      match s.copy with
      | none => s
      | some m =>
          { s with
            world := (exec (serve (calmly fault)) (updateFinalizers m) s.world).state
            copy := none }

/-- Other controllers keep to finalizers of their own. -/
def Theirs : Action → Prop
  | .add finalizer => finalizer ≠ deletePVCFinalizerName
  | .remove finalizer => finalizer ≠ deletePVCFinalizerName
  | _ => True

/-- The stored finalizers, apart from the operator's own, are those of the other controllers; a
resource is only gone if they have none left. -/
def Kept (s : State) : Prop :=
  match stored key s with
  | some cr => ∀ f ≠ deletePVCFinalizerName, f ∈ cr.metadata.finalizers ↔ f ∈ s.theirs
  | none => s.theirs = []

/-- A patch that takes effect was computed from a copy with the finalizers that other controllers
have on the stored resource. -/
def Current (s : State) : Action → Prop
  | .update fault => ∀ m ∈ s.copy, m.metadata.finalizers ≠ desiredFinalizers m →
      (∀ f ∈ fault, f.applied = true) → ∀ cr ∈ stored key s, ∀ f ≠ deletePVCFinalizerName,
        f ∈ m.metadata.finalizers ↔ f ∈ cr.metadata.finalizers
  | _ => True

variable {key}

/-! ## One patch -/

/-- The desired finalizers differ from those read in the operator's own at most. -/
theorem mem_desiredFinalizers {m : Druid} {f : String} (hf : f ≠ deletePVCFinalizerName) :
    f ∈ desiredFinalizers m ↔ f ∈ m.metadata.finalizers := by
  unfold desiredFinalizers removeString
  by_cases hdisable : m.spec.disablePVCDeletionFinalizer = true <;> simp [hdisable, hf]

theorem stored_setFinalizers {s : State} {f : List String → List String} {cr : Druid}
    (hcr : stored key s = some cr) :
    ((setFinalizers key f s.world.cluster).store .druid).find? key =
      if cr.metadata.deletionTimestamp.isSome ∧ f cr.metadata.finalizers = [] then none
      else some (Object.withResourceVersion (withFinalizers cr (f cr.metadata.finalizers))
        (s.world.cluster.version + 1)) := by
  have hfound : (s.world.cluster.store .druid).find? key = some cr := hcr
  obtain rfl : cr.key = key := (Table.find?_eq_some.1 hfound).2
  unfold setFinalizers Cluster.patch
  rw [hfound]
  dsimp only
  rw [Cluster.modify_store_self, Cluster.put]
  by_cases hgone : cr.metadata.deletionTimestamp.isSome ∧ f cr.metadata.finalizers = []
  · rw [if_pos (by exact hgone), if_pos hgone, Table.find?_erase]
    exact if_pos rfl
  · rw [if_neg (by exact hgone), if_neg hgone,
      Table.find?_replace (by exact hfound ▸ Option.some_ne_none _)]
    exact if_pos rfl

/-- **One patch.** After a change of the stored finalizers, they are kept if and only if the new
list is that of the other controllers, apart from the operator's own. -/
theorem kept_setFinalizers_iff {s s' : State} {f : List String → List String} {cr : Druid}
    (hcr : stored key s = some cr)
    (hcluster : s'.world.cluster = setFinalizers key f s.world.cluster)
    (htheirs : deletePVCFinalizerName ∉ s'.theirs) :
    Kept key s' ↔ ∀ g ≠ deletePVCFinalizerName, g ∈ f cr.metadata.finalizers ↔ g ∈ s'.theirs := by
  unfold Kept stored
  rw [hcluster, stored_setFinalizers hcr]
  by_cases hgone : cr.metadata.deletionTimestamp.isSome ∧ f cr.metadata.finalizers = []
  · rw [if_pos hgone]
    simp only [hgone.2, List.not_mem_nil, false_iff]
    constructor
    · intro hnil g _
      simp [hnil]
    · intro hnone
      refine List.eq_nil_iff_forall_not_mem.2 fun g hg => ?_
      exact hnone g (fun heq => htheirs (heq ▸ hg)) hg
  · rw [if_neg hgone]
    rfl

/-- What `updateFinalizers` leaves behind: nothing, or the result of its one patch. -/
theorem exec_updateFinalizers {h : Handler sig World} (m : Druid) (w : World) :
    (exec h (updateFinalizers m) w).state =
      if m.metadata.finalizers ≠ desiredFinalizers m then
        (h (.patchFinalizers m (desiredFinalizers m)) w).2
      else w := by
  unfold updateFinalizers patchFinalizers
  split_ifs
  · simp only [call_bind, ret_bind, exec_call]
    cases (h (.patchFinalizers m (desiredFinalizers m)) w).1 <;> rfl
  · rfl

theorem serve_patchFinalizers {m : Druid} {l : List String} {w : World} (fault : Option Fault) :
    (serve (calmly fault) (.patchFinalizers m l) w).2.cluster =
      if ∀ f ∈ fault, f.applied = true then setFinalizers m.key (fun _ => l) w.cluster
      else w.cluster := by
  cases fault with
  | none =>
      rw [if_pos (by simp)]
      rfl
  | some f =>
      by_cases happlied : f.applied = true
      · rw [if_pos (by simpa using happlied)]
        simp only [serve, calmly, happlied]
        rfl
      · rw [if_neg (by simpa using happlied)]
        simp only [serve, calmly, happlied]
        rfl

/-! ## Runs -/

/-- The operator's finalizer is not one of the others', and its copy is one of the resource. -/
structure Own (key : String × String) (s : State) : Prop where
  theirs : deletePVCFinalizerName ∉ s.theirs
  copy : ∀ m ∈ s.copy, m.key = key

theorem Own.step {s : State} (hs : Own key s) {a : Action} (ha : Theirs a) :
    Own key (step key s a) := by
  cases a with
  | add finalizer =>
      simp only [FinalizerRuns.step]
      split_ifs with hstored hmem
      · exact ⟨hs.theirs, hs.copy⟩
      · refine ⟨?_, hs.copy⟩
        simpa using ⟨hs.theirs, Ne.symm ha⟩
      · exact hs
  | remove finalizer => exact ⟨fun h => hs.theirs (List.mem_of_mem_filter h), hs.copy⟩
  | read => exact ⟨hs.theirs, fun m hm => (Table.find?_eq_some.1 hm).2⟩
  | update fault =>
      simp only [FinalizerRuns.step]
      split
      · exact hs
      · exact ⟨hs.theirs, fun m hm => by cases hm⟩

theorem Kept.mem_iff {s : State} (hkept : Kept key s) {cr : Druid} (hcr : stored key s = some cr)
    {f : String} (hf : f ≠ deletePVCFinalizerName) :
    f ∈ cr.metadata.finalizers ↔ f ∈ s.theirs := by
  unfold Kept at hkept
  rw [hcr] at hkept
  exact hkept f hf

/-- Kept is a matter of the stored resource and the others' finalizers. -/
theorem kept_congr {s s' : State} (hcluster : s'.world.cluster = s.world.cluster)
    (htheirs : s'.theirs = s.theirs) : Kept key s' ↔ Kept key s := by
  unfold Kept stored
  rw [hcluster, htheirs]

theorem Kept.add {s : State} (hkept : Kept key s) (hs : Own key s) {finalizer : String}
    (hf : finalizer ≠ deletePVCFinalizerName) : Kept key (step key s (.add finalizer)) := by
  cases hcr : stored key s with
  | none => simpa [FinalizerRuns.step, hcr] using hkept
  | some cr =>
      have hown := (hs.step (a := .add finalizer) hf).theirs
      simp only [FinalizerRuns.step, hcr, Option.isSome_some, if_true] at hown ⊢
      refine (kept_setFinalizers_iff (f := fun l => if finalizer ∈ l then l else l ++ [finalizer])
        hcr rfl hown).2 fun g hg => ?_
      have hmem := hkept.mem_iff hcr hf
      split_ifs with h₁ h₂ h₂
      · exact hkept.mem_iff hcr hg
      · exact absurd (hmem.1 h₁) h₂
      · exact absurd (hmem.2 h₂) h₁
      · rw [List.mem_append, List.mem_append, hkept.mem_iff hcr hg]

theorem setFinalizers_of_none {c : Cluster} (f : List String → List String)
    (h : (c.store .druid).find? key = none) : setFinalizers key f c = c := by
  rw [setFinalizers, Cluster.patch, h]

theorem Kept.remove {s : State} (hkept : Kept key s) (hs : Own key s) {finalizer : String}
    (hf : finalizer ≠ deletePVCFinalizerName) : Kept key (step key s (.remove finalizer)) := by
  cases hcr : stored key s with
  | none =>
      have hnil : s.theirs = [] := by
        unfold Kept at hkept
        rwa [hcr] at hkept
      refine (kept_congr (setFinalizers_of_none _ hcr) ?_).2 hkept
      · show removeString s.theirs finalizer = s.theirs
        rw [hnil]
        rfl
  | some cr =>
      refine (kept_setFinalizers_iff hcr rfl (hs.step (a := .remove finalizer) hf).theirs).2
        fun g hg => ?_
      show g ∈ removeString cr.metadata.finalizers finalizer ↔ g ∈ removeString s.theirs finalizer
      simp [removeString, hkept.mem_iff hcr hg]

theorem update_cluster {s : State} {m : Druid} (hcopy : s.copy = some m) (fault : Option Fault) :
    (step m.key s (.update fault)).world.cluster =
      if m.metadata.finalizers ≠ desiredFinalizers m ∧ ∀ f ∈ fault, f.applied = true then
        setFinalizers m.key (fun _ => desiredFinalizers m) s.world.cluster
      else s.world.cluster := by
  simp only [FinalizerRuns.step, hcopy]
  rw [exec_updateFinalizers]
  by_cases hdesired : m.metadata.finalizers = desiredFinalizers m
  · rw [if_neg (not_not_intro hdesired), if_neg fun h => h.1 hdesired]
  · rw [if_pos hdesired, serve_patchFinalizers]
    simp only [ne_eq, hdesired, not_false_eq_true, true_and]

theorem update_theirs {s : State} (fault : Option Fault) :
    (step key s (.update fault)).theirs = s.theirs := by
  simp only [FinalizerRuns.step]
  split <;> rfl

/-- The operator keeps the others' finalizers if and only if its copy is current. -/
theorem kept_update_iff {s : State} (hkept : Kept key s) (hs : Own key s) {fault : Option Fault} :
    Kept key (step key s (.update fault)) ↔ Current key s (.update fault) := by
  cases hcopy : s.copy with
  | none =>
      simp only [FinalizerRuns.step, Current, hcopy, Option.not_mem_none, false_implies,
        implies_true, iff_true]
      exact hkept
  | some m =>
      obtain rfl : m.key = key := hs.copy m hcopy
      have hcluster := update_cluster hcopy fault
      have htheirs : (step m.key s (.update fault)).theirs = s.theirs := update_theirs fault
      simp only [Current, hcopy, Option.mem_some_iff, forall_eq']
      by_cases hpatch : m.metadata.finalizers ≠ desiredFinalizers m ∧ ∀ f ∈ fault, f.applied = true
      · rw [if_pos hpatch] at hcluster
        rw [forall_prop_of_true hpatch.1, forall_prop_of_true hpatch.2]
        cases hcr : stored m.key s with
        | none =>
            -- there is nothing to patch
            rw [setFinalizers_of_none _ hcr] at hcluster
            exact iff_of_true ((kept_congr hcluster htheirs).2 hkept) fun cr hcr => by cases hcr
        | some cr =>
            simp only [Option.mem_some_iff, forall_eq']
            rw [kept_setFinalizers_iff hcr hcluster (htheirs ▸ hs.theirs), htheirs]
            refine forall_congr' fun g => imp_congr_right fun hg => ?_
            rw [mem_desiredFinalizers hg, hkept.mem_iff hcr hg]
      · rw [if_neg hpatch] at hcluster
        refine iff_of_true ((kept_congr hcluster htheirs).2 hkept) fun hdesired happlied => ?_
        exact absurd ⟨hdesired, happlied⟩ hpatch

/-- **One step.** -/
theorem kept_step_iff {s : State} (hkept : Kept key s) (hs : Own key s) {a : Action}
    (ha : Theirs a) : Kept key (step key s a) ↔ Current key s a := by
  cases a with
  | add finalizer => exact iff_of_true (hkept.add hs ha) trivial
  | remove finalizer => exact iff_of_true (hkept.remove hs ha) trivial
  | read => exact iff_of_true ((kept_congr (s := s) rfl rfl).2 hkept) trivial
  | update fault => exact kept_update_iff hkept hs

/-- The state in which the resource `cr` is stored and no reconcile is under way. -/
def start (key : String × String) (w : World) : State where
  world := w
  theirs := ((w.cluster.store .druid).find? key).elim [] fun cr =>
    removeString cr.metadata.finalizers deletePVCFinalizerName

theorem own_start (w : World) : Own key (start key w) := by
  refine ⟨?_, fun m hm => by cases hm⟩
  unfold start
  cases (w.cluster.store .druid).find? key <;> simp [removeString]

theorem kept_start (w : World) : Kept key (start key w) := by
  unfold Kept stored start
  cases (w.cluster.store .druid).find? key with
  | none => rfl
  | some cr =>
      intro f hf
      simp [removeString, hf]

/-- **Finalizers of other controllers.** In every interleaving with other controllers, their
finalizers are those stored after every step if and only if every patch of the operator that takes
effect was computed from a copy that had them all. -/
theorem others_finalizers_kept_iff (w : World) {acts : List Action} (hacts : ∀ a ∈ acts, Theirs a) :
    (∀ before after, acts = before ++ after → Kept key (run (step key) (start key w) before)) ↔
      Meets (step key) (Current key) (start key w) acts := by
  have hrun : ∀ s, Own key s → Kept key s →
      ((∀ before after, acts = before ++ after → Kept key (run (step key) s before)) ↔
        Meets (step key) (Current key) s acts) := by
    induction acts with
    | nil =>
        intro s _ hkept
        refine iff_of_true (fun before after heq => ?_) trivial
        obtain ⟨rfl, -⟩ := List.append_eq_nil_iff.1 heq.symm
        exact hkept
    | cons a acts ih =>
        intro s hs hkept
        have ha := hacts a List.mem_cons_self
        have hstep := kept_step_iff hkept hs ha
        have hrest := ih (fun b hb => hacts b (List.mem_cons_of_mem a hb))
        rw [meets_cons]
        constructor
        · intro hall
          have hfirst : Kept key (step key s a) := hall [a] acts rfl
          refine ⟨hstep.1 hfirst, (hrest _ (hs.step ha) hfirst).1 fun before after heq => ?_⟩
          exact hall (a :: before) after (by rw [heq]; rfl)
        · intro hmeets before after heq
          cases before with
          | nil => exact hkept
          | cons b before =>
              obtain ⟨rfl, htail⟩ := List.cons.inj heq
              exact (hrest _ (hs.step ha) (hstep.2 hmeets.1)).2 hmeets.2 before after htail
  exact hrun _ (own_start w) (kept_start w)

/-! ## A backup controller -/

/-- A resource without finalizers. -/
def analytics : Druid where
  metadata := { name := "c", ns := "d" }
  body := { spec := { image := "v1" } }

/-- A finalizer that was added before the operator read the resource is kept. -/
theorem others_finalizers_kept_backup :
    (∀ a ∈ [Action.add "backup", .read, .update none, .remove "backup"], Theirs a) ∧
    ∀ before after, [.add "backup", .read, .update none, .remove "backup"] = before ++ after →
      Kept ("d", "c")
        (run (step ("d", "c")) (start ("d", "c") (storedAlone analytics)) before) := by
  have hacts : ∀ a ∈ [Action.add "backup", .read, .update none, .remove "backup"], Theirs a := by
    simp [Theirs, deletePVCFinalizerName]
  refine ⟨hacts, (others_finalizers_kept_iff (storedAlone analytics) hacts).2 ?_⟩
  refine ⟨trivial, trivial, ?_, trivial, trivial⟩
  intro m hm _ _ cr hcr f _
  obtain rfl : m = cr := Option.some.inj (hm.symm.trans hcr)
  rfl

/-- The stored finalizers after a run, and those of the other controllers. -/
def outcome (acts : List Action) : Option (List String) × List String :=
  let s := run (step ("d", "c")) (start ("d", "c") (storedAlone analytics)) acts
  ((stored ("d", "c") s).map (·.metadata.finalizers), s.theirs)

/-- A finalizer that is added between the read and the patch is lost, and one that is removed there
comes back. -/
theorem backup_overwritten :
    outcome [.read, .add "backup", .update none] = (some [deletePVCFinalizerName], ["backup"]) ∧
      outcome [.add "backup", .read, .remove "backup", .update none] =
        (some ["backup", deletePVCFinalizerName], []) := by
  decide +kernel

end DruidOperator.Controller.FinalizerRuns
