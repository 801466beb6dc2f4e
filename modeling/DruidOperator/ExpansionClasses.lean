import DruidOperator.ExpansionSteps

/-!
# Storage that can be expanded

`isVolumeExpansionEnabled` compares the pointer `AllowVolumeExpansion` of a class with a fresh
pointer. They always differ: the first template of the group decides for all of them, and what its
class says does not matter.

- `callTurns`: the requests of `expandStatefulSetVolumes`, by the template they are for.
- `expandable_only_iff`: for which groups and classes they are all for templates whose class can be
  expanded.
-/

namespace DruidOperator.Controller

open Interaction Prog Kube

/-! ## The requests by template -/

section Turns

variable {σ : Type}

/-- The turns of the loop, each with its template. -/
def turnsFor (h : Handler sig σ) (sts : Obj .statefulSet) :
    List (Object PersistentVolumeClaim) → List Quantity →
      List (Obj .persistentVolumeClaim × Quantity) → σ →
      List (Object PersistentVolumeClaim × List (Step sig σ))
  | [], _, _, _ => []
  | _ :: _, [], _, _ => []
  | template :: templates, current :: cur, pvcs, s =>
      let o := exec h (expandTemplate sts (storageOf template) current pvcs) s
      (template, o.steps) ::
        match o.res with
        | .ok resized => turnsFor h sts templates cur resized o.state
        | .error _ => []

theorem turnsFor_steps (h : Handler sig σ) (sts : Obj .statefulSet)
    (templates : List (Object PersistentVolumeClaim)) (cur : List Quantity)
    (pvcs : List (Obj .persistentVolumeClaim × Quantity)) (s : σ) :
    (exec h (expandTemplates sts (templates.map storageOf) cur pvcs) s).steps =
      ((turnsFor h sts templates cur pvcs s).map Prod.snd).flatten := by
  induction templates generalizing cur pvcs s with
  | nil => rfl
  | cons template templates ih =>
      cases cur with
      | nil => rfl
      | cons current cur =>
          rw [List.map_cons, expandTemplates, turnsFor]
          cases hres : (exec h (expandTemplate sts (storageOf template) current pvcs) s).res with
          | error e =>
              rw [exec_bind_error hres]
              simp
          | ok resized =>
              rw [exec_bind_ok hres, ih]
              rfl

/-- What the call looks up before the loop: the StatefulSet and the claims, if they are to be
expanded. -/
def lookUp (nodeSpec : DruidNodeSpec) (uniqueStr : String) (drd : Druid) :
    Code (Option (Obj .statefulSet × List (Obj .persistentVolumeClaim))) := do
  match ← listObjs .statefulSet drd.ns (makeLabelsForDruid drd) with
  | .error _ => return none
  | .ok getSTSList =>
      if allReady getSTSList then
        match ← getObj .statefulSet drd.ns uniqueStr with
        | .error _ => return none
        | .ok sts =>
            match ← listObjs .persistentVolumeClaim drd.ns (claimLabels uniqueStr) with
            | .error _ => return none
            | .ok pvcList =>
                return if pvcList.length < nodeSpec.volumeClaimTemplates.length then none
                  else some (sts, pvcList)
      else return none

def expansionTask (m : Druid) (nodeSpec : DruidNodeSpec) (uniqueStr : String) :
    Code (Option (Obj .statefulSet × List (Obj .persistentVolumeClaim))) := do
  let isEnabled ← isVolumeExpansionEnabled m nodeSpec.volumeClaimTemplates
  if isEnabled then lookUp nodeSpec uniqueStr m else return none

/-- The loop, if there is something to expand. -/
def expandTask (nodeSpec : DruidNodeSpec) :
    Option (Obj .statefulSet × List (Obj .persistentVolumeClaim)) → Code Unit
  | none => .ret ()
  | some (sts, pvcList) =>
      expandTemplates sts (nodeSpec.volumeClaimTemplates.map storageOf)
        (sts.body.spec.volumeClaimTemplates.map storageOf) (claimsInHand pvcList)

theorem scalePVCForSts_eq (nodeSpec : DruidNodeSpec) (uniqueStr : String) (drd : Druid) :
    scalePVCForSts nodeSpec uniqueStr drd =
      lookUp nodeSpec uniqueStr drd >>= expandTask nodeSpec := by
  unfold scalePVCForSts lookUp listObjs getObj
  simp only [call_bind, ret_bind]
  congr 1
  funext answer
  cases answer with
  | error err => rfl
  | ok getSTSList =>
      dsimp only
      split_ifs
      · simp only [call_bind]
        congr 1
        funext answer
        cases answer with
        | error err => rfl
        | ok sts =>
            simp only [call_bind]
            congr 1
            funext answer
            cases answer with
            | error err => rfl
            | ok pvcList =>
                dsimp only
                rw [expandClaims_eq_ite, List.length_map]
                split_ifs <;> rfl
      · rfl

theorem expandStatefulSetVolumes_eq (m : Druid) (nodeSpec : DruidNodeSpec) (uniqueStr : String) :
    expandStatefulSetVolumes m nodeSpec uniqueStr =
      expansionTask m nodeSpec uniqueStr >>= expandTask nodeSpec := by
  unfold expandStatefulSetVolumes expansionTask
  rw [bind_assoc]
  congr 1
  funext isEnabled
  cases isEnabled with
  | false => rfl
  | true => exact scalePVCForSts_eq nodeSpec uniqueStr m

/-- The turns of the call, each with its template. -/
def callTurns (h : Handler sig σ) (m : Druid) (nodeSpec : DruidNodeSpec)
    (uniqueStr : String) (s : σ) :
    List (Object PersistentVolumeClaim × List (Step sig σ)) :=
  match (exec h (expansionTask m nodeSpec uniqueStr) s).res with
  | .ok (some (sts, pvcList)) =>
      turnsFor h sts nodeSpec.volumeClaimTemplates
        (sts.body.spec.volumeClaimTemplates.map storageOf)
        (claimsInHand pvcList) (exec h (expansionTask m nodeSpec uniqueStr) s).state
  | _ => []

theorem callTurns_steps (h : Handler sig σ) (m : Druid) (nodeSpec : DruidNodeSpec)
    (uniqueStr : String) (s : σ) :
    (exec h (expandStatefulSetVolumes m nodeSpec uniqueStr) s).steps =
      (exec h (expansionTask m nodeSpec uniqueStr) s).steps ++
        ((callTurns h m nodeSpec uniqueStr s).map Prod.snd).flatten := by
  rw [expandStatefulSetVolumes_eq, callTurns]
  cases hres : (exec h (expansionTask m nodeSpec uniqueStr) s).res with
  | error e =>
      rw [exec_bind_error hres]
      simp
  | ok task =>
      rw [exec_bind_ok hres]
      cases task with
      | none => simp [expandTask]
      | some task => exact congrArg (_ ++ ·) (turnsFor_steps h task.1 _ _ _ _)

theorem expansionTask_reads (m : Druid) (nodeSpec : DruidNodeSpec) (uniqueStr : String) :
    (expansionTask m nodeSpec uniqueStr).Uses (Request.Within fun _ _ _ => False) := by
  refine (uses_isVolumeExpansionEnabled m _).bind fun isEnabled => ?_
  split_ifs
  · refine (uses_listObjs _ _ _ (by simp)).bind fun answer => ?_
    cases answer with
    | error err => trivial
    | ok getSTSList =>
        dsimp only
        split_ifs
        · refine (uses_getObj _ _ _ (by simp)).bind fun answer => ?_
          cases answer with
          | error err => trivial
          | ok sts =>
              refine (uses_listObjs _ _ _ (by simp)).bind fun answer => ?_
              cases answer <;> trivial
        · trivial
  · trivial

end Turns

/-! ## The turns that act -/

/-- The desired and the current size of a template. -/
def sizesOf (x : Object PersistentVolumeClaim × Quantity) : Quantity × Quantity :=
  (storageOf x.1, x.2)

/-- There is something to do for a template: its size has changed, or some claim has another one. -/
def Acts (pvcs : List (Obj .persistentVolumeClaim × Quantity))
    (x : Object PersistentVolumeClaim × Quantity) : Prop :=
  storageOf x.1 ≠ x.2 ∨ ∃ p ∈ pvcs, storageOf x.1 ≠ p.2

/-- Every template for which there is something to do is allowed, as far as the loop gets. -/
def AllowedTurns (allowed : Object PersistentVolumeClaim → Prop) (deleted : ℕ)
    (xs : List (Object PersistentVolumeClaim × Quantity))
    (pvcs : List (Obj .persistentVolumeClaim × Quantity)) : Prop :=
  ∀ before x, before ++ [x] <+: xs → Passable deleted (before.map sizesOf) →
    x.2 ≤ storageOf x.1 → Acts pvcs x → allowed x.1

section Allowed

variable {allowed : Object PersistentVolumeClaim → Prop} {deleted : ℕ}
  {pvcs : List (Obj .persistentVolumeClaim × Quantity)}

theorem acts_map_resize (desired : Quantity) (x : Object PersistentVolumeClaim × Quantity) :
    Acts (pvcs.map (resize desired)) x ↔ Acts pvcs x := by
  unfold Acts
  simp only [List.mem_map, exists_exists_and_eq_and, resize_snd]

theorem allowedTurns_cons (hdeleted : deleted ≤ 1) {x : Object PersistentVolumeClaim × Quantity}
    {xs : List (Object PersistentVolumeClaim × Quantity)} :
    AllowedTurns allowed deleted (x :: xs) pvcs ↔
      (x.2 ≤ storageOf x.1 → Acts pvcs x → allowed x.1) ∧
      (Passable deleted [sizesOf x] → AllowedTurns allowed (deleted + changed [sizesOf x]) xs
        (pvcs.map (resize (storageOf x.1)))) := by
  constructor
  · intro h
    refine ⟨h [] x
      (by simp) (passable_nil hdeleted), fun hpass before y hbefore hpass' hle hacts => ?_⟩
    refine h (x :: before) y ?_ ?_ hle ((acts_map_resize _ _).1 hacts)
    · rw [List.cons_append]
      exact (List.prefix_cons_inj x).2 hbefore
    · rw [List.map_cons]
      exact passable_cons.2 ⟨hpass.grows _ List.mem_cons_self, hpass'⟩
  · rintro ⟨hfirst, hrest⟩ before y hbefore hpass hle hacts
    cases before with
    | nil =>
        rw [List.nil_append, List.cons_prefix_cons] at hbefore
        rw [hbefore.1] at hle hacts ⊢
        exact hfirst hle hacts
    | cons z before =>
        rw [List.cons_append, List.cons_prefix_cons] at hbefore
        obtain ⟨rfl, hbefore⟩ := hbefore
        rw [List.map_cons, passable_cons] at hpass
        have hpass₁ : Passable deleted [sizesOf z] :=
          passable_cons.2 ⟨hpass.1, passable_nil (le_trans (Nat.le_add_right _ _) hpass.2.once)⟩
        exact hrest hpass₁ before y hbefore hpass.2 hle ((acts_map_resize _ _).2 hacts)

variable {env : Env} {w : World} {sts : Obj .statefulSet}
  {templates : List (Object PersistentVolumeClaim)} {cur : List Quantity}

/-- Whatever fails, the turns that write are for templates that are allowed. -/
theorem AtTurn.turnsAllowed (h : AtTurn w sts deleted pvcs) (henv : env.Alone)
    (hallowed : AllowedTurns allowed deleted (templates.zip cur) pvcs) :
    ∀ turn ∈ turnsFor (serve env) sts templates cur pvcs w, turn.2 ≠ [] → allowed turn.1 := by
  induction templates generalizing cur pvcs w deleted with
  | nil => exact fun turn hturn => by cases hturn
  | cons template templates ih =>
      cases cur with
      | nil => exact fun turn hturn => by cases hturn
      | cons current cur =>
          rw [List.zip_cons_cons, allowedTurns_cons h.once] at hallowed
          obtain ⟨hfirst, hrest⟩ := hallowed
          have hturn := h.turn henv (storageOf template, current)
          rw [turnsFor]
          refine List.forall_mem_cons.2 ⟨fun hsteps => ?_, ?_⟩
          · obtain ⟨e, he⟩ := List.exists_mem_of_ne_nil _ hsteps
            obtain ⟨hle, ⟨hne, -⟩ | ⟨-, p, hp, hne, -⟩⟩ := hturn.asked e he
            · exact hfirst hle (.inl hne)
            · exact hfirst hle (.inr ⟨p, hp, hne⟩)
          · cases hres : (exec (serve env) (expandTemplate sts (storageOf template) current pvcs)
              w).res with
            | error e => exact fun turn hturn => by cases hturn
            | ok resized =>
                obtain ⟨rfl, hnext⟩ := h.next (x := (storageOf template, current)) henv hres
                exact ih hnext (hrest (hturn.passed _ hres).1)

theorem AtTurn.acts (h : AtTurn w sts deleted pvcs) (henv : env.Calm)
    {x : Object PersistentVolumeClaim × Quantity} (hle : x.2 ≤ storageOf x.1)
    (hacts : Acts pvcs x) :
    (exec (serve env) (expandTemplate sts (storageOf x.1) x.2 pvcs) w).steps ≠ [] := by
  by_cases hne : storageOf x.1 ≠ x.2
  · rw [expandTemplate, if_neg (not_lt.2 hle), if_pos hne, deleteObj, call_bind, exec_call]
    exact List.cons_ne_nil _ _
  · obtain ⟨p, hp, hdiffers⟩ := hacts.resolve_left hne
    have hzero : changed [(storageOf x.1, x.2)] = 0 := by rw [changed_singleton, if_neg hne]
    have hpass : Passable deleted [(storageOf x.1, x.2)] :=
      ⟨by simpa using hle, by rw [hzero]; exact h.once⟩
    obtain ⟨e, he, -⟩ := turn_complete (h.served henv hpass) hp hdiffers
    exact List.ne_nil_of_mem he

/-- With every request served, the loop gets to every template that it can get to. -/
theorem AtTurn.allowedTurns (h : AtTurn w sts deleted pvcs) (henv : env.Calm)
    (hturns : ∀ turn ∈ turnsFor (serve env) sts templates cur pvcs w, turn.2 ≠ [] →
      allowed turn.1) :
    AllowedTurns allowed deleted (templates.zip cur) pvcs := by
  have hnil : ∀ deleted pvcs, AllowedTurns allowed deleted [] pvcs := by
    intro deleted pvcs before x hbefore
    simp at hbefore
  induction templates generalizing cur pvcs w deleted with
  | nil => exact hnil deleted pvcs
  | cons template templates ih =>
      cases cur with
      | nil => exact hnil deleted pvcs
      | cons current cur =>
          rw [List.zip_cons_cons, allowedTurns_cons h.once]
          rw [turnsFor, List.forall_mem_cons] at hturns
          refine ⟨fun hle hacts => hturns.1 (h.acts henv hle hacts), fun hpass => ?_⟩
          have hres := h.served henv hpass
          rw [show (exec (serve env) (expandTemplate sts (storageOf template) current pvcs) w).res
            = _ from hres] at hturns
          exact ih (h.next henv.alone hres).2 hturns.2

end Allowed

/-! ## Storage classes -/

/-- The class of the template is stored and says that it can be expanded. -/
def AllowsExpansion (c : Cluster) (m : Druid) (template : Object PersistentVolumeClaim) : Prop :=
  ∃ name sc, template.body.storageClassName = some name ∧
    c.find? .storageClass m.ns name = some sc ∧ sc.body.allowVolumeExpansion = some true

/-- The first template of the group has a class, whatever the class says. -/
def FirstClassed (c : Cluster) (m : Druid) (nodeSpec : DruidNodeSpec) : Prop :=
  ∃ template name sc, nodeSpec.volumeClaimTemplates.head? = some template ∧
    template.body.storageClassName = some name ∧ c.find? .storageClass m.ns name = some sc

section Call

variable {env : Env} {w : World} {m : Druid} {nodeSpec : DruidNodeSpec} {uniqueStr : String}

/-- The expansion is enabled by the class of the first template. -/
theorem isEnabled_alone (henv : env.Alone)
    (hres : (exec (serve env) (isVolumeExpansionEnabled m nodeSpec.volumeClaimTemplates) w).res =
      .ok true) :
    FirstClassed w.cluster m nodeSpec ∧
      (exec (serve env) (isVolumeExpansionEnabled m nodeSpec.volumeClaimTemplates) w).state =
        ⟨w.cluster, w.calls + 1⟩ := by
  cases htemplates : nodeSpec.volumeClaimTemplates with
  | nil =>
      rw [htemplates] at hres
      cases hres
  | cons template rest =>
      rw [htemplates, isVolumeExpansionEnabled] at hres
      rw [isVolumeExpansionEnabled]
      cases hname : template.body.storageClassName with
      | none =>
          rw [hname] at hres
          cases hres
      | some name =>
          rw [hname] at hres
          simp only [getObj, call_bind, ret_bind, exec_call] at hres ⊢
          cases hget : serve env (.get .storageClass m.ns name) w with
          | mk answer w' =>
              rw [hget] at hres
              cases answer with
              | error err => cases hres
              | ok sc =>
                  obtain ⟨hfind, rfl⟩ := get_alone henv hget
                  exact ⟨⟨template, name, sc, by rw [htemplates]; rfl, hname, hfind⟩, rfl⟩

theorem isEnabled_calm (henv : env.Calm) (h : FirstClassed w.cluster m nodeSpec) :
    (exec (serve env) (isVolumeExpansionEnabled m nodeSpec.volumeClaimTemplates) w).res =
      .ok true := by
  obtain ⟨template, name, sc, hhead, hname, hfind⟩ := h
  obtain ⟨rest, htemplates⟩ := List.head?_eq_some_iff.1 hhead
  rw [htemplates, isVolumeExpansionEnabled, hname]
  simp only [getObj, call_bind, ret_bind, exec_call, serve_calm henv, perform, hfind]
  rfl

theorem lookUp_alone (henv : env.Alone) {sts : Obj .statefulSet}
    {pvcList : List (Obj .persistentVolumeClaim)}
    (hres : (exec (serve env) (lookUp nodeSpec uniqueStr m) w).res = .ok (some (sts, pvcList))) :
    Attended w.cluster nodeSpec uniqueStr m sts ∧ pvcList = groupClaims w.cluster m uniqueStr ∧
      (exec (serve env) (lookUp nodeSpec uniqueStr m) w).state = ⟨w.cluster, w.calls + 3⟩ := by
  unfold lookUp listObjs getObj at hres ⊢
  simp only [call_bind, ret_bind, exec_call] at hres ⊢
  cases hlist : serve env (.list .statefulSet m.ns (makeLabelsForDruid m)) w with
  | mk answer w₁ =>
      rw [hlist] at hres
      cases answer with
      | error err => cases hres
      | ok stss =>
          dsimp only at hres ⊢
          obtain ⟨rfl, rfl⟩ := list_alone henv hlist
          split_ifs at hres ⊢ with hready
          · simp only [exec_call] at hres ⊢
            cases hget : serve env (.get .statefulSet m.ns uniqueStr) ⟨w.cluster, w.calls + 1⟩ with
            | mk answer w₂ =>
                rw [hget] at hres
                cases answer with
                | error err => cases hres
                | ok found =>
                    obtain ⟨hstored, rfl⟩ := get_alone henv hget
                    simp only [exec_call] at hres ⊢
                    cases hclaims : serve env (.list .persistentVolumeClaim m.ns
                        (claimLabels uniqueStr)) ⟨w.cluster, w.calls + 2⟩ with
                    | mk answer w₃ =>
                        rw [hclaims] at hres
                        cases answer with
                        | error err => cases hres
                        | ok claims =>
                            obtain ⟨rfl, rfl⟩ := list_alone henv hclaims
                            dsimp only at hres ⊢
                            by_cases hlength : (w.cluster.listed .persistentVolumeClaim m.ns
                                (claimLabels uniqueStr)).length <
                                  nodeSpec.volumeClaimTemplates.length
                            · rw [if_pos hlength] at hres
                              cases hres
                            · rw [if_neg hlength] at hres
                              cases hres
                              exact ⟨⟨hready, hstored, not_lt.1 hlength⟩, rfl, rfl⟩
          · cases hres

theorem lookUp_calm (henv : env.Calm) {sts : Obj .statefulSet}
    (h : Attended w.cluster nodeSpec uniqueStr m sts) :
    (exec (serve env) (lookUp nodeSpec uniqueStr m) w).res =
      .ok (some (sts, groupClaims w.cluster m uniqueStr)) := by
  have hfind : w.cluster.find? .statefulSet m.ns uniqueStr = some sts := h.stored
  have hlength : ¬ (w.cluster.listed .persistentVolumeClaim m.ns (claimLabels uniqueStr)).length <
      nodeSpec.volumeClaimTemplates.length := not_lt.2 h.enough
  unfold lookUp listObjs getObj
  simp only [call_bind, ret_bind, exec_call, serve_calm henv, perform, h.ready, hfind, if_true,
    if_neg hlength]
  rfl

theorem expansionTask_alone (henv : env.Alone) {sts : Obj .statefulSet}
    {pvcList : List (Obj .persistentVolumeClaim)}
    (hres : (exec (serve env) (expansionTask m nodeSpec uniqueStr) w).res =
      .ok (some (sts, pvcList))) :
    FirstClassed w.cluster m nodeSpec ∧ Attended w.cluster nodeSpec uniqueStr m sts ∧
      pvcList = groupClaims w.cluster m uniqueStr ∧
      (exec (serve env) (expansionTask m nodeSpec uniqueStr) w).state =
        ⟨w.cluster, w.calls + 4⟩ := by
  unfold expansionTask at hres ⊢
  obtain ⟨isEnabled, henabled, hres, -⟩ := exec_bind_returned hres
  rw [exec_bind_ok henabled]
  cases isEnabled with
  | false => cases hres
  | true =>
      obtain ⟨hclassed, hstate⟩ := isEnabled_alone henv henabled
      rw [if_pos rfl] at hres ⊢
      rw [hstate] at hres ⊢
      obtain ⟨hattended, hclaims, hstate'⟩ := lookUp_alone henv hres
      exact ⟨hclassed, hattended, hclaims, hstate'⟩

theorem expansionTask_calm (henv : env.Calm) (hclassed : FirstClassed w.cluster m nodeSpec)
    {sts : Obj .statefulSet} (hattended : Attended w.cluster nodeSpec uniqueStr m sts) :
    (exec (serve env) (expansionTask m nodeSpec uniqueStr) w).res =
      .ok (some (sts, groupClaims w.cluster m uniqueStr)) := by
  have henabled := isEnabled_calm henv hclassed
  have hstate := (isEnabled_alone henv.alone henabled).2
  rw [expansionTask, exec_bind_ok henabled, hstate]
  exact lookUp_calm (w := ⟨w.cluster, w.calls + 1⟩) henv hattended

end Call

/-- The requests that are written are for templates whose class can be expanded. -/
def ExpandsOnly (env : Env) (m : Druid) (nodeSpec : DruidNodeSpec) (uniqueStr : String)
    (w : World) : Prop :=
  ∀ turn ∈ callTurns (serve env) m nodeSpec uniqueStr w, turn.2 ≠ [] →
    AllowsExpansion w.cluster m turn.1

/-- Where the first template has a class and the call gets to the loop, every template for which
there is something to do has a class that can be expanded. -/
def ClassesAllow (m : Druid) (nodeSpec : DruidNodeSpec) (uniqueStr : String) (c : Cluster) : Prop :=
  FirstClassed c m nodeSpec → ∀ sts, Attended c nodeSpec uniqueStr m sts →
    AllowedTurns (AllowsExpansion c m) 0
      (nodeSpec.volumeClaimTemplates.zip (sts.body.spec.volumeClaimTemplates.map storageOf))
      (claimsInHand (groupClaims c m uniqueStr))

/-- **Expansion of storage that can be expanded.** What the call writes is in its turns. They are
for templates whose class can be expanded, whatever fails, exactly if the classes of the templates
that the loop acts for allow it. -/
theorem expandable_only_iff (m : Druid) (nodeSpec : DruidNodeSpec) (uniqueStr : String) (w : World)
    (hstocked : Stocked w.cluster m uniqueStr) :
    (∀ env : Env, ∃ reads, (∀ e ∈ reads, e.req.write = none) ∧
      (exec (serve env) (expandStatefulSetVolumes m nodeSpec uniqueStr) w).steps =
        reads ++ ((callTurns (serve env) m nodeSpec uniqueStr w).map Prod.snd).flatten) ∧
    ((∀ env : Env, env.Alone → ExpandsOnly env m nodeSpec uniqueStr w) ↔
      ClassesAllow m nodeSpec uniqueStr w.cluster) := by
  refine ⟨fun env => ⟨_, fun e he => ?_, callTurns_steps (serve env) m nodeSpec uniqueStr w⟩,
    ?_, ?_⟩
  · have hread := (expansionTask_reads m nodeSpec uniqueStr).steps he
    cases hwrite : e.req.write with
    | none => rfl
    | some write => exact (hread _ _ _ hwrite).elim
  · intro hall hclassed sts hattended
    have hcalm : Env.Calm {} := ⟨fun _ _ => rfl, fun _ => rfl⟩
    have hres := expansionTask_calm hcalm hclassed hattended
    obtain ⟨-, -, -, hstate⟩ := expansionTask_alone hcalm.alone hres
    have hturns := hall {} hcalm.alone
    unfold ExpandsOnly callTurns at hturns
    rw [hres, hstate] at hturns
    exact (hattended.atTurn hstocked (w.calls + 4)).allowedTurns hcalm hturns
  · intro hallow env henv turn hturn
    unfold callTurns at hturn
    split at hturn
    · next sts pvcList hres =>
        obtain ⟨hclassed, hattended, rfl, hstate⟩ := expansionTask_alone henv hres
        rw [hstate] at hturn
        exact (hattended.atTurn hstocked (w.calls + 4)).turnsAllowed henv
          (hallow hclassed sts hattended) turn hturn
    · cases hturn

/-! ## One disk -/

def slowClass (allowVolumeExpansion : Option Bool) : Obj .storageClass where
  metadata := { name := "slow" }
  body := { allowVolumeExpansion := allowVolumeExpansion }

/-- One disk of ten and its claim; this is what its class says. -/
def classedWorld (allowVolumeExpansion : Option Bool) : World where
  cluster := { store := Function.update (diskWorld [("a", 10)]).cluster.store .storageClass <|
    Table.insert .empty (slowClass allowVolumeExpansion) }

theorem stocked_classedWorld (allowVolumeExpansion : Option Bool) :
    Stocked (classedWorld allowVolumeExpansion).cluster diskCluster "s" := by
  have hclaims : groupClaims (classedWorld allowVolumeExpansion).cluster diskCluster "s" =
    [sizedClaim "a-s-0" (some (claimLabels "s")) 10] := rfl
  intro pvc hpvc
  rw [hclaims, List.mem_singleton] at hpvc
  rw [hpvc]
  exact ⟨rfl, by decide⟩

/-- A disk whose class can be expanded. -/
theorem expandable_only_disk :
    ExpandsOnly {} diskCluster (classedGroup [("a", "slow", 15)]) "s"
      (classedWorld (some true)) := by
  refine (expandable_only_iff diskCluster _ "s" _ (stocked_classedWorld (some true))).2.2 ?_ {}
    fun _ _ => rfl
  intro _ sts _ before x hbefore _ _ _
  have hmem : x ∈ (classedGroup [("a", "slow", 15)]).volumeClaimTemplates.zip
      (sts.body.spec.volumeClaimTemplates.map storageOf) :=
    hbefore.subset (List.mem_append_right _ List.mem_cons_self)
  have htemplate : x.1 = classedClaim "a" "slow" 15 := by
    have := (List.of_mem_zip hmem).1
    rwa [show (classedGroup [("a", "slow", 15)]).volumeClaimTemplates =
      [classedClaim "a" "slow" 15] from rfl, List.mem_singleton] at this
  rw [htemplate]
  exact ⟨"slow", slowClass (some true), rfl, rfl, rfl⟩

/-- The class of the only disk cannot be expanded. The StatefulSet is deleted and the claim
patched. -/
theorem expanded_though_forbidden :
    (exec (serve {}) (expandStatefulSetVolumes diskCluster (classedGroup [("a", "slow", 15)]) "s")
      (classedWorld (some false))).steps.filterMap (fun e => e.req.write) =
        [(.delete, .statefulSet, "d", "s"), (.patch, .persistentVolumeClaim, "d", "a-s-0")] ∧
    ¬ ExpandsOnly {} diskCluster (classedGroup [("a", "slow", 15)]) "s"
      (classedWorld (some false)) := by
  refine ⟨by decide +kernel, fun h => ?_⟩
  have hturns : (callTurns (serve {}) diskCluster (classedGroup [("a", "slow", 15)]) "s"
      (classedWorld (some false))).map (fun turn =>
        (turn.1.body.storageClassName, turn.2.length)) = [(some "slow", 2)] := by
    decide +kernel
  obtain ⟨turn, hturn, heq⟩ := List.mem_map.1 (hturns ▸ List.mem_cons_self)
  obtain ⟨hclass, hlength⟩ := Prod.mk.inj heq
  obtain ⟨name, sc, hname, hfind, hallows⟩ :=
    h turn hturn (by simp [← List.length_eq_zero_iff, hlength])
  cases hclass.symm.trans hname
  have hslow : sc = slowClass (some false) := (Option.some.inj hfind).symm
  rw [hslow] at hallows
  cases hallows

end DruidOperator.Controller
