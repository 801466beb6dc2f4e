import DruidOperator.OrphanClaims
import Mathlib.Data.Nat.Digits.Lemmas
import Mathlib.Tactic.Linarith

/-!
# Orphaned claims over many passes

The memory of `deleteOrphanPVC` between two calls is the pair of labels on the claim itself. A pass
that finds every pod healthy keeps it up to date: it marks what nobody mounts, unmarks what
somebody mounts, and deletes what it finds marked for 60 seconds. A pass that finds a pod unhealthy
returns before it looks at the claims, so a mark may outlive passes that saw the claim mounted.
-/

namespace DruidOperator.Controller

open Interaction Prog Kube Runs

variable {t : Int} {env : Env} {c : Cluster} {k : Kind} {obj : Obj k} {w : World}
    {pvc : Obj .persistentVolumeClaim}

/-! ## Times -/

/-- A time the arithmetic of 64 bits does not wrap around for. -/
def InRange (t : Int) : Prop := -2 ^ 62 ≤ t ∧ t ≤ 2 ^ 62
deriving Decidable

theorem parseDigits_toDigits (n : ℕ) : parseDigits (Nat.toDigits 10 n) = some n := by
  have hdigits : (Nat.toDigits 10 n).all Char.isDigit = true := List.all_eq_true.2 fun c hc =>
    Nat.isDigit_of_mem_toDigits (by decide) (by decide) hc
  rw [parseDigits, if_pos ⟨Nat.toDigits_ne_nil, hdigits⟩,
    Nat.ofDigitChars_toDigits (by decide) (by decide)]

theorem parseInt_formatInt (ht : InRange t) : parseInt (formatInt t) = some t := by
  have hrange : -2 ^ 63 ≤ t ∧ t < 2 ^ 63 := by
    obtain ⟨hlow, hhigh⟩ := ht
    constructor <;> linarith
  unfold formatInt parseInt
  by_cases hneg : t < 0
  · have habs : -(t.natAbs : Int) = t := by omega
    have hcond : -2 ^ 63 ≤ -(t.natAbs : Int) ∧ -(t.natAbs : Int) < 2 ^ 63 := by rwa [habs]
    rw [if_pos hneg, String.toList_ofList]
    simp only [parseDigits_toDigits]
    change (some (-(t.natAbs : Int))).bind _ = _
    rw [Option.bind_some, if_pos hcond, habs]
  · have habs : (t.natAbs : Int) = t := by omega
    have hcond : -2 ^ 63 ≤ (t.natAbs : Int) ∧ (t.natAbs : Int) < 2 ^ 63 := by rwa [habs]
    rw [if_neg hneg, String.toList_ofList]
    cases hcs : Nat.toDigits 10 t.natAbs with
    | nil => exact absurd hcs Nat.toDigits_ne_nil
    | cons c cs =>
        have hparse : parseDigits (c :: cs) = some t.natAbs := hcs ▸ parseDigits_toDigits _
        -- a digit is not a sign
        have hc : c.isDigit = true :=
          Nat.isDigit_of_mem_toDigits (by decide) (by decide) (hcs ▸ List.mem_cons_self)
        split
        · next heq =>
            cases heq
            cases hc
        · next heq =>
            cases heq
            cases hc
        · simp only [hparse]
          change (some (t.natAbs : Int)).bind _ = _
          rw [Option.bind_some, if_pos hcond, habs]

theorem wrap64_of_mem {n : Int} (hlow : -2 ^ 63 ≤ n) (hhigh : n < 2 ^ 63) : wrap64 n = n :=
  Int.bmod_eq_of_le (by norm_num; linarith) (by norm_num; linarith)

theorem addSeconds_of_mem {d : Int} (hlow : -2 ^ 63 ≤ t + d) (hhigh : t + d < 2 ^ 63) :
    addSeconds t d = t + d := by
  have hiff : t < t + d ↔ 0 < d := by omega
  unfold addSeconds
  simp only [wrap64_of_mem hlow hhigh, hiff, if_true]

theorem subTimes_of_near {u : Int} (hu : -2 ^ 63 ≤ u) (hle : u ≤ t) (hlt : t < u + 60)
    (ht : t < 2 ^ 63) : subTimes t u = (t - u) * 10 ^ 9 := by
  have hinner : wrap64 (t - u) = t - u := wrap64_of_mem (by linarith) (by linarith)
  have houter : wrap64 ((t - u) * 10 ^ 9) = (t - u) * 10 ^ 9 :=
    wrap64_of_mem (by nlinarith) (by nlinarith)
  have hsum : u + (t - u) = t := by ring
  have hadd : addSeconds u (t - u) = t := by
    rw [addSeconds_of_mem (by linarith) (by linarith), hsum]
  unfold subTimes
  dsimp only
  rw [hinner, houter, Int.mul_emod_left, Int.mul_ediv_cancel _ (by norm_num), hadd]
  simp

theorem wrap64_bounds (n : Int) : -2 ^ 63 ≤ wrap64 n ∧ wrap64 n < 2 ^ 63 := by
  have hlow := Int.le_bmod (x := n) (m := 2 ^ 64) (by norm_num)
  have hhigh := Int.bmod_lt (x := n) (m := 2 ^ 64) (by norm_num)
  norm_num [wrap64] at hlow hhigh ⊢
  exact ⟨hlow, hhigh⟩

/-- A difference that leads back from one time to the other is right. -/
theorem eq_of_addSeconds {u d : Int} (hd : -2 ^ 63 ≤ d ∧ d < 2 ^ 63) (hu : -2 ^ 62 ≤ u)
    (hu' : u ≤ 2 ^ 62 + 2 ^ 60) (hexact : d % 10 ^ 9 = 0 ∧ addSeconds u (d / 10 ^ 9) = t) :
    d = (t - u) * 10 ^ 9 := by
  obtain ⟨hwhole, hadd⟩ := hexact
  have hmul : d = d / 10 ^ 9 * 10 ^ 9 := by
    have := Int.emod_add_mul_ediv d (10 ^ 9)
    linarith
  have hlow : -2 ^ 60 ≤ d / 10 ^ 9 := Int.le_ediv_of_mul_le (by norm_num) (by linarith)
  have hhigh : d / 10 ^ 9 < 2 ^ 60 := Int.ediv_lt_of_lt_mul (by norm_num) (by linarith)
  rw [addSeconds_of_mem (by linarith) (by linarith)] at hadd
  rw [← hadd, add_sub_cancel_left]
  exact hmul

/-- Whether a minute has passed is found rightly, however far the times are apart. -/
theorem minute_le_subTimes_iff {u : Int} (ht : t < 2 ^ 63) (hu : -2 ^ 62 ≤ u)
    (hu' : u ≤ 2 ^ 62 + 2 ^ 60) : 60 * 10 ^ 9 ≤ subTimes t u ↔ u + 60 ≤ t := by
  by_cases hnear : u ≤ t ∧ t < u + 60
  · rw [subTimes_of_near (by linarith) hnear.1 hnear.2 ht]
    constructor <;> intro h <;> linarith [hnear.2]
  · unfold subTimes
    dsimp only
    split_ifs with hexact hlt
    · rw [eq_of_addSeconds (wrap64_bounds _) hu hu' hexact]
      constructor <;> intro h <;> linarith
    · constructor
      · norm_num [minDuration]
      · intro h
        linarith
    · have hfar : u + 60 ≤ t := by
        by_contra h
        exact hnear ⟨by linarith, by linarith⟩
      constructor
      · exact fun _ => hfar
      · norm_num [maxDuration]

theorem minute_le_tdiv_iff (d : Int) : 60 ≤ d.tdiv (10 ^ 9) ↔ 60 * 10 ^ 9 ≤ d := by
  rcases le_total 0 d with hpos | hneg
  · rw [Int.tdiv_eq_ediv_of_nonneg hpos, Int.le_ediv_iff_mul_le (by norm_num)]
  · have hnonpos := Int.tdiv_nonneg (Int.neg_nonneg_of_nonpos hneg)
        (by norm_num : (0 : Int) ≤ 10 ^ 9)
    rw [Int.neg_tdiv] at hnonpos
    constructor <;> intro h <;> linarith

/-- The time of day as the library holds it: its seconds since the year 1 are an integer of 64
bits. -/
def Representable (t : Int) : Prop := -2 ^ 63 ≤ t ∧ t + 62135596800 < 2 ^ 63
deriving Decidable

theorem InRange.representable (h : InRange t) : Representable t := by
  obtain ⟨hlow, hhigh⟩ := h
  constructor <;> linarith

theorem minute_le_timeDifference_iff {t₁ t₂ : Int} (h₁ : InRange t₁) (h₂ : Representable t₂) :
    60 ≤ timeDifference t₁ t₂ ↔ t₁ + 60 ≤ t₂ := by
  obtain ⟨hlow₁, hhigh₁⟩ := h₁
  obtain ⟨hlow₂, hhigh₂⟩ := h₂
  have hu : internalSeconds t₁ = t₁ + 62135596800 := wrap64_of_mem (by linarith) (by linarith)
  have ht : internalSeconds t₂ = t₂ + 62135596800 := wrap64_of_mem (by linarith) (by linarith)
  rw [timeDifference, hu, ht, minute_le_tdiv_iff,
    minute_le_subTimes_iff hhigh₂ (by linarith) (by linarith)]
  constructor <;> intro h <;> linarith

/-! ## One pass -/

/-- The pods a pass looks at. -/
def seenPods (m : Druid) (c : Cluster) : List (Obj .pod) :=
  c.listed .pod m.ns (makeLabelsForDruid m)

/-- The claims a pass looks at. -/
def seenClaims (m : Druid) (c : Cluster) : List (Obj .persistentVolumeClaim) :=
  c.listed .persistentVolumeClaim m.ns (orphanLabels m)

def pass (m : Druid) (env : Env) (c : Cluster) : Outcome sig World Exit Unit :=
  exec (serve env) (deleteOrphanPVC m) ⟨c, 0⟩

/-- The claims, one after the other, after the two lists were read. -/
def sweepClaims (m : Druid) (env : Env) (c : Cluster) : Outcome sig World Exit Unit :=
  exec (serve env) (forEach (collectPVC (mountedPVCs (seenPods m c))) (seenClaims m c)) ⟨c, 2⟩

/-- A step that only reads. -/
def Reads (e : Step sig World) : Prop := e.req.write = none

/-- The pass gets to the claims: both lists were read, and every pod is healthy. -/
structure Sweeps (m : Druid) (env : Env) (c : Cluster) : Prop where
  pods : env.fault 0 = none
  claims : env.fault 1 = none
  healthy : (seenPods m c).all podHealthy = true

/-- A pass that gets to the claims does what the loop over them does. -/
theorem Sweeps.pass_eq {m : Druid} (h : Sweeps m env c) (henv : env.Alone) :
    (pass m env c).state = (sweepClaims m env c).state ∧
      ∃ reads, (∀ e ∈ reads, Reads e) ∧ (pass m env c).steps = reads ++
        (sweepClaims m env c).steps := by
  have hpods : serve env (.list .pod m.ns (makeLabelsForDruid m)) ⟨c, 0⟩ =
      (.ok (seenPods m c), ⟨c, 1⟩) := serve_alone henv h.pods
  have hclaims : serve env (.list .persistentVolumeClaim m.ns (orphanLabels m)) ⟨c, 1⟩ =
      (.ok (seenClaims m c), ⟨c, 2⟩) := serve_alone henv h.claims
  unfold pass deleteOrphanPVC listObjs
  simp only [call_bind, ret_bind, exec_call, hpods, orReturn_ok, hclaims, if_pos h.healthy]
  refine ⟨rfl, [_, _], ?_, rfl⟩
  intro e he
  simp only [List.mem_cons, List.not_mem_nil, or_false] at he
  rcases he with rfl | rfl <;> rfl

/-- A pass that does not get there reads and changes nothing. -/
theorem pass_reads {m : Druid} (h : ¬ Sweeps m env c) (henv : env.Alone) :
    (pass m env c).state.cluster = c ∧ ∀ e ∈ (pass m env c).steps, Reads e := by
  have hread : ∀ k ns sel n, (serve env (.list k ns sel) ⟨c, n⟩).2 = ⟨c, n + 1⟩ :=
    fun k ns sel n => serve_read henv rfl
  unfold pass deleteOrphanPVC listObjs
  simp only [call_bind, ret_bind, exec_call, hread]
  cases hpods : env.fault 0 with
  | some f =>
      rw [serve_fault (by exact hpods)]
      exact ⟨rfl, by simp [Response.fail, Reads, Request.write]⟩
  | none =>
      have hpods' : (serve env (.list .pod m.ns (makeLabelsForDruid m)) ⟨c, 0⟩).1 =
          .ok (seenPods m c) := congrArg Prod.fst (serve_alone henv hpods)
      rw [hpods']
      simp only [orReturn_ok, ret_bind, exec_call, hread]
      cases hclaims : env.fault 1 with
      | some f =>
          rw [serve_fault (by exact hclaims)]
          exact ⟨rfl, by simp [Response.fail, Reads, Request.write]⟩
      | none =>
          have hclaims' :
              (serve env (.list .persistentVolumeClaim m.ns (orphanLabels m)) ⟨c, 1⟩).1 =
              .ok (seenClaims m c) := congrArg Prod.fst (serve_alone henv hclaims)
          have hunhealthy : ¬ (seenPods m c).all podHealthy = true :=
            fun hh => h ⟨hpods, hclaims, hh⟩
          rw [hclaims']
          simp only [orReturn_ok, ret_bind, if_neg hunhealthy]
          exact ⟨rfl, by simp [Reads, Request.write]⟩

/-! ## One claim -/

theorem labels_of_update {clock : Int} {o : Obj k}
    (hok : (perform clock (.update k obj) c).1 = .ok ())
    (ho : ((perform clock (.update k obj) c).2.store k).find? obj.key = some o) :
    o.metadata.labels = obj.metadata.labels := by
  simp only [perform] at hok ho
  split at ho
  · next hnone =>
      rw [hnone] at hok
      cases hok
  · next stored hstored =>
      simp only [hstored] at hok
      split_ifs at hok ho
      rw [Cluster.modify_store_self] at ho
      have hkey : (updated k stored obj).key = obj.key := rfl
      by_cases hgone : (updated k stored obj).metadata.deletionTimestamp.isSome ∧
          (updated k stored obj).metadata.finalizers = []
      · rw [Cluster.put, if_pos hgone, Table.find?_erase, if_pos hkey] at ho
        cases ho
      · have hput := Cluster.find?_put_self (updated k stored obj) (c.version + 1)
          (t := c.store k) hgone (by rw [hkey, hstored]; simp)
        rw [hkey] at hput
        cases hput.symm.trans ho
        rfl

theorem perform_update_error {clock : Int} {e : Error}
    (herr : (perform clock (.update k obj) c).1 = .error e) :
    (perform clock (.update k obj) c).2 = c := by
  simp only [perform] at herr ⊢
  split
  · rfl
  · next stored hstored =>
      simp only [hstored] at herr
      split_ifs at herr ⊢
      rfl

theorem find?_update_cases (henv : env.Alone) {o : Obj k}
    (ho : ((serve env (.update k obj) w).2.cluster.store k).find? obj.key = some o) :
    (w.cluster.store k).find? obj.key = some o ∨ o.metadata.labels = obj.metadata.labels := by
  rcases serve_state env (.update k obj) w with hstate | hstate
  · rw [hstate, seen_alone henv] at ho
    cases hres : (perform env.clock (.update k obj) w.cluster).1 with
    | error e =>
        dsimp only at ho
        rw [perform_update_error hres] at ho
        exact .inl ho
    | ok u => exact .inr (labels_of_update hres ho)
  · rw [hstate, seen_alone henv] at ho
    exact .inl ho

theorem find?_of_delete (henv : env.Alone) {o : Obj k} {orphan : Bool}
    (ho : ((serve env (.delete k obj orphan) w).2.cluster.store k).find? obj.key = some o) :
    (w.cluster.store k).find? obj.key = some o := by
  rcases serve_state env (.delete k obj orphan) w with hstate | hstate
  · rw [hstate, seen_alone henv] at ho
    simp only [perform] at ho
    split at ho
    · exact ho
    · dsimp only at ho
      rw [Cluster.modify_store_self, Table.find?_erase, if_pos rfl] at ho
      cases ho
  · rw [hstate, seen_alone henv] at ho
    exact ho

theorem serve_now (env : Env) (w : World) : (serve env .now w).1 = env.clock := by
  simp only [serve]
  split <;> rfl

/-- Every mark is one of `c`, or was made at `t`. -/
def MarksFrom (c : Cluster) (t : Int) (w : World) : Prop :=
  ∀ key o, (w.cluster.store .persistentVolumeClaim).find? key = some o → isMarked o = true →
    (c.store .persistentVolumeClaim).find? key = some o ∨ deletionTS o = formatInt t

/-- Nobody mounts the claim, and its mark is 60 seconds old. -/
structure FoundOld (mounted : List String) (t : Int) (pvc : Obj .persistentVolumeClaim) : Prop where
  unmounted : pvc.name ∉ mounted
  marked : isMarked pvc = true
  old : ∃ τ, parseInt (deletionTS pvc) = some τ ∧ 60 ≤ timeDifference τ t

/-- Of the claims, the step deletes at most an old one. -/
def DeletesOld (mounted : List String) (t : Int) (claims : List (Obj .persistentVolumeClaim))
    (e : Step sig World) : Prop :=
  ∀ obj orphan, e.req = .delete .persistentVolumeClaim obj orphan →
    obj ∈ claims ∧ FoundOld mounted t obj

section Claim

variable {env : Env} (henv : env.Alone) {c : Cluster} {w : World} {pvc : Obj .persistentVolumeClaim}

include henv

theorem MarksFrom.read (hw : MarksFrom c env.clock w) {r : Request} (hr : r.write = none) :
    MarksFrom c env.clock (serve env r w).2 := by
  rw [serve_read henv hr]
  exact hw

theorem MarksFrom.delete (hw : MarksFrom c env.clock w) (orphan : Bool) :
    MarksFrom c env.clock (serve env (.delete .persistentVolumeClaim pvc orphan) w).2 := by
  intro key o ho hmarked
  by_cases hkey : key = pvc.key
  · rw [hkey] at ho ⊢
    exact hw _ _ (find?_of_delete henv ho) hmarked
  · rw [serve_frame henv] at ho
    · exact hw _ _ ho hmarked
    · intro v h
      cases h
      exact hkey rfl

theorem MarksFrom.update (hw : MarksFrom c env.clock w) {labels : Option StrMap}
    (hlabels : isMarked (withLabels pvc labels) = true →
      deletionTS (withLabels pvc labels) = formatInt env.clock) :
    MarksFrom c env.clock
      (serve env (.update .persistentVolumeClaim (withLabels pvc labels)) w).2 := by
  intro key o ho hmarked
  by_cases hkey : key = (withLabels pvc labels).key
  · rw [hkey] at ho ⊢
    rcases find?_update_cases henv ho with hold | hnew
    · exact hw _ _ hold hmarked
    · simp only [isMarked, hasLabel, deletionTS, hnew] at hmarked hlabels ⊢
      exact .inr (hlabels hmarked)
  · rw [serve_frame henv] at ho
    · exact hw _ _ ho hmarked
    · intro v h
      cases h
      exact hkey rfl

end Claim

theorem deletionTS_marked (pvc : Obj .persistentVolumeClaim) (labels : StrMap) (t : Int) :
    deletionTS (withLabels pvc (some (marked labels t))) = formatInt t := by
  simp [deletionTS, withLabels, marked, StrMap.getD]

theorem not_isMarked_unmarked (pvc : Obj .persistentVolumeClaim) (labels : Option StrMap) :
    isMarked (withLabels pvc (labels.map unmarked)) = false := by
  cases labels with
  | none => rfl
  | some labels =>
      have hne : toBeDeletedLabel ≠ deletionTSLabel := by decide
      simp [isMarked, hasLabel, withLabels, unmarked, Finmap.lookup_erase_ne hne]

/-- A claim is dealt with: the marks are those there were or new ones, and it is deleted only if
its mark is old. -/
theorem triple_collectPVC (henv : env.Alone) (mounted : List String)
    {claims : List (Obj .persistentVolumeClaim)} (hpvc : pvc ∈ claims) :
    Triple (serve env) (MarksFrom c env.clock) (collectPVC mounted pvc)
      (fun _ => MarksFrom c env.clock) (DeletesOld mounted env.clock claims) := by
  have hset : ∀ labels, (isMarked (withLabels pvc labels) = true →
      deletionTS (withLabels pvc labels) = formatInt env.clock) →
      Triple (serve env) (MarksFrom c env.clock) (setPVCLabels pvc labels)
        (fun _ => MarksFrom c env.clock) (DeletesOld mounted env.clock claims) := by
    intro labels hlabels
    unfold setPVCLabels updateObj
    simp only [call_bind, ret_bind]
    refine Triple.step (M := fun _ => MarksFrom c env.clock) (fun w _ obj orphan h => by cases h)
      (fun w hw => hw.update henv hlabels) fun answer => ?_
    cases answer with
    | error e => exact Triple.exit fun w hw => hw
    | ok u => exact Triple.ret fun w hw => hw
  unfold collectPVC
  split_ifs with hmount hmark hmark
  · -- mounted and marked
    refine hset _ fun h => ?_
    rw [not_isMarked_unmarked] at h
    cases h
  · exact Triple.ret fun w hw => hw
  · -- neither mounted nor new
    unfold checkPVCLabelsAndDelete
    cases hts : parseInt (deletionTS pvc) with
    | none => exact Triple.exit fun w hw => hw
    | some τ =>
        unfold unixNow deleteObj
        simp only [call_bind, ret_bind]
        refine Triple.step (M := fun t w => MarksFrom c env.clock w ∧ t = env.clock)
          (fun w _ obj orphan h => by cases h) (fun w hw => ⟨hw.read henv rfl, ?_⟩) fun t => ?_
        · exact serve_now env w
        · split_ifs with hold
          · refine Triple.step (M := fun _ => MarksFrom c env.clock) (fun w hw obj orphan h => ?_)
              (fun w hw => hw.1.delete henv false) fun answer => ?_
            · cases h
              exact ⟨hpvc, hmount, hmark, τ, hts, hw.2 ▸ hold⟩
            · cases answer with
              | error e => exact Triple.exit fun w hw => hw
              | ok u => exact Triple.ret fun w hw => hw
          · exact Triple.ret fun w hw => hw.1
  · cases hlabels : pvc.metadata.labels with
    | none => exact Triple.exit fun w hw => hw
    | some labels =>
        unfold unixNow
        simp only [call_bind, ret_bind]
        refine Triple.step (M := fun t w => MarksFrom c env.clock w ∧ t = env.clock)
          (fun w _ obj orphan h => by cases h) (fun w hw => ⟨hw.read henv rfl, ?_⟩) fun t => ?_
        · exact serve_now env w
        · rintro w ⟨hw, rfl⟩
          exact hset _ (fun _ => deletionTS_marked pvc labels env.clock) w hw

/-- **What a pass does to the marks.** Every mark afterwards was there before or is new, and only
claims that nobody mounts and whose mark is old are deleted. -/
theorem pass_marks (henv : env.Alone) (m : Druid) (c : Cluster) :
    MarksFrom c env.clock (pass m env c).state ∧
      ∀ e ∈ (pass m env c).steps, ∀ obj orphan, e.req = .delete .persistentVolumeClaim obj orphan →
        Sweeps m env c ∧ obj ∈ seenClaims m c ∧
          FoundOld (mountedPVCs (seenPods m c)) env.clock obj := by
  have hstart : ∀ n, MarksFrom c env.clock ⟨c, n⟩ := fun n key o ho _ => .inl ho
  by_cases hsweeps : Sweeps m env c
  · obtain ⟨hstate, reads, hreads, hsteps⟩ := hsweeps.pass_eq henv
    obtain ⟨hmarks, hdeletes⟩ := Triple.forEach
      (fun pvc (hpvc : pvc ∈ seenClaims m c) =>
        triple_collectPVC henv (c := c) (mountedPVCs (seenPods m c)) hpvc) ⟨c, 2⟩ (hstart 2)
    rw [hstate, hsteps]
    refine ⟨hmarks, fun e he obj orphan hreq => ?_⟩
    rcases List.mem_append.1 he with he | he
    · have hread := hreads e he
      rw [Reads, hreq] at hread
      cases hread
    · exact ⟨hsweeps, hdeletes e he obj orphan hreq⟩
  · obtain ⟨hcluster, hreads⟩ := pass_reads hsweeps henv
    refine ⟨fun key o ho _ => .inl (hcluster ▸ ho), fun e he obj orphan hreq => ?_⟩
    have hread := hreads e he
    rw [Reads, hreq] at hread
    cases hread

/-! ## What becomes of a claim -/

/-- What a pass does about a claim. -/
inductive Fate where
  | keep
  | relabel (labels : Option StrMap)
  | delete

/-- A claim nobody mounts is marked, and deleted once the mark is old; the mark of a mounted one is
taken off. -/
def fate (mounted : List String) (now : Int) (pvc : Obj .persistentVolumeClaim) : Fate :=
  if pvc.name ∈ mounted then
    if isMarked pvc then .relabel (pvc.metadata.labels.map unmarked) else .keep
  else if isMarked pvc then
    if ∃ ts ∈ parseInt (deletionTS pvc), 60 ≤ timeDifference ts now then .delete else .keep
  else .relabel (pvc.metadata.labels.map fun labels => marked labels now)

/-- The claim goes with its next update: it is being deleted and nobody holds it back. -/
def Goes (pvc : Obj .persistentVolumeClaim) : Prop :=
  pvc.metadata.deletionTimestamp.isSome ∧ pvc.metadata.finalizers = []

/-- What is found of a claim after it was dealt with. -/
def Fate.Leaves (pvc : Obj .persistentVolumeClaim) (found : Option (Obj .persistentVolumeClaim)) :
    Fate → Prop
  | .keep => found = some pvc
  | .relabel labels => (Goes pvc → found = none) ∧ (¬ Goes pvc →
      ∃ version, found = some ((withLabels pvc labels).withResourceVersion version))
  | .delete => found = none

/-- The claim is as listed, and its mark can be read. -/
structure Sound (w : World) (pvc : Obj .persistentVolumeClaim) : Prop where
  stored : (w.cluster.store .persistentVolumeClaim).find? pvc.key = some pvc
  labelled : pvc.metadata.labels ≠ none
  readable : isMarked pvc = true → parseInt (deletionTS pvc) ≠ none

theorem setPVCLabels_calm (henv : env.Calm)
    (hstored : (w.cluster.store .persistentVolumeClaim).find? pvc.key = some pvc)
    (labels : Option StrMap) :
    let o := exec (serve env) (setPVCLabels pvc labels) w
    o.res = .ok () ∧ (Fate.relabel labels).Leaves pvc
      ((o.state.cluster.store .persistentVolumeClaim).find? pvc.key) := by
  have hkey : (withLabels pvc labels).key = pvc.key := rfl
  have hversion : (withLabels pvc labels).metadata.resourceVersion = pvc.metadata.resourceVersion :=
    rfl
  have hupdate : perform env.clock
      (.update .persistentVolumeClaim (withLabels pvc labels)) w.cluster =
      (.ok (), w.cluster.modify .persistentVolumeClaim
        (Cluster.put .persistentVolumeClaim (withLabels pvc labels))) := by
    simp only [perform, hkey, hstored, hversion, ne_eq, not_true, and_false, if_false]
    rfl
  unfold setPVCLabels updateObj
  simp only [call_bind, ret_bind, exec_call, serve_calm henv, hupdate]
  refine ⟨rfl, fun hgoes => ?_, fun hgoes => ⟨w.cluster.version + 1, ?_⟩⟩
  · simp only [orReturn_ok, exec_ret, Cluster.modify_store_self]
    rw [Cluster.put, if_pos (by exact hgoes), Table.find?_erase, if_pos hkey]
  · simp only [orReturn_ok, exec_ret, Cluster.modify_store_self]
    rw [← hkey]
    exact Cluster.find?_put_self _ _ hgoes (by rw [hkey, hstored]; simp)

/-- Without a failure a claim is dealt with to the end. -/
theorem collectPVC_calm (henv : env.Calm) (hpvc : Sound w pvc) (mounted : List String) :
    let o := exec (serve env) (collectPVC mounted pvc) w
    o.res = .ok () ∧ (fate mounted env.clock pvc).Leaves pvc
      ((o.state.cluster.store .persistentVolumeClaim).find? pvc.key) := by
  obtain ⟨hstored, hlabelled, hreadable⟩ := hpvc
  unfold collectPVC fate
  by_cases hmount : pvc.name ∈ mounted
  · rw [if_neg (not_not.2 hmount), if_pos hmount]
    split_ifs
    · exact setPVCLabels_calm henv hstored _
    · exact ⟨rfl, hstored⟩
  · rw [if_pos hmount, if_neg hmount]
    by_cases hmark : isMarked pvc = true
    · rw [if_pos hmark, if_pos hmark]
      unfold checkPVCLabelsAndDelete
      cases hts : parseInt (deletionTS pvc) with
      | none => exact absurd hts (hreadable hmark)
      | some τ =>
          unfold unixNow deleteObj
          have hnow : perform env.clock .now w.cluster = (env.clock, w.cluster) := rfl
          simp only [call_bind, ret_bind, exec_call, serve_calm henv, hnow, Option.mem_def,
            Option.some.injEq, exists_eq_left']
          split_ifs
          · have hdelete : perform env.clock (.delete .persistentVolumeClaim pvc false) w.cluster =
                (.ok (), w.cluster.modify .persistentVolumeClaim fun _ t => t.erase pvc.key) := by
              simp only [perform, hstored]
            simp only [exec_call, serve_calm henv, hdelete]
            refine ⟨rfl, ?_⟩
            simp only [Fate.Leaves, orReturn_ok, exec_ret, Cluster.modify_store_self]
            rw [Table.find?_erase, if_pos rfl]
          · exact ⟨rfl, hstored⟩
    · rw [if_neg hmark, if_neg hmark]
      cases hlabels : pvc.metadata.labels with
      | none => exact absurd hlabels hlabelled
      | some labels =>
          unfold unixNow
          simp only [call_bind, ret_bind, exec_call, serve_calm henv]
          exact setPVCLabels_calm henv (w := ⟨w.cluster, w.calls + 1⟩) hstored _

/-- Without a failure the loop gets to every claim. -/
theorem sweep_calm (henv : env.Calm) (mounted : List String)
    {claims : List (Obj .persistentVolumeClaim)} (hnodup : (claims.map Object.key).Nodup)
    (hsound : ∀ pvc ∈ claims, Sound w pvc) :
    let o := exec (serve env) (forEach (collectPVC mounted) claims) w
    o.res = .ok () ∧ ∀ pvc ∈ claims, (fate mounted env.clock pvc).Leaves pvc
      ((o.state.cluster.store .persistentVolumeClaim).find? pvc.key) := by
  induction claims generalizing w with
  | nil => exact ⟨rfl, fun _ h => (by cases h)⟩
  | cons p ps ih =>
      rw [List.map_cons, List.nodup_cons] at hnodup
      obtain ⟨hres, hhead⟩ := collectPVC_calm henv (hsound p List.mem_cons_self) mounted
      have htail : ∀ q ∈ ps, Sound (exec (serve env) (collectPVC mounted p) w).state q := by
        intro q hq
        obtain ⟨hstored, hlabelled, hreadable⟩ := hsound q (List.mem_cons_of_mem _ hq)
        refine ⟨?_, hlabelled, hreadable⟩
        rw [exec_frame henv.alone (uses_collectPVC mounted p)]
        · exact hstored
        · rintro v ⟨-, -, hkey⟩
          exact hnodup.1 (List.mem_map.2 ⟨q, hq, hkey⟩)
      obtain ⟨hrest, hclaims⟩ := ih hnodup.2 htail
      rw [forEach_cons, exec_bind_ok hres]
      refine ⟨hrest, fun q hq => ?_⟩
      rcases List.mem_cons.1 hq with rfl | hq
      · -- the rest of the loop writes other claims
        have huses : (forEach (collectPVC mounted) ps).Uses (Request.Within fun v k key =>
            ∃ p ∈ ps, CollectsClaim p.key v k key) :=
          Uses.forEach fun p hp => (uses_collectPVC mounted p).mono fun r hr =>
            hr.mono fun v k key h => ⟨p, hp, h⟩
        dsimp only
        rw [exec_frame henv.alone huses]
        · exact hhead
        · rintro v ⟨p, hp, -, -, hkey⟩
          exact hnodup.1 (List.mem_map.2 ⟨p, hp, hkey.symm⟩)
      · exact hclaims q hq

theorem unmarked_of_leaves {mounted : List String} {now : Int} {o : Obj .persistentVolumeClaim}
    (hmounted : pvc.name ∈ mounted) (h : (fate mounted now pvc).Leaves pvc (some o)) :
    isMarked o = false := by
  rw [fate, if_pos hmounted] at h
  by_cases hmark : isMarked pvc = true
  · rw [if_pos hmark] at h
    obtain ⟨hgone, hlabels⟩ := h
    by_cases hgoes : Goes pvc
    · cases hgone hgoes
    · obtain ⟨version, ho⟩ := hlabels hgoes
      cases ho
      exact not_isMarked_unmarked pvc pvc.metadata.labels
  · rw [if_neg hmark] at h
    cases h
    simpa using hmark

/-! ## What the pods mount -/

/-- The claims the pods mount. -/
def mountedBy (pods : List (Obj .pod)) : List String := pods.flatMap podClaims

theorem mem_addNames {names acc : List String} {name : String} :
    name ∈ names.foldl (fun mounted name =>
      if name ∈ mounted then mounted else mounted ++ [name]) acc ↔ name ∈ acc ∨ name ∈ names := by
  induction names generalizing acc with
  | nil => simp
  | cons n ns ih =>
      rw [List.foldl_cons, ih]
      by_cases hn : n ∈ acc
      · simp only [if_pos hn, List.mem_cons]
        constructor
        · rintro (h | h)
          · exact .inl h
          · exact .inr (.inr h)
        · rintro (h | rfl | h)
          · exact .inl h
          · exact .inl hn
          · exact .inr h
      · simp [hn, or_assoc]

/-- A pass that finds every pod running sees what they mount, besides the empty names that its slice
is made with. -/
theorem mem_mountedPVCs {pods : List (Obj .pod)} {name : String}
    (hhealthy : pods.all podHealthy = true) :
    name ∈ mountedPVCs pods ↔ name ∈ List.replicate pods.length "" ∨ name ∈ mountedBy pods := by
  unfold mountedPVCs
  generalize List.replicate pods.length "" = acc
  induction pods generalizing acc with
  | nil => simp [mountedBy]
  | cons pod pods ih =>
      rw [List.all_cons, Bool.and_eq_true] at hhealthy
      have hphase : pod.body.phase ≠ .pending := by
        have hrunning := hhealthy.1
        simp only [podHealthy, Bool.and_eq_true, decide_eq_true_eq] at hrunning
        rw [hrunning.1]
        decide
      rw [List.foldl_cons, if_pos hphase, ih hhealthy.2, mem_addNames, or_assoc]
      simp only [mountedBy, List.flatMap_cons, List.mem_append]

/-! ## Runs of passes for one cluster -/

/-- The stored objects, and for every pass so far its time and the claims the pods it listed
mounted. -/
structure Watched where
  cluster : Cluster
  history : List (Int × List String) := []

inductive PassAction where
  /-- What users, pods and other controllers do between two passes. -/
  | change (f : Cluster → Cluster)
  | pass (env : Env)

/-- The claims mounted by the pods the pass lists. -/
def observedMounts (m : Druid) (env : Env) (c : Cluster) : List String :=
  if env.fault 0 = none then mountedBy (seenPods m c) else []

/-- The history with the pass that starts now. -/
def Watched.observed (m : Druid) (env : Env) (s : Watched) : List (Int × List String) :=
  s.history ++ [(env.clock, observedMounts m env s.cluster)]

def passStep (m : Druid) (s : Watched) : PassAction → Watched
  | .change f => { s with cluster := f s.cluster }
  | .pass env => ⟨(pass m env s.cluster).state.cluster, s.observed m env⟩

/-- The marks after a change are those of before. -/
def KeepsMarks (c c' : Cluster) : Prop :=
  ∀ key o', (c'.store .persistentVolumeClaim).find? key = some o' → isMarked o' = true →
    ∃ o, (c.store .persistentVolumeClaim).find? key = some o ∧ isMarked o = true ∧
      deletionTS o' = deletionTS o

/-- Only the operator writes the two labels, nobody interferes with a pass, and time does not run
backwards. -/
def Timely (s : Watched) : PassAction → Prop
  | .change f => KeepsMarks s.cluster (f s.cluster)
  | .pass env => env.Alone ∧ InRange env.clock ∧ ∀ p ∈ s.history, p.1 ≤ env.clock

/-- A pass whose pods mount a marked claim finds the claim in its list and every pod healthy, and
none of its requests fails. -/
def SeesMounts (m : Druid) (s : Watched) : PassAction → Prop
  | .change _ => True
  | .pass env => ∀ o : Obj .persistentVolumeClaim, o.ns = m.ns →
      (s.cluster.store .persistentVolumeClaim).find? o.key = some o → isMarked o = true →
      o.name ∈ observedMounts m env s.cluster →
      o ∈ seenClaims m s.cluster ∧ (seenPods m s.cluster).all podHealthy = true ∧
        ∀ n, env.fault n = none

/-- A pass deletes only claims that no pass of the last 60 seconds saw mounted. -/
def GraceKept (m : Druid) (s : Watched) : PassAction → Prop
  | .change _ => True
  | .pass env => ∀ e ∈ (pass m env s.cluster).steps, ∀ obj orphan,
      e.req = .delete .persistentVolumeClaim obj orphan →
      ∀ p ∈ s.observed m env, env.clock - 60 < p.1 → obj.name ∉ p.2

/-- Every mark can be read, and no pass after it saw the claim mounted. -/
def MarksTell (m : Druid) (s : Watched) : Prop :=
  ∀ o : Obj .persistentVolumeClaim,
    (s.cluster.store .persistentVolumeClaim).find? o.key = some o → isMarked o = true →
    ∃ τ, parseInt (deletionTS o) = some τ ∧ InRange τ ∧
      (o.ns = m.ns → ∀ p ∈ s.history, τ < p.1 → o.name ∉ p.2)

section Watch

variable {m : Druid} {s : Watched} {env : Env}

theorem stored_of_seen {o : Obj .persistentVolumeClaim} (ho : o ∈ seenClaims m c) :
    (c.store .persistentVolumeClaim).find? o.key = some o ∧ o.ns = m.ns := by
  refine ⟨Cluster.stored_of_listed ho, ?_⟩
  have hmem := List.mem_filter.1 ho
  exact (of_decide_eq_true hmem.2).1

theorem labels_of_seen {o : Obj .persistentVolumeClaim} (ho : o ∈ seenClaims m c) :
    o.metadata.labels ≠ none := by
  intro hnone
  have hmatch := (of_decide_eq_true (List.mem_filter.1 ho).2).2
  rw [hnone] at hmatch
  exact Multiset.notMem_zero _ (hmatch ⟨"druid_cr", m.name⟩ (Multiset.mem_singleton_self _))

/-- What a pass deletes has been unmounted for a minute. -/
theorem MarksTell.grace (hs : MarksTell m s) (henv : env.Alone) (hclock : InRange env.clock) :
    GraceKept m s (.pass env) := by
  intro e he obj orphan hreq p hp hlate hmount
  obtain ⟨hsweeps, hseen, hold⟩ := (pass_marks henv m s.cluster).2 e he obj orphan hreq
  obtain ⟨hstored, hns⟩ := stored_of_seen hseen
  obtain ⟨τ, hτ, hrange, hhistory⟩ := hs obj hstored hold.marked
  obtain ⟨τ', hτ', hdiff⟩ := hold.old
  cases hτ.symm.trans hτ'
  have hminute := (minute_le_timeDifference_iff hrange hclock.representable).1 hdiff
  rcases List.mem_append.1 hp with hp | hp
  · exact hhistory hns p hp (by linarith) hmount
  · -- the pass itself sees what its pods mount
    rw [List.mem_singleton.1 hp, observedMounts, if_pos hsweeps.pods] at hmount
    exact hold.unmounted ((mem_mountedPVCs hsweeps.healthy).2 (.inr hmount))

theorem MarksTell.pass (hs : MarksTell m s) (htime : Timely s (.pass env))
    (hsees : SeesMounts m s (.pass env)) : MarksTell m (passStep m s (.pass env)) := by
  obtain ⟨henv, hclock, hpast⟩ := htime
  intro o ho hmarked
  rcases (pass_marks henv m s.cluster).1 o.key o ho hmarked with hold | hnew
  · obtain ⟨τ, hτ, hrange, hhistory⟩ := hs o hold hmarked
    refine ⟨τ, hτ, hrange, fun hns p hp hlate hmount => ?_⟩
    rcases List.mem_append.1 hp with hp | hp
    · exact hhistory hns p hp hlate hmount
    · -- this pass saw the claim mounted, so it has unmarked it
      rw [List.mem_singleton.1 hp] at hmount
      obtain ⟨hseen, hhealthy, hserved⟩ := hsees o hns hold hmarked hmount
      have hsweeps : Sweeps m env s.cluster := ⟨hserved 0, hserved 1, hhealthy⟩
      rw [observedMounts, if_pos (hserved 0)] at hmount
      have hsound : ∀ pvc ∈ seenClaims m s.cluster, Sound ⟨s.cluster, 2⟩ pvc := by
        intro pvc hpvc
        have hstored := (stored_of_seen hpvc).1
        refine ⟨hstored, labels_of_seen hpvc, fun hmark => ?_⟩
        obtain ⟨τ, hτ, -⟩ := hs pvc hstored hmark
        simp [hτ]
      have hafter : ((sweepClaims m env s.cluster).state.cluster.store
          .persistentVolumeClaim).find? o.key = some o := (hsweeps.pass_eq henv).1 ▸ ho
      have hleaves := (sweep_calm ⟨henv, hserved⟩ (mountedPVCs (seenPods m s.cluster))
        (Cluster.listed_nodup _ _ _ _) hsound).2 o hseen
      dsimp only [sweepClaims, seenClaims] at hafter hleaves
      rw [hafter] at hleaves
      rw [unmarked_of_leaves ((mem_mountedPVCs hhealthy).2 (.inr hmount)) hleaves] at hmarked
      cases hmarked
  · refine ⟨env.clock, by rw [hnew, parseInt_formatInt hclock], hclock, fun _ p hp hlate => ?_⟩
    rcases List.mem_append.1 hp with hp | hp
    · exact absurd hlate (not_lt.2 (hpast p hp))
    · rw [List.mem_singleton.1 hp] at hlate
      exact absurd hlate (lt_irrefl _)

theorem MarksTell.change (hs : MarksTell m s) {f : Cluster → Cluster}
    (hf : KeepsMarks s.cluster (f s.cluster)) : MarksTell m (passStep m s (.change f)) := by
  intro o ho hmarked
  obtain ⟨o₀, ho₀, hmarked₀, hts⟩ := hf o.key o ho hmarked
  have hkey : o₀.key = o.key := (Table.find?_eq_some.1 ho₀).2
  obtain ⟨τ, hτ, hrange, hhistory⟩ := hs o₀ (hkey ▸ ho₀) hmarked₀
  have hns : o₀.ns = o.ns := congrArg Prod.fst hkey
  have hname : o₀.name = o.name := congrArg Prod.snd hkey
  refine ⟨τ, hts ▸ hτ, hrange, ?_⟩
  rw [← hns, ← hname]
  exact hhistory

end Watch

/-- **The grace period.** In every run whose passes see the mounts of marked claims, a pass deletes
only claims that no pass of the last 60 seconds saw mounted. -/
theorem grace_period_kept {m : Druid} {c : Cluster} {acts : List PassAction}
    (hstart : ∀ key o, (c.store .persistentVolumeClaim).find? key = some o → isMarked o = false)
    (htime : Meets (passStep m) Timely ⟨c, []⟩ acts)
    (hsees : Meets (passStep m) (SeesMounts m) ⟨c, []⟩ acts) :
    Meets (passStep m) (GraceKept m) ⟨c, []⟩ acts := by
  have hboth : Meets (passStep m) (fun s a => Timely s a ∧ SeesMounts m s a) ⟨c, []⟩ acts :=
    htime.and hsees
  refine hboth.ofInvariant (I := MarksTell m) (fun s a _ hs hcond => ?_) ?_
  · cases a with
    | change f => exact ⟨hs.change hcond.1, trivial⟩
    | pass env => exact ⟨hs.pass hcond.1 hcond.2, hs.grace hcond.1.1 hcond.1.2.1⟩
  · intro o ho hmarked
    rw [hstart _ o ho] at hmarked
    cases hmarked

/-! ## A claim of a cluster without pods -/

/-- The claims the steps delete. -/
def deletedClaims (steps : List (Step sig World)) : List String :=
  steps.filterMap fun e =>
    match e.req with
    | .delete .persistentVolumeClaim obj _ => some obj.name
    | _ => none

def archive : Druid where
  metadata := { name := "c", ns := "d", generation := 2 }
  body := { spec := { nodes := ⟨[], by decide⟩, deleteOrphanPvc := true } }

def archiveClaim : Obj .persistentVolumeClaim where
  metadata := { name := "data", ns := "d", labels := some (orphanLabels archive) }
  body := {}

/-- A pod that mounts the claim and is not ready. -/
def startingPod : Obj .pod where
  metadata := { name := "p", ns := "d", labels := some (makeLabelsForDruid archive) }
  body :=
    { volumes := [⟨"v", .persistentVolumeClaim "data"⟩]
      conditions := [{ type := "Ready", status := .false }] }

/-- The pods of a cluster become these. -/
def withPods (pods : Store .pod) (c : Cluster) : Cluster :=
  { c with store := Function.update c.store .pod pods }

def archiveCluster : Cluster where
  store := Function.update (fun _ => .empty) .persistentVolumeClaim
    (Table.insert .empty archiveClaim)

theorem keepsMarks_withPods (pods : Store .pod) (c : Cluster) : KeepsMarks c (withPods pods c) := by
  intro key o ho hmarked
  have hstore : (withPods pods c).store .persistentVolumeClaim =
      c.store .persistentVolumeClaim := by
    have hne : Kind.persistentVolumeClaim ≠ Kind.pod := by decide
    exact Function.update_of_ne hne pods c.store
  rw [hstore] at ho
  exact ⟨o, ho, hmarked, rfl⟩

theorem archive_unmarked (key : String × String) (o : Obj .persistentVolumeClaim)
    (ho : (archiveCluster.store .persistentVolumeClaim).find? key = some o) :
    isMarked o = false := by
  have hmem := (Table.find?_eq_some.1 ho).1
  rw [show (archiveCluster.store .persistentVolumeClaim).items = [archiveClaim] from rfl,
    List.mem_singleton] at hmem
  rw [hmem]
  decide

theorem seesMounts_of_nil {m : Druid} {s : Watched} (h : observedMounts m env s.cluster = []) :
    SeesMounts m s (.pass env) := by
  intro o _ _ _ hmount
  rw [h] at hmount
  cases hmount

/-- A claim nobody mounts is deleted after a minute. -/
theorem grace_period_kept_archive :
    Meets (passStep archive) (GraceKept archive) ⟨archiveCluster, []⟩
      [.pass { clock := 0 }, .pass { clock := 60 }] := by
  have htime : Meets (passStep archive) Timely ⟨archiveCluster, []⟩
      [.pass { clock := 0 }, .pass { clock := 60 }] := by
    refine ⟨⟨fun _ _ => rfl, by decide, by simp⟩, ⟨fun _ _ => rfl, by decide, ?_⟩, trivial⟩
    simp [passStep, Watched.observed]
  have hsees : Meets (passStep archive) (SeesMounts archive) ⟨archiveCluster, []⟩
      [.pass { clock := 0 }, .pass { clock := 60 }] :=
    ⟨seesMounts_of_nil (by decide +kernel), seesMounts_of_nil (by decide +kernel), trivial⟩
  exact grace_period_kept archive_unmarked htime hsees

/-- A pod that is not ready mounts the claim 30 seconds after it was marked. The pass returns early,
the pod goes, and the next pass deletes the claim. -/
theorem mounted_but_deleted :
    let acts : List PassAction := [.pass { clock := 0 },
      .change (withPods (Table.insert .empty startingPod)), .pass { clock := 30 },
      .change (withPods .empty)]
    let s := run (passStep archive) ⟨archiveCluster, []⟩ acts
    Meets (passStep archive) Timely ⟨archiveCluster, []⟩ acts ∧
      s.history = [(0, []), (30, ["data"])] ∧
      deletedClaims (pass archive { clock := 60 } s.cluster).steps = ["data"] := by
  intro acts s
  have htime : Meets (passStep archive) Timely ⟨archiveCluster, []⟩ acts := by
    have hpods : ∀ (s : Watched) (pods : Store .pod), Timely s (.change (withPods pods)) :=
      fun s pods => keepsMarks_withPods pods s.cluster
    refine ⟨⟨fun _ _ => rfl, by decide, by simp⟩, hpods _ _, ⟨fun _ _ => rfl, by decide, ?_⟩,
      hpods _ _, trivial⟩
    simp [passStep, Watched.observed]
  have hrun : s.history = [(0, []), (30, ["data"])] ∧
      deletedClaims (pass archive { clock := 60 } s.cluster).steps = ["data"] := by decide +kernel
  exact ⟨htime, hrun⟩

end DruidOperator.Controller
