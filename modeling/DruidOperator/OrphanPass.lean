import DruidOperator.OrphanRuns

/-!
# The exact effect of one pass

What one call of `deleteOrphanPVC` does to the store when no request fails: nothing if a pod is
unwell. Otherwise each listed claim is deleted, marked, unmarked or left alone, as its marks and the
pods decide, and everything else is as before.

- `ExactPass`: the effect, claim by claim.
- `orphan_pass_exact`: a pass has this effect.
-/

namespace DruidOperator.Controller

open Interaction Prog Kube

/-! ## What the pass is for -/

/-- A listed pod does not run, or has a condition that is not true. -/
def PodUnwell (m : Druid) (c : Cluster) : Prop :=
  ∃ pod ∈ seenPods m c,
    pod.body.phase ≠ .running ∨ ∃ condition ∈ pod.body.conditions, condition.status ≠ .true

/-- A listed pod mounts the claim. -/
def Mounted (m : Druid) (c : Cluster) (pvc : Obj .persistentVolumeClaim) : Prop :=
  ∃ pod ∈ seenPods m c, ∃ vol ∈ pod.body.volumes, vol.source = .persistentVolumeClaim pvc.name

section Claims

variable (m : Druid) (now : Int) (c : Cluster) (pvc : Obj .persistentVolumeClaim)

/-- Nobody mounts the claim, and it has been marked for a minute. -/
structure Expired : Prop where
  listed : pvc ∈ seenClaims m c
  unmounted : ¬ Mounted m c pvc
  marked : isMarked pvc = true
  old : ∃ ts ∈ parseInt (deletionTS pvc), 60 ≤ now - ts

/-- Nobody mounts the claim, and it is not marked. -/
structure Orphaned : Prop where
  listed : pvc ∈ seenClaims m c
  unmounted : ¬ Mounted m c pvc
  unmarked : isMarked pvc = false

/-- Somebody mounts the claim, and it is marked. -/
structure Reclaimed : Prop where
  listed : pvc ∈ seenClaims m c
  mounted : Mounted m c pvc
  marked : isMarked pvc = true

end Claims

/-- The value of a label, if there is one. -/
def labelOf {β : Type} (o : Object β) (label : String) : Option String :=
  o.metadata.labels.bind fun labels => labels.lookup label

/-- The claim with other labels, and otherwise the same. -/
def Relabelled (pvc o : Obj .persistentVolumeClaim) (value : String → Option String) : Prop :=
  (∃ labels version, o = (withLabels pvc labels).withResourceVersion version) ∧
    ∀ label, labelOf o label = value label

/-- What a pass does at the time `now`. -/
structure ExactPass (m : Druid) (now : Int) (c c' : Cluster) : Prop where
  deletes : ∀ pvc, Expired m now c pvc →
    (c'.store .persistentVolumeClaim).find? pvc.key = none
  marks : ∀ pvc, Orphaned m c pvc → ∃ o, (c'.store .persistentVolumeClaim).find? pvc.key = some o ∧
    Relabelled pvc o fun label =>
      if label = toBeDeletedLabel then some "yes"
      else if label = deletionTSLabel then some (formatInt now)
      else labelOf pvc label
  unmarks : ∀ pvc, Reclaimed m c pvc →
    ∃ o, (c'.store .persistentVolumeClaim).find? pvc.key = some o ∧ Relabelled pvc o fun label =>
      if label = toBeDeletedLabel ∨ label = deletionTSLabel then none else labelOf pvc label
  keeps : ∀ key, (∀ pvc, pvc.key = key →
      ¬ Expired m now c pvc ∧ ¬ Orphaned m c pvc ∧ ¬ Reclaimed m c pvc) →
    (c'.store .persistentVolumeClaim).find? key = (c.store .persistentVolumeClaim).find? key
  others : ∀ k key, k ≠ .persistentVolumeClaim → (c'.store k).find? key = (c.store k).find? key

/-- What the server sees to: a claim has a name, and one that is being deleted is held back by a
finalizer. -/
structure Tended (c : Cluster) : Prop where
  named : ∀ key pvc, (c.store .persistentVolumeClaim).find? key = some pvc → pvc.name ≠ ""
  held : ∀ key pvc, (c.store .persistentVolumeClaim).find? key = some pvc → ¬ Goes pvc

/-! ## What the pass finds -/

theorem healthy_iff (m : Druid) (c : Cluster) :
    (seenPods m c).all podHealthy = true ↔ ¬ PodUnwell m c := by
  simp only [PodUnwell, podHealthy, List.all_eq_true, Bool.and_eq_true, decide_eq_true_eq,
    not_exists, not_and, not_or, ne_eq, not_not]

theorem mem_podClaims {pod : Obj .pod} {name : String} :
    name ∈ podClaims pod ↔ ∃ vol ∈ pod.body.volumes, vol.source = .persistentVolumeClaim name := by
  unfold podClaims
  rw [List.mem_filterMap]
  constructor
  · rintro ⟨vol, hvol, hname⟩
    refine ⟨vol, hvol, ?_⟩
    split at hname
    · next claimName hsource =>
        cases hname
        exact hsource
    · cases hname
  · rintro ⟨vol, hvol, hsource⟩
    exact ⟨vol, hvol, by rw [hsource]⟩

/-- A pass that finds every pod well knows which claims are mounted. -/
theorem mem_mountedPVCs_iff {m : Druid} {c : Cluster} (hwell : ¬ PodUnwell m c)
    {pvc : Obj .persistentVolumeClaim} (hname : pvc.name ≠ "") :
    pvc.name ∈ mountedPVCs (seenPods m c) ↔ Mounted m c pvc := by
  have hempty : pvc.name ∉ List.replicate (seenPods m c).length "" := by
    simp [List.mem_replicate, hname]
  rw [mem_mountedPVCs ((healthy_iff m c).2 hwell), or_iff_right hempty, mountedBy, List.mem_flatMap]
  simp only [mem_podClaims, Mounted]

/-! ## What becomes of the labels -/

theorem labelOf_marked (pvc : Obj .persistentVolumeClaim) {labels : StrMap} (now : Int)
    (hlabels : pvc.metadata.labels = some labels) (label : String) :
    (marked labels now).lookup label =
      if label = toBeDeletedLabel then some "yes"
      else if label = deletionTSLabel then some (formatInt now) else labelOf pvc label := by
  unfold marked labelOf
  rw [hlabels]
  split_ifs with hmark htime
  · have hne : toBeDeletedLabel ≠ deletionTSLabel := by decide
    rw [hmark, Finmap.lookup_insert_of_ne _ hne, Finmap.lookup_insert]
  · rw [htime, Finmap.lookup_insert]
  · rw [Finmap.lookup_insert_of_ne _ htime, Finmap.lookup_insert_of_ne _ hmark]
    rfl

theorem labelOf_unmarked (pvc : Obj .persistentVolumeClaim) {labels : StrMap}
    (hlabels : pvc.metadata.labels = some labels) (label : String) :
    (unmarked labels).lookup label =
      if label = toBeDeletedLabel ∨ label = deletionTSLabel then none else labelOf pvc label := by
  unfold unmarked labelOf
  rw [hlabels]
  split_ifs with h
  · by_cases htime : label = deletionTSLabel
    · rw [htime, Finmap.lookup_erase]
    · rw [Finmap.lookup_erase_ne htime, h.resolve_right htime, Finmap.lookup_erase]
  · rw [not_or] at h
    rw [Finmap.lookup_erase_ne h.2, Finmap.lookup_erase_ne h.1]
    rfl

theorem relabelled_of_leaves {pvc : Obj .persistentVolumeClaim} {f : StrMap → StrMap}
    {found : Option (Obj .persistentVolumeClaim)} {value : String → Option String}
    (hlabelled : pvc.metadata.labels ≠ none) (hheld : ¬ Goes pvc)
    (hleaves : (Fate.relabel (pvc.metadata.labels.map f)).Leaves pvc found)
    (hvalue : ∀ labels, pvc.metadata.labels = some labels →
      ∀ label, (f labels).lookup label = value label) :
    ∃ o, found = some o ∧ Relabelled pvc o value := by
  obtain ⟨version, ho⟩ := hleaves.2 hheld
  obtain ⟨labels, hlabels⟩ := Option.ne_none_iff_exists'.1 hlabelled
  refine ⟨_, ho, ⟨_, version, rfl⟩, fun label => ?_⟩
  rw [← hvalue labels hlabels label, hlabels]
  rfl

/-! ## The pass -/

theorem pass_calm {m : Druid} {env : Env} (henv : env.Calm) (c : Cluster) :
    (pass m env c).res = (if (seenPods m c).all podHealthy then (sweepClaims m env c).res
      else .ok ()) ∧
    (pass m env c).state.cluster =
      if (seenPods m c).all podHealthy then (sweepClaims m env c).state.cluster else c := by
  unfold pass deleteOrphanPVC listObjs sweepClaims
  simp only [call_bind, ret_bind, exec_call, serve_calm henv, perform, orReturn_ok]
  change (exec (serve env) (if (seenPods m c).all podHealthy then _ else _) _).res = _ ∧
    (exec (serve env) (if (seenPods m c).all podHealthy then _ else _) _).state.cluster = _
  split_ifs <;> exact ⟨rfl, rfl⟩

/-- The loop writes the claims it goes through and nothing else. -/
theorem sweepClaims_frame {m : Druid} {env : Env} (henv : env.Alone) (c : Cluster) {k : Kind}
    {key : String × String}
    (hkey : k = .persistentVolumeClaim → ∀ pvc ∈ seenClaims m c, pvc.key ≠ key) :
    ((sweepClaims m env c).state.cluster.store k).find? key = (c.store k).find? key := by
  have huses : (forEach (collectPVC (mountedPVCs (seenPods m c))) (seenClaims m c)).Uses
      (Request.Within fun v k key => ∃ pvc ∈ seenClaims m c, CollectsClaim pvc.key v k key) :=
    Uses.forEach fun pvc hpvc => (uses_collectPVC _ pvc).mono fun r hr =>
      hr.mono fun v k key h => ⟨pvc, hpvc, h⟩
  unfold sweepClaims
  rw [exec_frame henv huses]
  rintro v ⟨pvc, hpvc, -, hk, hpkey⟩
  exact hkey hk pvc hpvc hpkey.symm

section Fates

variable {m : Druid} {now : Int} {c : Cluster} {pvc : Obj .persistentVolumeClaim}
  (hwell : ¬ PodUnwell m c) (hname : pvc.name ≠ "")
include hwell hname

theorem Reclaimed.fate_eq (h : Reclaimed m c pvc) :
    fate (mountedPVCs (seenPods m c)) now pvc = .relabel (pvc.metadata.labels.map unmarked) := by
  rw [fate, if_pos ((mem_mountedPVCs_iff hwell hname).2 h.mounted), if_pos h.marked]

theorem Orphaned.fate_eq (h : Orphaned m c pvc) : fate (mountedPVCs (seenPods m c)) now pvc =
    .relabel (pvc.metadata.labels.map fun labels => marked labels now) := by
  have hmark : ¬ isMarked pvc = true := by simp [h.unmarked]
  rw [fate, if_neg (mt (mem_mountedPVCs_iff hwell hname).1 h.unmounted), if_neg hmark]

variable (hnow : Representable now)
  (hmark : isMarked pvc = true → ∃ ts ∈ parseInt (deletionTS pvc), InRange ts)
include hnow hmark

omit hwell hname in
/-- A mark that can be read is found old exactly when it is. -/
theorem found_old_iff (hmarked : isMarked pvc = true) :
    (∃ ts ∈ parseInt (deletionTS pvc), 60 ≤ timeDifference ts now) ↔
      ∃ ts ∈ parseInt (deletionTS pvc), 60 ≤ now - ts := by
  obtain ⟨ts, hts, hrange⟩ := hmark hmarked
  rw [Option.mem_def] at hts
  simp only [hts, Option.mem_def, Option.some.injEq, exists_eq_left']
  rw [minute_le_timeDifference_iff hrange hnow]
  omega

theorem Expired.fate_eq (h : Expired m now c pvc) :
    fate (mountedPVCs (seenPods m c)) now pvc = .delete := by
  rw [fate, if_neg (mt (mem_mountedPVCs_iff hwell hname).1 h.unmounted), if_pos h.marked,
    if_pos ((found_old_iff hnow hmark h.marked).2 h.old)]

theorem fate_keep (hlisted : pvc ∈ seenClaims m c) (hexpired : ¬ Expired m now c pvc)
    (horphaned : ¬ Orphaned m c pvc) (hreclaimed : ¬ Reclaimed m c pvc) :
    fate (mountedPVCs (seenPods m c)) now pvc = .keep := by
  unfold fate
  by_cases hmount : Mounted m c pvc
  · have hunmarked : ¬ isMarked pvc = true := fun h => hreclaimed ⟨hlisted, hmount, h⟩
    rw [if_pos ((mem_mountedPVCs_iff hwell hname).2 hmount), if_neg hunmarked]
  · rw [if_neg (mt (mem_mountedPVCs_iff hwell hname).1 hmount)]
    by_cases hmarked : isMarked pvc = true
    · have hyoung : ¬ ∃ ts ∈ parseInt (deletionTS pvc), 60 ≤ now - ts :=
        fun h => hexpired ⟨hlisted, hmount, hmarked, h⟩
      rw [if_pos hmarked, if_neg (mt (found_old_iff hnow hmark hmarked).1 hyoung)]
    · exact absurd ⟨hlisted, hmount, by simpa using hmarked⟩ horphaned

end Fates

/-- **One pass over the orphaned claims.** For all pods and claims and at every time, when no
request fails and the marks can be read, a pass succeeds. It changes nothing if a pod is unwell, and
otherwise deletes, marks and unmarks exactly the claims it should. -/
theorem orphan_pass_exact (m : Druid) (env : Env) (henv : env.Calm)
    (hclock : Representable env.clock)
    (c : Cluster) (hc : Tended c) (hmarks : ∀ pvc ∈ seenClaims m c, isMarked pvc = true →
      ∃ ts ∈ parseInt (deletionTS pvc), InRange ts) :
    (pass m env c).res = .ok () ∧
    (PodUnwell m c → (pass m env c).state.cluster = c) ∧
    (¬ PodUnwell m c → ExactPass m env.clock c (pass m env c).state.cluster) := by
  obtain ⟨hres, hstate⟩ := pass_calm henv (m := m) c
  by_cases hwell : PodUnwell m c
  · have hunhealthy : ¬ (seenPods m c).all podHealthy = true :=
      fun h => (healthy_iff m c).1 h hwell
    rw [hres, hstate, if_neg hunhealthy, if_neg hunhealthy]
    exact ⟨rfl, fun _ => rfl, fun h => absurd hwell h⟩
  · have hhealthy := (healthy_iff m c).2 hwell
    rw [hres, hstate, if_pos hhealthy, if_pos hhealthy]
    have hnamed : ∀ pvc ∈ seenClaims m c, pvc.name ≠ "" :=
      fun pvc hpvc => hc.named _ _ (stored_of_seen hpvc).1
    have hheld : ∀ pvc ∈ seenClaims m c, ¬ Goes pvc :=
      fun pvc hpvc => hc.held _ _ (stored_of_seen hpvc).1
    have hsound : ∀ pvc ∈ seenClaims m c, Sound ⟨c, 2⟩ pvc := by
      intro pvc hpvc
      refine ⟨(stored_of_seen hpvc).1, labels_of_seen hpvc, fun hmark hnone => ?_⟩
      obtain ⟨ts, hts, -⟩ := hmarks pvc hpvc hmark
      cases hnone.symm.trans hts
    obtain ⟨hswept, hleaves⟩ := sweep_calm henv (mountedPVCs (seenPods m c))
      (Cluster.listed_nodup c _ _ _) hsound
    refine ⟨hswept, fun h => absurd h hwell, fun _ => ?_⟩
    refine ⟨fun pvc h => ?_, fun pvc h => ?_, fun pvc h => ?_, fun key hkey => ?_,
      fun k key hk => ?_⟩
    · have hleft := hleaves pvc h.listed
      rw [h.fate_eq hwell (hnamed pvc h.listed) hclock (hmarks pvc h.listed)] at hleft
      exact hleft
    · have hleft := hleaves pvc h.listed
      rw [h.fate_eq hwell (hnamed pvc h.listed)] at hleft
      exact relabelled_of_leaves (labels_of_seen h.listed) (hheld pvc h.listed) hleft
        fun labels hlabels => labelOf_marked pvc env.clock hlabels
    · have hleft := hleaves pvc h.listed
      rw [h.fate_eq hwell (hnamed pvc h.listed)] at hleft
      exact relabelled_of_leaves (labels_of_seen h.listed) (hheld pvc h.listed) hleft
        fun labels hlabels => labelOf_unmarked pvc hlabels
    · by_cases hlisted : ∃ pvc ∈ seenClaims m c, pvc.key = key
      · obtain ⟨pvc, hpvc, rfl⟩ := hlisted
        obtain ⟨hexpired, horphaned, hreclaimed⟩ := hkey pvc rfl
        have hleft := hleaves pvc hpvc
        rw [fate_keep hwell (hnamed pvc hpvc) hclock (hmarks pvc hpvc) hpvc hexpired horphaned
          hreclaimed] at hleft
        rw [(stored_of_seen hpvc).1]
        exact hleft
      · exact sweepClaims_frame henv.alone c fun _ pvc hpvc h => hlisted ⟨pvc, hpvc, h⟩
    · exact sweepClaims_frame henv.alone c fun h => absurd h hk

/-! ## A claim that was marked a minute ago -/

def markedArchiveClaim : Obj .persistentVolumeClaim :=
  withLabels archiveClaim (some (marked (orphanLabels archive) 0))

def markedArchive : Cluster where
  store := Function.update (fun _ => .empty) .persistentVolumeClaim
    (Table.insert .empty markedArchiveClaim)

theorem eq_markedArchiveClaim {key : String × String} {o : Obj .persistentVolumeClaim}
    (ho : (markedArchive.store .persistentVolumeClaim).find? key = some o) :
    o = markedArchiveClaim := by
  have hmem := (Table.find?_eq_some.1 ho).1
  rwa [show (markedArchive.store .persistentVolumeClaim).items = [markedArchiveClaim] from rfl,
    List.mem_singleton] at hmem

theorem deletionTS_markedArchiveClaim : parseInt (deletionTS markedArchiveClaim) = some 0 := by
  rw [markedArchiveClaim, deletionTS_marked, parseInt_formatInt (by decide)]

theorem orphan_pass_archive :
    Expired archive 60 markedArchive markedArchiveClaim ∧
    ExactPass archive 60 markedArchive
      (pass archive { clock := 60 } markedArchive).state.cluster := by
  have hwell : ¬ PodUnwell archive markedArchive := by
    rintro ⟨pod, hpod, -⟩
    cases hpod
  have hunmounted : ¬ Mounted archive markedArchive markedArchiveClaim := by
    rintro ⟨pod, hpod, -⟩
    cases hpod
  have hlisted : markedArchiveClaim ∈ seenClaims archive markedArchive :=
    List.mem_filter.2 ⟨List.mem_cons_self, by decide⟩
  refine ⟨⟨hlisted, hunmounted, by decide, 0, deletionTS_markedArchiveClaim, by decide⟩, ?_⟩
  refine (orphan_pass_exact archive { clock := 60 } ⟨fun _ _ => rfl, fun _ => rfl⟩ (by decide)
    markedArchive ⟨fun key pvc h => ?_, fun key pvc h => ?_⟩ fun pvc h _ => ?_).2.2 hwell
  · rw [eq_markedArchiveClaim h]
    decide
  · rw [eq_markedArchiveClaim h]
    exact fun hgoes => absurd hgoes.1 (by decide)
  · rw [eq_markedArchiveClaim (stored_of_seen h).1]
    exact ⟨0, deletionTS_markedArchiveClaim, by decide⟩

end DruidOperator.Controller
