import DruidOperator.WorkloadAnnotations

/-!
# What the validation accepts

`verifyDruidSpec` looks for its regular expression anywhere in the key of a node group, so one
character of `[a-z0-9]` is enough. And it looks at the storage classes of the node groups whose kind
is the text `StatefulSet`, while every kind other than `Deployment` makes a StatefulSet, with the
templates of the cluster besides those of the group.

* `WellFormed` — the specs that are to be accepted.
* `verify_iff` — what is accepted.
* `validation_exact_iff`, `claimed_classes_iff` — where this is what is meant.
-/

namespace DruidOperator.Controller

open Interaction Prog Kube

/-! ## Well-formed specs -/

/-- A storage class that is neither nil nor empty. -/
def NamesClass (vct : Object PersistentVolumeClaim) : Prop :=
  ∃ name, vct.body.storageClassName = some name ∧ name ≠ ""

/-- A node group in which everything but its key is in order. -/
structure SoundGroup (drd : Druid) (g : ServiceGroup) : Prop where
  image : drd.spec.image ≠ "" ∨ g.spec.image ≠ ""
  containers : ((getAllAdditionalContainers drd g.spec).map AdditionalContainer.containerName).Nodup
  classes : g.spec.kind = "StatefulSet" → ∀ vct ∈ g.spec.volumeClaimTemplates, NamesClass vct

/-- The specs that are to be accepted: every key is in the language as a whole. -/
def WellFormed (drd : Druid) : Prop :=
  ∀ g ∈ drd.spec.nodes.items, SoundGroup drd g ∧ g.key.toList ∈ keyValidationRegex.lang

/-! ## The parts of the validation -/

theorem hasDuplicateString_eq_none {seen names : List String} :
    hasDuplicateString seen names = none ↔ names.Nodup ∧ ∀ s ∈ names, s ∉ seen := by
  induction names generalizing seen with
  | nil => simp [hasDuplicateString]
  | cons s names ih =>
      rw [hasDuplicateString, List.nodup_cons]
      by_cases hs : s ∈ seen
      · simp [hs]
      · rw [if_neg hs, ih]
        constructor
        · rintro ⟨hnodup, hnew⟩
          refine ⟨⟨fun hmem => hnew s hmem List.mem_cons_self, hnodup⟩,
            List.forall_mem_cons.2 ⟨hs, fun t ht hseen => ?_⟩⟩
          exact hnew t ht (List.mem_cons_of_mem _ hseen)
        · rintro ⟨⟨hself, hnodup⟩, hnew⟩
          refine ⟨hnodup, fun t ht hmem => ?_⟩
          rcases List.mem_cons.1 hmem with rfl | hseen
          · exact hself ht
          · exact hnew t (List.mem_cons_of_mem _ ht) hseen

theorem validateContainers_iff (drd : Druid) (nodeSpec : DruidNodeSpec) :
    validateNodeAdditionalContainersSpec drd nodeSpec = .ok () ↔
      ((getAllAdditionalContainers drd nodeSpec).map AdditionalContainer.containerName).Nodup := by
  have hnone := @hasDuplicateString_eq_none []
    ((getAllAdditionalContainers drd nodeSpec).map AdditionalContainer.containerName)
  simp only [List.not_mem_nil, not_false_eq_true, implies_true, and_true] at hnone
  rw [← hnone, validateNodeAdditionalContainersSpec]
  split
  · next name hname => simp [hname]
  · next hname => simp [hname]

theorem namesClass_iff (vct : Object PersistentVolumeClaim) :
    NamesClass vct ↔ vct.body.storageClassName.getD "" ≠ "" := by
  unfold NamesClass
  cases vct.body.storageClassName <;> simp

theorem validateClasses_iff (nodeSpec : DruidNodeSpec) :
    validateNodeVolumeClaimTemplateSpec nodeSpec = .ok () ↔
      ∀ vct ∈ nodeSpec.volumeClaimTemplates, NamesClass vct := by
  rw [validateNodeVolumeClaimTemplateSpec, firstError_eq_ok]
  refine forall₂_congr fun vct _ => ?_
  rw [namesClass_iff]
  split_ifs with hempty
  · simp [hempty]
  · simp [hempty]

theorem foldl_append_eq_empty {α : Type} (f : α → String) (xs : List α) (acc : String) :
    xs.foldl (fun text x => text ++ f x) acc = "" ↔ acc = "" ∧ ∀ x ∈ xs, f x = "" := by
  induction xs generalizing acc with
  | nil => simp
  | cons x xs ih =>
      rw [List.foldl_cons, ih, List.forall_mem_cons, String.append_eq_empty_iff, and_assoc]

/-! ## Keys -/

def isAlnum (c : Char) : Bool := ('a' ≤ c && c ≤ 'z') || ('0' ≤ c && c ≤ '9')

/-- One character is enough. -/
theorem found_iff_alnum (cs : List Char) :
    keyValidationRegex.found cs = true ↔ ∃ c ∈ cs, isAlnum c = true := by
  rw [Regex.found_iff]
  constructor
  · rintro ⟨w, hw, hmem⟩
    obtain ⟨label, hlabel, rest, -, rfl⟩ := Regex.mem_lang_seq.1 hmem
    obtain ⟨first, ⟨c, hc, rfl⟩, tail, -, rfl⟩ := Regex.mem_lang_seq.1 hlabel
    exact ⟨c, hw.subset (by simp), hc⟩
  · rintro ⟨c, hmem, hc⟩
    refine ⟨[c], (List.singleton_infix_iff c cs).2 hmem, ?_⟩
    refine Regex.mem_lang_seq.2 ⟨[c], ?_, [], Language.nil_mem_kstar _, rfl⟩
    exact Regex.mem_lang_seq.2 ⟨[c], ⟨c, hc, rfl⟩, [], .inl rfl, rfl⟩

theorem nodeErrors_eq_empty (drd : Druid) (g : ServiceGroup) :
    nodeErrors drd g = "" ↔
      (drd.spec.image ≠ "" ∨ g.spec.image ≠ "") ∧ ∃ c ∈ g.key.toList, isAlnum c = true := by
  rw [nodeErrors, String.append_eq_empty_iff, ← found_iff_alnum]
  refine and_congr ?_ ?_
  · by_cases himage : drd.spec.image = "" ∧ g.spec.image = ""
    · rw [if_pos himage]
      simp [himage.1, himage.2]
    · rw [if_neg himage]
      exact ⟨fun _ => not_and_or.1 himage, fun _ => rfl⟩
  · by_cases hfound : keyValidationRegex.found g.key.toList = true
    · simp [hfound]
    · simp [hfound]

/-! ## The validation -/

/-- **What is accepted.** -/
theorem verify_iff (o : MapOrders) (drd : Druid) :
    verifyDruidSpec o drd = .ok () ↔ ∀ g ∈ drd.spec.nodes.items,
      SoundGroup drd g ∧ ∃ c ∈ g.key.toList, isAlnum c = true := by
  have hcontainers : validateAdditionalContainersSpec drd (o.containers.nodes drd) = .ok () ↔
      ∀ g ∈ drd.spec.nodes.items, ((getAllAdditionalContainers drd g.spec).map
        AdditionalContainer.containerName).Nodup := by
    rw [validateAdditionalContainersSpec, firstError_eq_ok]
    simp only [MapOrder.mem_nodes, validateContainers_iff]
  have hclasses : validateVolumeClaimTemplateSpec (o.claims.nodes drd) = .ok () ↔
      ∀ g ∈ drd.spec.nodes.items, g.spec.kind = "StatefulSet" →
        ∀ vct ∈ g.spec.volumeClaimTemplates, NamesClass vct := by
    rw [validateVolumeClaimTemplateSpec, firstError_eq_ok]
    simp only [MapOrder.mem_nodes]
    refine forall₂_congr fun g _ => ?_
    split_ifs with hkind
    · rw [validateClasses_iff]
      exact ⟨fun h _ => h, fun h => h hkind⟩
    · exact ⟨fun _ h => absurd h hkind, fun _ => rfl⟩
  have hkeys : (o.keys.nodes drd).foldl (fun errorMsg g => errorMsg ++ nodeErrors drd g) "" = "" ↔
      ∀ g ∈ drd.spec.nodes.items, (drd.spec.image ≠ "" ∨ g.spec.image ≠ "") ∧
        ∃ c ∈ g.key.toList, isAlnum c = true := by
    rw [foldl_append_eq_empty]
    simp only [MapOrder.mem_nodes, nodeErrors_eq_empty, true_and]
  have hparts : verifyDruidSpec o drd = .ok () ↔
      validateAdditionalContainersSpec drd (o.containers.nodes drd) = .ok () ∧
      validateVolumeClaimTemplateSpec (o.claims.nodes drd) = .ok () ∧
      (o.keys.nodes drd).foldl (fun errorMsg g => errorMsg ++ nodeErrors drd g) "" = "" := by
    unfold verifyDruidSpec
    cases validateAdditionalContainersSpec drd (o.containers.nodes drd) with
    | error e => exact ⟨fun h => (by cases h), fun h => (by cases h.1)⟩
    | ok u =>
        cases validateVolumeClaimTemplateSpec (o.claims.nodes drd) with
        | error e => exact ⟨fun h => (by cases h), fun h => (by cases h.2.1)⟩
        | ok u =>
            generalize (o.keys.nodes drd).foldl
              (fun errorMsg g => errorMsg ++ nodeErrors drd g) "" = errorMsg
            show (if errorMsg = "" then Except.ok () else Except.error (Error.mk errorMsg false)) =
              Except.ok () ↔ _
            by_cases hmsg : errorMsg = "" <;> simp [hmsg]
  rw [hparts, hcontainers, hclasses, hkeys]
  constructor
  · rintro ⟨hcon, hcla, hkey⟩ g hg
    exact ⟨⟨(hkey g hg).1, hcon g hg, hcla g hg⟩, (hkey g hg).2⟩
  · intro h
    exact ⟨fun g hg => (h g hg).1.containers, fun g hg => (h g hg).1.classes,
      fun g hg => ⟨(h g hg).1.image, (h g hg).2⟩⟩

/-- Every key that has a character of `[a-z0-9]` in it is in the language, unless the spec is
rejected for another reason. -/
def KeysWhole (drd : Druid) : Prop :=
  (∀ g ∈ drd.spec.nodes.items, SoundGroup drd g ∧ ∃ c ∈ g.key.toList, isAlnum c = true) →
    ∀ g ∈ drd.spec.nodes.items, g.key.toList ∈ keyValidationRegex.lang

theorem alnum_of_mem_lang {cs : List Char} (h : cs ∈ keyValidationRegex.lang) :
    ∃ c ∈ cs, isAlnum c = true :=
  (found_iff_alnum cs).1 ((Regex.found_iff _ _).2 ⟨cs, List.infix_rfl, h⟩)

/-- **The validation accepts the well-formed specs exactly where keys are whole.** -/
theorem validation_exact_iff (o : MapOrders) (drd : Druid) :
    (verifyDruidSpec o drd = .ok () ↔ WellFormed drd) ↔ KeysWhole drd := by
  rw [verify_iff]
  constructor
  · intro h haccepted g hg
    exact (h.1 haccepted g hg).2
  · intro hwhole
    refine ⟨fun haccepted g hg => ⟨(haccepted g hg).1, hwhole haccepted g hg⟩, fun h g hg => ?_⟩
    exact ⟨(h g hg).1, alnum_of_mem_lang (h g hg).2⟩

/-- A cluster of one group without a template. -/
def keyedCluster (key : String) : Druid where
  metadata := { name := "c", ns := "d" }
  body := { spec := {
    image := "v1"
    nodes := ⟨[⟨key, { nodeType := .broker, druidPort := 8082, replicas := 1 }⟩], by simp⟩ } }

/-- A key with spaces and capital letters is accepted for the one letter in it. -/
theorem spaced_key_accepted :
    verifyDruidSpec {} (keyedCluster "A b") = .ok () ∧ ¬ WellFormed (keyedCluster "A b") := by
  refine ⟨by decide +kernel, fun h => ?_⟩
  have hkey := (h _ List.mem_cons_self).2
  exact absurd hkey (by decide +kernel)

/-! ## The templates of a StatefulSet -/

theorem Shares.volumeClaimTemplates_eq {m m' : Druid} (hm : Shares m m') :
    m'.spec.volumeClaimTemplates = m.spec.volumeClaimTemplates := by
  obtain ⟨services, annotations, liveness, readiness, startUp, rfl, -⟩ := hm
  rfl

/-- The templates of the StatefulSet that is made for a group, whatever the groups before left. -/
theorem plannedStatefulSet_templates (hash : Hash) (commonConfigSHA : String) (m : Druid)
    (done : List ServiceGroup) (g : ServiceGroup) :
    (plannedStatefulSet hash commonConfigSHA (seenAfter hash commonConfigSHA m done)
      g).body.spec.volumeClaimTemplates =
      m.spec.volumeClaimTemplates ++ g.spec.volumeClaimTemplates := by
  have hshares := (shares_seenAfter hash commonConfigSHA m done).afterServices hash g
  show (afterServices hash (seenAfter hash commonConfigSHA m done) g).spec.volumeClaimTemplates ++
    g.spec.volumeClaimTemplates = _
  rw [hshares.volumeClaimTemplates_eq]

/-- **The storage classes of a StatefulSet.** For an accepted spec and a group that gets a
StatefulSet, every template names a class exactly if those of the cluster do and, unless the kind of
the group is spelled out, those of the group. -/
theorem claimed_classes_iff (hash : Hash) (o : MapOrders) (drd : Druid)
    (haccepted : verifyDruidSpec o drd = .ok ()) (commonConfigSHA : String)
    (done : List ServiceGroup) (g : ServiceGroup) (rest : List ServiceGroup)
    (hgroup : getNodeSpecsByOrder o.groups drd = done ++ g :: rest)
    (hkind : g.spec.kind ≠ "Deployment") :
    workloadKind g.spec = .statefulSet ∧
    ((∀ vct ∈ (plannedStatefulSet hash commonConfigSHA (seenAfter hash commonConfigSHA drd done)
        g).body.spec.volumeClaimTemplates, NamesClass vct) ↔
      (∀ vct ∈ drd.spec.volumeClaimTemplates, NamesClass vct) ∧
        (g.spec.kind = "StatefulSet" ∨ ∀ vct ∈ g.spec.volumeClaimTemplates, NamesClass vct)) := by
  have hmem : g ∈ drd.spec.nodes.items := by
    refine ((mem_getNodeSpecsByOrder (o := o.groups)).1 ?_).1
    simp [hgroup]
  refine ⟨if_neg hkind, ?_⟩
  rw [plannedStatefulSet_templates, List.forall_mem_append]
  refine and_congr_right fun _ => ⟨.inr, ?_⟩
  rintro (hspelled | hclasses)
  · exact ((verify_iff o drd).1 haccepted g hmem).1.classes hspelled
  · exact hclasses

/-- A historical with a disk, whose template may name a storage class. -/
def diskedGroup (kind : String) (storageClassName : Option String) : ServiceGroup :=
  ⟨"h", {
    nodeType := .historical
    druidPort := 8083
    replicas := 1
    kind := kind
    volumeClaimTemplates := [{ body := { storageClassName := storageClassName } }] }⟩

def diskedCluster (kind : String) (storageClassName : Option String) : Druid where
  metadata := { name := "c", ns := "d" }
  body := { spec := {
    image := "v1"
    nodes := ⟨[diskedGroup kind storageClassName], by simp⟩ } }

theorem claimed_classes_spelled :
    verifyDruidSpec {} (diskedCluster "StatefulSet" (some "gp2")) = .ok () ∧
    ∀ vct ∈ (plannedStatefulSet (fun _ _ => "") "" (diskedCluster "StatefulSet" (some "gp2"))
      (diskedGroup "StatefulSet" (some "gp2"))).body.spec.volumeClaimTemplates, NamesClass vct := by
  have haccepted : verifyDruidSpec {} (diskedCluster "StatefulSet" (some "gp2")) = .ok () := by
    decide +kernel
  have hclasses := claimed_classes_iff (fun _ _ => "") {} _ haccepted "" []
    (diskedGroup "StatefulSet" (some "gp2")) [] rfl (by decide)
  exact ⟨haccepted, hclasses.2.2 ⟨fun _ h => (by cases h), .inl rfl⟩⟩

/-- With its kind left empty the group gets a StatefulSet too, and no class is asked for. -/
theorem unnamed_class_accepted :
    verifyDruidSpec {} (diskedCluster "" none) = .ok () ∧
    getNodeSpecsByOrder .asStored (diskedCluster "" none) = [diskedGroup "" none] ∧
    workloadKind (diskedGroup "" none).spec = .statefulSet ∧
    ¬ ∀ vct ∈ (plannedStatefulSet (fun _ _ => "") "" (diskedCluster "" none)
      (diskedGroup "" none)).body.spec.volumeClaimTemplates, NamesClass vct := by
  refine ⟨by decide +kernel, rfl, rfl, fun h => ?_⟩
  obtain ⟨name, hname, -⟩ := h _ List.mem_cons_self
  cases hname

end DruidOperator.Controller
