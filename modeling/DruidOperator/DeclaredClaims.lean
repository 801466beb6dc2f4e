import DruidOperator.Footprint

/-!
# Declared claims

A node group may declare volume claims of its own. `makePersistentVolumeClaim` is called for each
entry of the list, and goes over the whole list again: the claim takes the name and the spec of
every entry in turn, and those of the last one stay.

* `DeclaredCreated` — each entry is created, once and as it is declared.
* `declared_created_iff` — that is so for lists of at most one entry.
-/

namespace DruidOperator.Controller

open Interaction Prog Kube

/-- The loop over the claims of a group. -/
def deployClaims (hash : Hash) (nodeSpec : DruidNodeSpec) (lm : StrMap) (uniqueStr : String)
    (l : Loop) : Code Loop :=
  accumulate (fun l pvc =>
    deployObject hash l (makePersistentVolumeClaim pvc nodeSpec l.m lm uniqueStr)) l
    nodeSpec.persistentVolumeClaim

/-- It is the last part of `deployRest`. -/
theorem deployRest_eq_deployClaims (hash : Hash) (ls lm : StrMap) (nodeSpec : DruidNodeSpec)
    (uniqueStr : String) (l : Loop) :
    deployRest hash ls lm nodeSpec uniqueStr l = (do
      let l ← deployOptional hash l
        (nodeSpec.ingress.map fun spec => makeIngress spec nodeSpec l.m ls uniqueStr)
      let l ← deployOptional hash l (nodeSpec.podDisruptionBudgetSpec.map fun spec =>
        makePodDisruptionBudget spec l.m lm uniqueStr)
      let l ← deployOptional hash l
        (nodeSpec.hpAutoScaler.map fun spec => makeHorizontalPodAutoscaler spec l.m ls uniqueStr)
      deployClaims hash nodeSpec lm uniqueStr l) := rfl

/-- The claims that are created in the course of these steps. -/
def createdClaims (steps : List (Step sig World)) : List (Obj .persistentVolumeClaim) :=
  steps.filterMap fun e =>
    match e.req with
    | .create .persistentVolumeClaim obj => some obj
    | _ => none

/-- One claim is created for each entry, with its name and its spec, and with the labels of the
group. -/
structure DeclaredCreated (hash : Hash) (nodeSpec : DruidNodeSpec) (lm : StrMap)
    (uniqueStr : String) (l : Loop) (env : Env) (w : World) : Prop where
  entries :
    ((createdClaims (exec (serve env) (deployClaims hash nodeSpec lm uniqueStr l) w).steps).map
      fun pvc => (pvc.name, pvc.body)).Perm
    (nodeSpec.persistentVolumeClaim.map fun pvc => (pvc.name, pvc.body))
  labels : ∀ pvc ∈ createdClaims
    (exec (serve env) (deployClaims hash nodeSpec lm uniqueStr l) w).steps,
    lm.Matches pvc.metadata.labels

/-! ## What is made of an entry -/

/-- The name and the spec of the last entry stay. -/
theorem makePersistentVolumeClaim_concat {pvc last : Object PersistentVolumeClaim}
    {entries : List (Object PersistentVolumeClaim)} {nodeSpec : DruidNodeSpec}
    (hentries : nodeSpec.persistentVolumeClaim = entries ++ [last])
    (hname : pvc.name ≠ "") (m : Druid) (ls : StrMap) (uniqueStr : String) :
    (makePersistentVolumeClaim pvc nodeSpec m ls uniqueStr).key = (m.ns, last.name) ∧
      (makePersistentVolumeClaim pvc nodeSpec m ls uniqueStr).body = last.body ∧
      (makePersistentVolumeClaim pvc nodeSpec m ls uniqueStr).metadata.labels =
        some (stampLabels pvc.metadata.labels ls) := by
  have hkept : ∀ (entries : List (Object PersistentVolumeClaim))
      (start : Obj .persistentVolumeClaim),
      (entries.foldl (fun pvc p => { pvc with
        metadata := { pvc.metadata with name := p.name }, body := p.body }) start).ns = start.ns ∧
      (entries.foldl (fun pvc p => { pvc with
        metadata := { pvc.metadata with name := p.name }, body := p.body }) start).metadata.labels =
        start.metadata.labels := by
    intro entries
    induction entries with
    | nil => exact fun start => ⟨rfl, rfl⟩
    | cons p entries ih => exact fun start => ih _
  unfold makePersistentVolumeClaim
  dsimp only
  rw [if_neg hname, hentries, List.foldl_append]
  exact ⟨Prod.ext (hkept entries _).1 rfl, rfl, (hkept entries _).2⟩

theorem matches_stampLabels (template : Option StrMap) (ls : StrMap) :
    ls.Matches (some (stampLabels template ls)) := by
  rw [StrMap.matches_iff]
  exact fun key value hkey => lookup_stampLabels template hkey

/-! ## The loop -/

section Loop

variable {hash : Hash} {nodeSpec : DruidNodeSpec} {lm : StrMap} {uniqueStr : String} {l : Loop}

/-- All claims have the name of the last entry. -/
theorem uses_deployClaims {last : Object PersistentVolumeClaim}
    {entries : List (Object PersistentVolumeClaim)}
    (hentries : nodeSpec.persistentVolumeClaim = entries ++ [last])
    (hnames : ∀ pvc ∈ nodeSpec.persistentVolumeClaim, pvc.name ≠ "") :
    (deployClaims hash nodeSpec lm uniqueStr l).Uses
      (Request.Within (applies .persistentVolumeClaim (l.m.ns, last.name))) := by
  rw [deployClaims, accumulate_claims hash nodeSpec lm uniqueStr _ (SameIdentity.refl l.m)]
  refine (Uses.forEach fun obj hobj => ?_).bind fun _ => trivial
  obtain ⟨pvc, hpvc, rfl⟩ := List.mem_map.1 hobj
  rw [← (makePersistentVolumeClaim_concat hentries (hnames pvc hpvc) l.m lm uniqueStr).1,
    ← prepare_key hash l.m]
  exact uses_applyObj (fun _ _ => rfl) _

theorem name_of_createdClaims {last : Object PersistentVolumeClaim}
    {entries : List (Object PersistentVolumeClaim)}
    (hentries : nodeSpec.persistentVolumeClaim = entries ++ [last])
    (hnames : ∀ pvc ∈ nodeSpec.persistentVolumeClaim, pvc.name ≠ "") {env : Env} {w : World}
    {pvc : Obj .persistentVolumeClaim}
    (hpvc : pvc ∈ createdClaims
      (exec (serve env) (deployClaims hash nodeSpec lm uniqueStr l) w).steps) :
    pvc.name = last.name := by
  obtain ⟨e, he, hcreate⟩ := List.mem_filterMap.1 hpvc
  have hwithin := (uses_deployClaims hentries hnames).steps he
  split at hcreate
  · next obj hreq =>
      cases hcreate
      rw [hreq, Request.within_create] at hwithin
      exact congrArg Prod.snd hwithin.2.2
  · cases hcreate

theorem createdClaims_single (hash : Hash) (lm : StrMap) (uniqueStr : String) (l : Loop)
    {pvc : Object PersistentVolumeClaim} (hentries : nodeSpec.persistentVolumeClaim = [pvc])
    {env : Env} (henv : env.Calm) {w : World}
    (hempty : ∀ key, (w.cluster.store .persistentVolumeClaim).find? key = none) :
    createdClaims (exec (serve env) (deployClaims hash nodeSpec lm uniqueStr l) w).steps =
      [prepare hash l.m (makePersistentVolumeClaim pvc nodeSpec l.m lm uniqueStr)] := by
  rw [deployClaims, accumulate_claims hash nodeSpec lm uniqueStr _ (SameIdentity.refl l.m),
    hentries, List.map_singleton, forEach_cons]
  generalize prepare hash l.m (makePersistentVolumeClaim pvc nodeSpec l.m lm uniqueStr) = obj
  have hget : serve env (.get .persistentVolumeClaim obj.ns obj.name) w =
      (.error (notFoundError obj.name), ⟨w.cluster, w.calls + 1⟩) := by
    rw [serve_calm henv, perform, Cluster.find?, hempty]
  simp only [applyObj, createOrUpdate, getObj, createObj, call_bind, ret_bind, exec_call, hget,
    notFoundError, if_true, bind_assoc]
  rw [serve_calm henv, perform, hempty]
  rfl

/-- **Declared claims.** With distinct names that are not empty, in an empty store and with every
request served, each entry is created as it is declared exactly if there is at most one. -/
theorem declared_created_iff (hash : Hash) (nodeSpec : DruidNodeSpec) (lm : StrMap)
    (uniqueStr : String) (l : Loop)
    (hnodup : (nodeSpec.persistentVolumeClaim.map Object.name).Nodup)
    (hnames : ∀ pvc ∈ nodeSpec.persistentVolumeClaim, pvc.name ≠ "") (env : Env) (henv : env.Calm)
    (w : World) (hempty : ∀ key, (w.cluster.store .persistentVolumeClaim).find? key = none) :
    DeclaredCreated hash nodeSpec lm uniqueStr l env w ↔
      nodeSpec.persistentVolumeClaim.length ≤ 1 := by
  constructor
  · intro h
    rcases List.eq_nil_or_concat nodeSpec.persistentVolumeClaim with hnil | ⟨entries, last, hlast⟩
    · simp [hnil]
    · rw [List.concat_eq_append] at hlast
      cases entries with
      | nil => simp [hlast]
      | cons first entries =>
          -- the first entry has a name of its own, and is not created
          exfalso
          have hmem : (first.name, first.body) ∈
              nodeSpec.persistentVolumeClaim.map fun pvc => (pvc.name, pvc.body) := by
            simp [hlast]
          obtain ⟨pvc, hpvc, heq⟩ := List.mem_map.1 (h.entries.mem_iff.2 hmem)
          have hname := name_of_createdClaims hlast hnames hpvc
          rw [hlast, List.map_append, List.map_cons, List.cons_append, List.nodup_cons] at hnodup
          refine hnodup.1 ?_
          have hsame : first.name = last.name := (congrArg Prod.fst heq).symm.trans hname
          simp [hsame]
  · intro hlength
    match hentries : nodeSpec.persistentVolumeClaim with
    | [] =>
        have hnone : createdClaims
            (exec (serve env) (deployClaims hash nodeSpec lm uniqueStr l) w).steps = [] := by
          rw [deployClaims, hentries]
          rfl
        exact ⟨by rw [hnone, hentries], by simp [hnone]⟩
    | [pvc] =>
        have hcreated := createdClaims_single hash lm uniqueStr l hentries henv hempty
        have hconcat : nodeSpec.persistentVolumeClaim = [] ++ [pvc] := hentries
        obtain ⟨hkey, hbody, hlabels⟩ := makePersistentVolumeClaim_concat hconcat
          (hnames pvc (by simp [hentries])) l.m lm uniqueStr
        refine ⟨?_, fun made hmade => ?_⟩
        · rw [hcreated, hentries, List.map_singleton, List.map_singleton]
          exact .of_eq (congrArg (fun x => [x]) (Prod.ext (congrArg Prod.snd hkey) hbody))
        · rw [hcreated, List.mem_singleton] at hmade
          subst hmade
          have hstamped := matches_stampLabels pvc.metadata.labels lm
          rwa [← hlabels] at hstamped
    | _ :: _ :: _ => simp [hentries] at hlength

end Loop

/-- A group that declares claims with these names. -/
def declaringGroup (names : List String) : DruidNodeSpec where
  nodeType := .historical
  druidPort := 8083
  replicas := 1
  persistentVolumeClaim := names.map fun name =>
    ⟨"", "", { name := name }, { storageClassName := some name }⟩

def declaringLoop : Loop :=
  ⟨{ metadata := { name := "c", ns := "d" }, body := { spec := { image := "v1" } } }, fun _ => []⟩

theorem declared_created_data :
    DeclaredCreated (fun _ _ => "") (declaringGroup ["data"]) ∅ "druid-c-h" declaringLoop {} {} :=
  (declared_created_iff (fun _ _ => "") (declaringGroup ["data"]) ∅ "druid-c-h" declaringLoop
    (by decide) (by decide) {} ⟨fun _ _ => rfl, fun _ => rfl⟩ {} fun _ => rfl).2 (by decide)

/-- Of two claims only the last is created. -/
theorem first_claim_lost :
    ((declaringGroup ["data", "logs"]).persistentVolumeClaim.map Object.name).Nodup ∧
    (createdClaims
      (exec (serve {}) (deployClaims (fun _ _ => "") (declaringGroup ["data", "logs"]) ∅
      "druid-c-h" declaringLoop) {}).steps).map Object.name = ["logs"] ∧
    ¬ DeclaredCreated (fun _ _ => "") (declaringGroup ["data", "logs"]) ∅ "druid-c-h" declaringLoop
      {} {} := by
  have hcreated : (createdClaims (exec (serve {}) (deployClaims (fun _ _ => "")
      (declaringGroup ["data", "logs"]) ∅ "druid-c-h" declaringLoop) {}).steps).map Object.name =
      ["logs"] := by
    decide +kernel
  refine ⟨by decide, hcreated, fun h => ?_⟩
  have hlength := h.entries.length_eq
  rw [List.length_map, ← List.length_map (f := Object.name), hcreated] at hlength
  exact absurd hlength (by decide)

end DruidOperator.Controller
