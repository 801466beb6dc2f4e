import DruidOperator.Workers

/-!
# Users and workers on one resource

A resource is written by its users and by the workers of the manager, and each of them goes by what
it read some time ago. The API server gives every write a new version and refuses an update that
starts from an old one. The queue of the manager is filled by events and by requeues. This file says
what comes of it, over all interleavings.

* `evolves_afterRequest` — what one request of a worker writes has a version of its own.
* `edits_kept` — a worker never changes what users have written into a resource.
* `attended` — a stored resource that the predicates accept is always queued or being reconciled.
-/

namespace DruidOperator.Controller.Manager

open Interaction Prog Kube Runs

variable {c c' : Cluster} {s : State} {m : Druid} {req : Request}
    {rest : Response req → Code Result} {fault : Option Fault} {r : Reconciling}

/-! ## What users write -/

/-- What users write into a resource, and what the API server alone sets. Only the spec of a
resource that is being deleted is sent again. -/
structure SameEdits (old new : Druid) : Prop where
  spec : new.spec = old.spec ∨
    old.metadata.deletionTimestamp.isSome ∧ new.spec = sentSpec old.spec
  labels : new.metadata.labels = old.metadata.labels
  annotations : new.metadata.annotations = old.metadata.annotations
  ownerReferences : new.metadata.ownerReferences = old.metadata.ownerReferences
  uid : new.metadata.uid = old.metadata.uid
  deletionTimestamp : new.metadata.deletionTimestamp = old.metadata.deletionTimestamp

theorem SameEdits.refl (m : Druid) : SameEdits m m := ⟨.inl rfl, rfl, rfl, rfl, rfl, rfl⟩

/-! ## Versions -/

/-- Stored resources have versions that were given out. -/
def Versioned (c : Cluster) : Prop :=
  ∀ key cr, (c.store .druid).find? key = some cr →
    cr.metadata.resourceVersion ≠ 0 ∧ cr.metadata.resourceVersion ≤ c.version

/-- What is stored afterwards was stored before, or has a version of its own. -/
structure Evolves (c c' : Cluster) : Prop where
  version : c.version ≤ c'.version
  resources : ∀ key cr, (c'.store .druid).find? key = some cr →
    (c.store .druid).find? key = some cr ∨
      c.version < cr.metadata.resourceVersion ∧ cr.metadata.resourceVersion ≤ c'.version

theorem Evolves.of_store (hstore : c'.store .druid = c.store .druid)
    (hversion : c.version ≤ c'.version) : Evolves c c' where
  version := hversion
  resources key cr hcr := .inl (by rwa [hstore] at hcr)

theorem Evolves.of_put (c : Cluster) (new : Druid) :
    Evolves c (c.modify .druid (Cluster.put .druid new)) where
  version := Nat.le_succ _
  resources key cr hcr := by
    rw [Cluster.modify_store_self] at hcr
    rcases Cluster.find?_put_cases hcr with ⟨-, hold⟩ | ⟨-, rfl⟩
    · exact .inl hold
    · exact .inr ⟨Nat.lt_succ_self _, le_rfl⟩

/-- **One request** of a worker gives the version it gives out to what it writes. -/
theorem evolves_afterRequest (clock : Int) (fault : Option Fault) (req : Request) (c : Cluster) :
    Evolves c (afterRequest clock fault req c) := by
  rcases afterRequest_cases clock fault req c with heq | heq <;> rw [heq]
  · have heffect := perform_effect clock req c .druid
    generalize (perform clock req c).2 = c' at heffect ⊢
    cases heffect with
    | none hstore hversion => exact .of_store hstore hversion
    | created hnew =>
        refine ⟨Nat.le_succ _, fun key cr hcr => ?_⟩
        rw [Cluster.modify_store_self, Table.find?_insert (by exact hnew)] at hcr
        split_ifs at hcr
        · cases hcr
          exact .inr ⟨Nat.lt_succ_self _, le_rfl⟩
        · exact .inl hcr
    | deleted =>
        refine ⟨Nat.le_succ _, fun key cr hcr => ?_⟩
        rw [Cluster.modify_store_self, Table.find?_erase] at hcr
        split_ifs at hcr
        exact .inl hcr
    | updated hstored hversion => exact .of_put c _
    | resource stored hwrite hstored => exact .of_put c _
  · exact .of_store rfl le_rfl

theorem evolves_storeCR (c : Cluster) (cr : Druid) : Evolves c (storeCR c cr) := by
  have hversion : (storeCR c cr).version = c.version + 1 := by
    unfold storeCR
    split <;> rfl
  refine ⟨hversion ▸ Nat.le_succ _, fun key m hm => ?_⟩
  by_cases heq : key = cr.key
  · subst heq
    rw [eq_of_find?_storeCR hm, hversion]
    exact .inr ⟨Nat.lt_succ_self _, le_rfl⟩
  · exact .inl ((find?_storeCR_of_ne heq).symm.trans hm)

theorem evolves_deleteCR (c : Cluster) (key : String × String) (t : Int) :
    Evolves c (deleteCR c key t) := by
  rcases deleteCR_cases c key t with heq | ⟨stored, -, -, heq⟩ <;> rw [heq]
  · exact .of_store rfl le_rfl
  · exact .of_put c _

theorem Versioned.evolves (h : Versioned c) (hc' : Evolves c c') : Versioned c' := by
  intro key cr hcr
  rcases hc'.resources key cr hcr with hold | ⟨hlt, hle⟩
  · exact ⟨(h key cr hold).1, (h key cr hold).2.trans hc'.version⟩
  · exact ⟨by omega, hle⟩

/-- Other controllers give out no version twice. -/
def VersionsGrow (s : State) : Action → Prop
  | .outside change => s.cluster.version ≤ (change s.cluster).version
  | _ => True

theorem VersionsGrow.evolves {a : Action} (ha : VersionsGrow s a)
    (hc' : c' ∈ userCluster s.cluster a) : Evolves s.cluster c' := by
  cases a with
  | store cr =>
      cases hc'
      exact evolves_storeCR _ _
  | delete key t =>
      cases hc'
      exact evolves_deleteCR _ _ _
  | outside change =>
      cases hc'
      exact .of_store (by simp) ha
  | _ => cases hc'

/-! ## Edits of users -/

/-- Of a resource that stays nothing that users wrote is changed, none appears, and one that is gone
was being deleted. -/
structure KeepsEdits (c c' : Cluster) : Prop where
  stays : ∀ key cr', (c'.store .druid).find? key = some cr' →
    ∃ cr, (c.store .druid).find? key = some cr ∧ SameEdits cr cr'
  gone : ∀ key cr, (c.store .druid).find? key = some cr → (c'.store .druid).find? key = none →
    cr.metadata.deletionTimestamp.isSome

/-- The resource in hand is the stored one, or the stored one has another version. -/
structure Fresh (m : Druid) (c : Cluster) : Prop where
  version : m.metadata.resourceVersion ≠ 0 ∧ m.metadata.resourceVersion ≤ c.version
  same : ∀ cr, (c.store .druid).find? m.key = some cr →
    cr.metadata.resourceVersion = m.metadata.resourceVersion → cr = m

theorem Fresh.evolves (h : Fresh m c) (hc' : Evolves c c') : Fresh m c' where
  version := ⟨h.version.1, h.version.2.trans hc'.version⟩
  same cr hcr heq := by
    rcases hc'.resources m.key cr hcr with hold | ⟨hlt, -⟩
    · exact h.same cr hold heq
    · have := h.version.2
      omega

theorem Versioned.fresh (h : Versioned c) (hm : (c.store .druid).find? m.key = some m) :
    Fresh m c where
  version := h m.key m hm
  same cr hcr _ := by
    rw [hm] at hcr
    exact (Option.some.inj hcr).symm

theorem KeepsEdits.of_store (hstore : c'.store .druid = c.store .druid) : KeepsEdits c c' where
  stays key cr' hcr' := ⟨cr', by rwa [hstore] at hcr', .refl cr'⟩
  gone key cr hcr hnone := by
    rw [hstore, hcr] at hnone
    cases hnone

theorem KeepsEdits.of_put {stored new : Druid}
    (hstored : (c.store .druid).find? stored.key = some stored) (hkey : new.key = stored.key)
    (hsame : SameEdits stored new) : KeepsEdits c (c.modify .druid (Cluster.put .druid new)) where
  stays key cr' hcr' := by
    rw [Cluster.modify_store_self] at hcr'
    rcases Cluster.find?_put_cases hcr' with ⟨-, hold⟩ | ⟨rfl, rfl⟩
    · exact ⟨cr', hold, .refl cr'⟩
    · exact ⟨stored, hkey ▸ hstored, hsame.spec, hsame.labels, hsame.annotations,
        hsame.ownerReferences, hsame.uid, hsame.deletionTimestamp⟩
  gone key cr hcr hnone := by
    rw [Cluster.modify_store_self] at hnone
    by_cases heq : key = new.key
    · subst heq
      rw [hkey, hstored] at hcr
      cases hcr
      by_contra hstays
      -- one that is not being deleted is put back
      rw [Cluster.find?_put_self (k := .druid) new _ (fun hgone => hstays ?_)
        (by rw [hkey, hstored]; exact Option.some_ne_none _)] at hnone
      · cases hnone
      · rw [← hsame.deletionTimestamp]
        exact hgone.1
    · rw [Cluster.find?_put_of_ne (k := .druid) heq, hcr] at hnone
      cases hnone

/-- **A polite request of a worker with a fresh resource keeps the edits.** -/
theorem Polite.keepsEdits (hreq : Polite m req) (hm : Fresh m c) (clock : Int)
    (fault : Option Fault) : KeepsEdits c (afterRequest clock fault req c) := by
  rcases afterRequest_cases clock fault req c with heq | heq <;> rw [heq]
  swap
  · exact .of_store rfl
  have heffect := perform_effect clock req c .druid
  generalize (perform clock req c).2 = c' at heffect ⊢
  cases heffect with
  | none hstore hversion => exact .of_store hstore
  | created hnew => rcases (hreq.own _ _ _ rfl rfl).1 with hv | hv <;> cases hv
  | deleted => rcases (hreq.own _ _ _ rfl rfl).1 with hv | hv <;> cases hv
  | resource stored hwrite hstored =>
      exact .of_put hstored rfl ⟨.inl rfl, rfl, rfl, rfl, rfl, rfl⟩
  | @updated _ obj stored hstored hversion =>
      obtain ⟨hdel, finalizers, rfl⟩ := hreq.update obj rfl
      -- the version that was read is still the stored one
      obtain rfl : stored = m := hm.same stored hstored (hversion hm.version.1).symm
      have hfound : (c.store .druid).find? stored.key = some stored := hstored
      exact .of_put hfound rfl ⟨.inr ⟨hdel, rfl⟩, rfl, rfl, rfl, rfl, rfl⟩

/-- What a worker has still to do: all of it, what follows the look at a resource that is fresh, or
nothing, where the look failed. -/
inductive Remains (hash : Hash) (c : Cluster) (key : String × String) : Code Result → Prop where
  | all (o : MapOrders) (decoding : Decoding) (dynamicConfigs : Except Error Unit) :
      Remains hash c key (reconcile hash o dynamicConfigs key decoding)
  | some (m : Druid) (hm : Fresh m c) (rest : Code Result) (hrest : rest.Uses (Polite m)) :
      Remains hash c key rest
  | nothing (rest : Code Result) (hrest : rest.Uses fun _ => False) : Remains hash c key rest

theorem afterRequest_read (hread : req.write = none) (clock : Int) (fault : Option Fault)
    (c : Cluster) : afterRequest clock fault req c = c :=
  congrArg World.cluster (serve_read (workerEnv_alone clock fault) (w := ⟨c, 0⟩) hread)

section Runs

variable {hash : Hash} {denyList : List String} {c : Cluster} {key : String × String}

theorem Remains.request (h : Remains hash c key (.call req rest)) :
    (∃ m, Fresh m c ∧ Polite m req) ∨ req.write = none := by
  generalize hcall : (.call req rest : Code Result) = code at h
  cases h with
  | all o decoding dynamicConfigs =>
      rw [reconcile_eq] at hcall
      cases hcall
      exact .inr rfl
  | some m hm code hcode =>
      subst hcall
      exact .inl ⟨m, hm, hcode.1⟩
  | nothing code hcode =>
      subst hcall
      exact hcode.1.elim

theorem answer_get {clock : Int} (hget : answer clock fault (.get .druid key.1 key.2) c = .ok m) :
    (c.store .druid).find? key = some m ∧ m.key = key := by
  have hfound := find?_of_get hget
  rw [seen_alone (workerEnv_alone clock fault)] at hfound
  exact ⟨hfound, (Table.find?_eq_some.1 hfound).2⟩

theorem Remains.keepsEdits (h : Remains hash c key (.call req rest)) (clock : Int)
    (fault : Option Fault) : KeepsEdits c (afterRequest clock fault req c) := by
  rcases h.request with ⟨m, hm, hreq⟩ | hread
  · exact hreq.keepsEdits hm clock fault
  · rw [afterRequest_read hread]
    exact .of_store rfl

theorem Remains.evolves {rest : Code Result} (h : Remains hash c key rest) (hc' : Evolves c c') :
    Remains hash c' key rest := by
  cases h with
  | all o decoding dynamicConfigs => exact .all o decoding dynamicConfigs
  | some m hm rest hrest => exact .some m (hm.evolves hc') rest hrest
  | nothing rest hrest => exact .nothing rest hrest

theorem Remains.next (hc : Versioned c) (h : Remains hash c key (.call req rest)) (clock : Int)
    (fault : Option Fault) : Remains hash c key (rest (answer clock fault req c)) := by
  generalize hcall : (.call req rest : Code Result) = code at h
  cases h with
  | all o decoding dynamicConfigs =>
      rw [reconcile_eq] at hcall
      cases hcall
      cases hget : answer clock fault (.get .druid key.1 key.2) c with
      | error err =>
          refine .nothing _ ?_
          dsimp only
          split_ifs <;> trivial
      | ok m =>
          obtain ⟨hfound, hkey⟩ := answer_get hget
          refine .some m (hc.fresh (hkey.symm ▸ hfound)) _ ?_
          exact (polite_deployDruidCluster hash o m decoding).bind fun _ =>
            Uses.bind (uses_orReturn _) fun _ => trivial
  | some m hm code hcode =>
      subst hcall
      exact .some m hm _ (hcode.2 _)
  | nothing code hcode =>
      subst hcall
      exact hcode.1.elim

theorem discipline_edits : Discipline hash Set.univ Versioned Evolves (Remains hash) fun c _ req =>
    ∀ clock fault, KeepsEdits c (afterRequest clock fault req c) where
  start _ _ o dynamicConfigs decoding _ _ := .all o decoding dynamicConfigs
  request _ _ _ _ _ hrest clock fault := hrest.keepsEdits clock fault
  serve _ _ _ _ clock fault hc hrest :=
    have hevolves := evolves_afterRequest clock fault _ _
    ⟨hevolves, (hrest.next hc clock fault).evolves hevolves⟩
  stable _ _ _ _ _ hevolves hrest := hrest.evolves hevolves

/-- The step of a worker keeps what users wrote. -/
def WorkerKeepsEdits (hash : Hash) (denyList : List String) (s : State) : Action → Prop
  | .advance i clock fault =>
      KeepsEdits s.cluster (step hash denyList s (.advance i clock fault)).cluster
  | _ => True

/-- **No edit is lost.** Whatever workers, users and other controllers do in between, no step of a
worker changes the labels, the annotations or the owners of a stored resource, and none changes the
spec of one that is not being deleted. When it is, the update that takes the finalizer off sends the
spec again, with the defaults of the fields that are left out. No step brings back a deleted
resource, and one disappears only when it was being deleted. -/
theorem edits_kept (hc : Versioned c) {acts : List Action}
    (hacts : Meets (step hash denyList) VersionsGrow { cluster := c } acts) :
    Meets (step hash denyList) (WorkerKeepsEdits hash denyList) { cluster := c } acts := by
  have hmeets := (@discipline_edits hash).meets_kept
    (fun c key req rest clock fault hc _ => hc.evolves (evolves_afterRequest clock fault req c)) hc
    (hacts.imp fun s a _ ha => ⟨a.decodesIn_univ, fun hs c' hc' =>
      ⟨hs.evolves (ha.evolves hc'), ha.evolves hc'⟩⟩)
  refine hmeets.imp fun s a _ hs => ?_
  cases a with
  | advance i clock fault =>
      simp only [WorkerKeepsEdits, step]
      cases hi : s.running[i]? with
      | none => exact .of_store rfl
      | some r =>
          dsimp only
          rw [advance_cluster]
          cases hnext : r.next with
          | none => exact .of_store rfl
          | some req => exact hs.2 r hi req hnext clock fault
  | _ => trivial

/-! ## Attention -/

/-- The reconcile ends with its key in the queue again, after a wait that is positive: it has not
looked at the resource yet, or it has seen it. -/
def Returns (hash : Hash) (r : Reconciling) : Prop :=
  (∃ o decoding dynamicConfigs, r.rest = reconcile hash o dynamicConfigs r.key decoding) ∨
    r.rest.Yields fun result => result = .requeueAfter

/-- While the process is running, every stored resource that the predicates accept is queued, or
being reconciled by a worker that puts it back. -/
def Attended (hash : Hash) (denyList : List String) (s : State) : Prop :=
  s.up = true → ∀ key cr, (s.cluster.store .druid).find? key = some cr →
    genericPredicates denyList cr = true →
    key ∈ s.queue ∨ ∃ r ∈ s.running, r.key = key ∧ Returns hash r

/-- A failure of a request is not the answer that there is no such object. -/
def GenuineFaults : Action → Prop
  | .advance _ _ fault => ∀ f ∈ fault, f.err.notFound = false
  | _ => True

/-- A write that gives a resource a new version, or leaves it, is noticed. -/
theorem Attended.wrote (hs : Attended hash denyList s) {after : Cluster}
    (hother : ∀ key', key' ≠ key →
      (after.store .druid).find? key' = (s.cluster.store .druid).find? key')
    (hself : ∀ cr, (after.store .druid).find? key = some cr →
      (s.cluster.store .druid).find? key = some cr ∨
        ∀ old, (s.cluster.store .druid).find? key = some old →
        old.metadata.resourceVersion ≠ cr.metadata.resourceVersion) :
    Attended hash denyList (s.wrote denyList after key) := by
  intro hup key' cr hcr haccepted
  -- a resource that was stored like this was attended to
  have hold : (s.cluster.store .druid).find? key' = some cr →
      key' ∈ (s.wrote denyList after key).queue ∨
        ∃ r ∈ (s.wrote denyList after key).running, r.key = key' ∧ Returns hash r := by
    intro hcr
    rcases hs hup key' cr hcr haccepted with hqueue | ⟨r, hr, hkey, hreturns⟩
    · exact .inl (List.mem_append_left _ hqueue)
    · exact .inr ⟨_, List.mem_map_of_mem hr, hkey, hreturns⟩
  by_cases heq : key' = key
  · subst heq
    rcases hself cr hcr with hsame | hnew
    · exact hold hsame
    · refine .inl (List.mem_append_right _ ?_)
      have hcr' : (after.store .druid).find? key' = some cr := hcr
      rw [State.noticed, if_pos (show s.up = true from hup)]
      unfold event
      cases hbefore : (s.cluster.store .druid).find? key' with
      | none => simp [hcr', haccepted]
      | some old => simp [hcr', haccepted, hnew old hbefore]
  · exact hold (hother key' heq ▸ hcr)

theorem Versioned.fresh_version (hc : Versioned c) (hc' : Evolves c c') {cr : Druid}
    (hcr : (c'.store .druid).find? key = some cr) :
    (c.store .druid).find? key = some cr ∨ ∀ old, (c.store .druid).find? key = some old →
      old.metadata.resourceVersion ≠ cr.metadata.resourceVersion := by
  rcases hc'.resources key cr hcr with hold | ⟨hlt, -⟩
  · exact .inl hold
  · refine .inr fun old hfind heq => ?_
    have := (hc key old hfind).2
    omega

theorem find?_deleteCR_of_ne {t : Int} {key' : String × String} (hne : key' ≠ key) :
    ((deleteCR c key t).store .druid).find? key' = (c.store .druid).find? key' :=
  Cluster.patch_frame (fun _ => rfl) fun _ => hne

/-- What is left of a reconcile of a stored resource puts it back. -/
theorem Returns.next (h : Returns hash r) (hcall : r.rest = .call req rest) (clock : Int)
    (hfault : ∀ f ∈ fault, f.err.notFound = false) {cr : Druid}
    (hcr : (c.store .druid).find? r.key = some cr) :
    (rest (answer clock fault req c)).Yields fun result => result = .requeueAfter := by
  rcases h with ⟨o, decoding, dynamicConfigs, hall⟩ | hyields
  · rw [hcall, reconcile_eq] at hall
    cases hall
    cases hget : answer clock fault (.get .druid r.key.1 r.key.2) c with
    | ok m =>
        exact (yields_true _).bind fun _ _ => (yields_true _).bind fun _ _ => rfl
    | error err =>
        -- the resource is there, so that the failure is another one
        have hgenuine : err.notFound = false := by
          cases fault with
          | some f =>
              have herr : err = f.err := by
                simp only [answer, serve, workerEnv, Response.fail] at hget
                exact (Except.error.inj hget).symm
              rw [herr]
              exact hfault f rfl
          | none =>
              exfalso
              have hfind : c.find? .druid r.key.1 r.key.2 = some cr := hcr
              simp only [answer, serve, workerEnv, perform, Env.seen, hfind] at hget
              cases hget
        dsimp only
        rw [hgenuine]
        trivial
  · rw [hcall] at hyields
    exact hyields _

theorem find?_afterRequest_of_ne {clock : Int} (hwrites : writesCR req ≠ some key) :
    ((afterRequest clock fault req c).store .druid).find? key = (c.store .druid).find? key := by
  rcases afterRequest_cases clock fault req c with heq | heq <;> rw [heq]
  refine perform_frame fun v hwrite => hwrites ?_
  rw [writesCR, hwrite]

theorem Attended.set (hs : Attended hash denyList s) {i : ℕ} {r' : Reconciling}
    (hi : s.running[i]? = some r) (hkey : r'.key = r.key)
    (hreturns : ∀ cr, (s.cluster.store .druid).find? r.key = some cr → Returns hash r →
      Returns hash r') :
    Attended hash denyList { s with running := s.running.set i r' } := by
  intro hup key cr hcr haccepted
  rcases hs hup key cr hcr haccepted with hqueue | ⟨r₀, hr₀, rfl, hreturns₀⟩
  · exact .inl hqueue
  · refine .inr ?_
    obtain ⟨j, hj⟩ := List.getElem?_of_mem hr₀
    by_cases hij : i = j
    · subst hij
      obtain rfl : r = r₀ := Option.some.inj (hi.symm.trans hj)
      refine ⟨r', List.mem_of_getElem? (i := i) ?_, hkey, hreturns cr hcr hreturns₀⟩
      rw [List.getElem?_set_self (List.getElem?_eq_some_iff.1 hi).1]
    · refine ⟨r₀, List.mem_of_getElem? (i := j) ?_, rfl, hreturns₀⟩
      rw [List.getElem?_set_ne hij, hj]

theorem Attended.finish (hs : Attended hash denyList s) {i : ℕ} (hi : s.running[i]? = some r)
    {requeue : Bool} (hreturns : Returns hash r → requeue = true) :
    Attended hash denyList (s.finish i r.key requeue) := by
  intro hup key cr hcr haccepted
  rcases hs hup key cr hcr haccepted with hqueue | ⟨r₀, hr₀, rfl, hreturns₀⟩
  · refine .inl ?_
    cases requeue with
    | false => exact hqueue
    | true => exact List.mem_append_left _ hqueue
  · obtain ⟨j, hj⟩ := List.getElem?_of_mem hr₀
    by_cases hij : i = j
    · subst hij
      obtain rfl : r = r₀ := Option.some.inj (hi.symm.trans hj)
      refine .inl ?_
      rw [hreturns hreturns₀]
      exact List.mem_append_right _ (List.mem_singleton.2 rfl)
    · exact .inr ⟨r₀, List.mem_eraseIdx_iff_getElem?.2 ⟨j, Ne.symm hij, hj⟩, rfl, hreturns₀⟩

theorem not_returns_done (hrest : r.rest = .ret .done) : ¬ Returns hash r := by
  rintro (⟨o, decoding, dynamicConfigs, hall⟩ | hyields)
  · rw [hrest, reconcile_eq] at hall
    cases hall
  · rw [hrest] at hyields
    cases hyields

theorem Attended.crash (s : State) : Attended hash denyList s.crash := fun hup => by cases hup

theorem Attended.boot (hs : Attended hash denyList s) :
    Attended hash denyList (s.boot denyList) := by
  unfold State.boot
  split_ifs
  · exact hs
  · intro _ key cr hcr haccepted
    obtain ⟨hstored, rfl⟩ := Table.find?_eq_some.1 hcr
    exact .inl (List.mem_map_of_mem (List.mem_filter.2 ⟨hstored, haccepted⟩))

/-- **The step of a worker.** -/
theorem Attended.advance (hc : Versioned s.cluster) (hs : Attended hash denyList s) {i : ℕ}
    (hi : s.running[i]? = some r) (clock : Int) (hfault : ∀ f ∈ fault, f.err.notFound = false) :
    Attended hash denyList (advance denyList clock fault s i r) := by
  unfold Manager.advance
  split
  · exact hs.finish hi fun _ => rfl
  · next hrest => exact hs.finish hi fun hreturns => absurd hreturns (not_returns_done hrest)
  · exact hs.finish hi fun _ => rfl
  · exact .crash s
  · next req rest hrest =>
      have hevolves := evolves_afterRequest clock fault req s.cluster
      have hset : Attended hash denyList { s with
          running := s.running.set i { r with rest := rest (answer clock fault req s.cluster) } } :=
        hs.set hi rfl fun cr hcr hreturns => .inr (hreturns.next hrest clock hfault hcr)
      dsimp only
      split
      · next key hkey =>
          refine hset.wrote (fun key' hne => ?_) fun cr hcr => hc.fresh_version hevolves hcr
          refine find?_afterRequest_of_ne fun hwrites => hne ?_
          rw [hkey] at hwrites
          exact (Option.some.inj hwrites).symm
      · next hnone =>
          intro hup key cr hcr haccepted
          have hwrites : writesCR req ≠ some key := hnone ▸ (Option.some_ne_none key).symm
          exact hset hup key cr ((find?_afterRequest_of_ne hwrites).symm.trans hcr) haccepted

/-- **One step.** -/
theorem Attended.step (hc : Versioned s.cluster) (hs : Attended hash denyList s) {a : Action}
    (hfaults : GenuineFaults a) : Attended hash denyList (step hash denyList s a) := by
  cases a with
  | store cr =>
      exact hs.wrote (fun key' hne => find?_storeCR_of_ne hne)
        fun cr' hcr' => hc.fresh_version (evolves_storeCR _ _) hcr'
  | delete key t =>
      exact hs.wrote (fun key' hne => find?_deleteCR_of_ne hne)
        fun cr' hcr' => hc.fresh_version (evolves_deleteCR _ _ _) hcr'
  | outside change =>
      intro hup key cr hcr haccepted
      refine hs hup key cr ?_ haccepted
      simpa [Manager.step] using hcr
  | relist key =>
      intro hup key' cr hcr haccepted
      rcases hs hup key' cr hcr haccepted with hqueue | hworker
      · exact .inl (List.mem_append_left _ hqueue)
      · exact .inr hworker
  | start key o decoding dynamicConfigs =>
      simp only [Manager.step]
      split_ifs
      · intro hup key' cr hcr haccepted
        rcases hs hup key' cr hcr haccepted with hqueue | ⟨r, hr, hkey, hreturns⟩
        · by_cases heq : key' = key
          · subst heq
            exact .inr ⟨_, List.mem_append_right _ (List.mem_singleton.2 rfl), rfl,
              .inl ⟨o, decoding, dynamicConfigs, rfl⟩⟩
          · exact .inl ((List.mem_erase_of_ne heq).2 hqueue)
        · exact .inr ⟨r, List.mem_append_left _ hr, hkey, hreturns⟩
      · exact hs
  | advance i clock fault =>
      simp only [Manager.step]
      cases hi : s.running[i]? with
      | none => exact hs
      | some r => exact hs.advance hc hi clock hfaults
  | kill => exact .crash s
  | boot => exact hs.boot

/-- **Nothing is forgotten.** From a cluster whose accepted resources are queued, over all
interleavings, with panics that end the process and starts of a new one: as long as no failure
passes for the answer that a resource is missing, every stored resource that the predicates accept
is queued while the process is running, or being reconciled by a worker that puts it back. -/
theorem attended {queue : List (String × String)} (hc : Versioned c)
    (hqueue : ∀ key cr, (c.store .druid).find? key = some cr →
      genericPredicates denyList cr = true → key ∈ queue) {acts : List Action}
    (hacts : Meets (step hash denyList) (fun s a => VersionsGrow s a ∧ GenuineFaults a)
      { cluster := c, queue := queue } acts) :
    Attended hash denyList (run (step hash denyList) { cluster := c, queue := queue } acts) := by
  have hinv := run_invariant (I := fun s => Versioned s.cluster ∧ Attended hash denyList s)
    (fun s a _ hs ha => ⟨?_, hs.2.step hs.1 ha.2⟩)
    ⟨hc, fun _ key cr hcr haccepted => .inl (hqueue key cr hcr haccepted)⟩ hacts
  · exact hinv.2
  · refine step_kept (D := Set.univ) (R := Evolves) (W := fun _ _ _ => True)
      (fun c _ req _ clock fault hc _ => hc.evolves (evolves_afterRequest clock fault req c)) hs.1
      (fun _ _ => trivial) ⟨a.decodesIn_univ, fun hs c' hc' => ?_⟩
    exact ⟨hs.evolves (ha.1.evolves hc'), ha.1.evolves hc'⟩

theorem versioned_empty : Versioned {} :=
  fun _ _ h => absurd h (Option.some_ne_none _).symm

/-- Nobody else changes the cluster while a worker deploys the tiers, and no request fails. -/
theorem reconciled_quiet (n : ℕ) {a : Action} (ha : a ∈ .store (tieredCluster "v1") :: reconciled n)
    (s : State) : VersionsGrow s a ∧ GenuineFaults a := by
  rcases List.mem_cons.1 ha with rfl | ha
  · exact ⟨trivial, trivial⟩
  · rcases List.mem_cons.1 ha with rfl | ha
    · exact ⟨trivial, trivial⟩
    · rw [List.eq_of_mem_replicate ha]
      exact ⟨trivial, fun _ h => absurd h (Option.some_ne_none _).symm⟩

/-- The tiers keep their spec while they are deployed. -/
theorem edits_kept_tiers :
    Meets (step imageHash []) (WorkerKeepsEdits imageHash []) {}
      (.store (tieredCluster "v1") :: reconciled 50) :=
  edits_kept versioned_empty (meets_iff.2 fun _ _ _ heq =>
    (reconciled_quiet 50 (by rw [heq]; simp) _).1)

/-- The tiers stay queued, or in the hands of the worker, all the time. -/
theorem attended_tiers :
    Attended imageHash []
      (run (step imageHash []) {} (.store (tieredCluster "v1") :: reconciled 50)) :=
  attended versioned_empty (fun _ _ h => absurd h (Option.some_ne_none _).symm)
    (meets_iff.2 fun _ _ _ heq => reconciled_quiet 50 (by rw [heq]; simp) _)

end Runs

end DruidOperator.Controller.Manager
