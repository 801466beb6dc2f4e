import DruidOperator.Reconciler
import DruidOperator.WorkloadWrites
import DruidOperator.Lib.Runs

/-!
# Clusters with the ignored annotation

The annotation `druid.apache.org/ignored` is looked at in one place: the predicates that filter
the events of a resource. This file models the manager around `Reconcile`, with its queue, its
workers and the requeue that follows every successful reconcile, and asks when a resource that is
stored with the annotation is left alone.

* `polite_deployDruidCluster` — the only resource a reconcile writes is its own, and it keeps what
  users wrote into it.
* `ignored_left_alone` — a resource that gets the annotation while it is idle is left alone.
-/

namespace DruidOperator.Controller.Manager

open Interaction Prog Kube Runs

variable {m : Druid} {r : Request} {c : Cluster} {key : String × String} {cr : Druid}
    {key' : String × String} {s : State}

/-! ## Writes to resources -/

/-- Of all resources only `m` is written: it is patched, or, when it is being deleted, sent as it
was read with other finalizers. -/
structure Polite (m : Druid) (r : Request) : Prop where
  own : r.Within fun v k key => k = .druid → (v = .patch ∨ v = .update) ∧ key = m.key
  update : ∀ obj, r = .update .druid obj →
    m.metadata.deletionTimestamp.isSome ∧ ∃ finalizers, obj = withFinalizers m finalizers

theorem Polite.of_within {A : Verb → Kind → String × String → Prop} (hr : r.Within A)
    (hA : ∀ v k key, A v k key → k = .druid → v = .patch ∧ key = m.key) : Polite m r where
  own v k key hw hk := ⟨.inl (hA v k key (hr v k key hw) hk).1, (hA v k key (hr v k key hw) hk).2⟩
  update obj hreq := by
    subst hreq
    have := (hA _ _ _ (hr .update .druid obj.key rfl) rfl).1
    cases this

theorem Polite.ne_create (hr : Polite m r) (obj : Druid) : r ≠ .create .druid obj := by
  rintro rfl
  rcases (hr.own _ _ _ rfl rfl).1 with hv | hv <;> cases hv

theorem polite_of_uses {α : Type} {p : Code α} {A : Verb → Kind → String × String → Prop}
    (hp : p.Uses (Request.Within A))
    (hA : ∀ v k key, A v k key → k = .druid → v = .patch ∧ key = m.key) : p.Uses (Polite m) :=
  hp.mono fun _ hr => .of_within hr hA

section Uses

variable {hash : Hash} {m : Druid}

theorem polite_executeFinalizers (hdel : m.metadata.deletionTimestamp.isSome) :
    (executeFinalizers m).Uses (Polite m) := by
  have hdelete : ∀ {k : Kind} (objs : List (Obj k)), k ≠ .druid →
      (deleteAll objs).Uses (Polite m) := fun objs hk =>
    polite_of_uses (uses_deleteAll objs) fun _ _ _ hw hk' => absurd (hw.2.symm.trans hk') hk
  have hlist : ∀ (k : Kind) (ns : String) (selector : StrMap),
      (listObjs k ns selector).Uses (Polite m) := fun k ns selector =>
    polite_of_uses (reads_listObjs (A := fun _ _ _ => False) k ns selector) fun _ _ _ hw => hw.elim
  unfold executeFinalizers executePVCFinalizer
  split_ifs
  · refine (hlist ..).bind fun _ => Uses.bind (uses_orReturn _) fun pvcList => ?_
    refine (hlist ..).bind fun _ => Uses.bind (uses_orReturn _) fun stsList => ?_
    refine Uses.bind ((hdelete stsList (by decide)).bind fun _ => hdelete pvcList (by decide))
      fun _ => Uses.bind ?_ fun _ => uses_orReturn _
    -- the one update sends the resource as it was read, without the finalizer
    rw [uses_updateObj]
    refine ⟨?_, fun obj hreq => ?_⟩
    · rw [Request.within_update]
      exact fun _ => ⟨.inr rfl, rfl⟩
    · cases hreq
      exact ⟨hdel, _, rfl⟩
  · trivial
  · trivial

theorem polite_deployNode (ls : StrMap) (commonConfigSHA : String) (l : Loop) (g : ServiceGroup) :
    (deployNode hash ls commonConfigSHA l g).Uses (Polite m) := by
  rw [deployNode_eq]
  refine polite_of_uses (uses_applyGroup hash ls commonConfigSHA l g) ?_
  rintro v k key hw rfl
  exfalso
  rcases hw with (⟨-, hk, -⟩ | (⟨-, hk⟩ | ⟨-, hk⟩) | ⟨-, hk⟩) | ⟨-, hk⟩ | ⟨-, hk⟩ | ⟨-, hk⟩
  · rcases workloadKind_cases g.spec with h | h <;> rw [h] at hk <;> cases hk
  · cases hk
  · cases hk
  · cases hk
  · cases hk
  · cases hk
  · rcases hk with hk | hk | hk | hk <;> cases hk

theorem yields_loop (ls : StrMap) (commonConfigSHA : String) {l : Loop} (groups : List ServiceGroup)
    (hl : l.m.key = m.key) : (iterate (deployNode hash ls commonConfigSHA) l groups).Yields
      fun x => ∀ l', x = some l' → l'.m.key = m.key := by
  refine Yields.iterate (I := fun l : Loop => l.m.key = m.key) (fun l g hl => ?_) hl
  rw [deployNode_eq]
  refine (yields_applyGroup hash ls commonConfigSHA l g).mono fun x hx l' heq => ?_
  obtain ⟨-, rfl⟩ := hx l' heq
  have hid := sameIdentity_afterGroup hash commonConfigSHA l.m g
  exact (Prod.ext hid.ns_eq hid.name_eq).trans hl

theorem polite_finishDeploy (ls : StrMap) {l : Loop} (hl : l.m.key = m.key) :
    (finishDeploy ls l).Uses (Polite m) := by
  refine (polite_of_uses (uses_collectOrphans l.m) ?_).bind
    fun _ => polite_of_uses (uses_updateStatus ls l) ?_
  · rintro v k key ⟨-, rfl⟩ hk
    cases hk
  · rintro v k key (⟨-, -, hne⟩ | ⟨hv, -, hkey⟩) hk
    · exact absurd hk hne
    · exact ⟨hv, hkey.trans hl⟩

/-- **Writes to resources.** Deploying a resource writes no other resource, and changes of its own
the finalizers and the status at most. -/
theorem polite_deployDruidCluster (hash : Hash) (o : MapOrders) (m : Druid) (decoding : Decoding) :
    (deployDruidCluster hash o m decoding).Uses (Polite m) := by
  rw [deployDruidCluster_eq]
  split
  · trivial
  · refine (polite_of_uses (uses_applyCommonConfig hash m) ?_).bind fun common => ?_
    · rintro v k key ⟨-, rfl, -⟩ hk
      cases hk
    split_ifs with hdel
    · exact polite_executeFinalizers hdel
    rw [deployNodes_eq]
    refine Uses.bindYields (polite_of_uses (uses_updateFinalizers m decoding) fun v k key hw _ =>
      ⟨hw.1, hw.2.2⟩) (yields_updateFinalizers_key m decoding) fun updated hkey => ?_
    refine Uses.bindYields (Uses.iterate (fun l g _ => polite_deployNode _ _ l g) _)
      (yields_loop (m := m) _ _ _ hkey) fun x hx => ?_
    cases x with
    | none => trivial
    | some l => exact polite_finishDeploy _ (hx l rfl)

end Uses

/-! ## The manager -/

/-- The stored resource has the annotation. -/
def ignored (c : Cluster) (key : String × String) : Bool :=
  match (c.store .druid).find? key with
  | some cr => !ignoreIgnoredObjectPredicate cr
  | none => false

/-- A reconcile that is under way. -/
structure Reconciling where
  key : String × String
  /-- What it has still to do. -/
  rest : Code Result
  /-- The resource had the annotation when the reconcile started, and ever since. -/
  ignored : Bool

/-- The request it sends next. -/
def Reconciling.next (r : Reconciling) : Option Request :=
  match r.rest with
  | .call req _ => some req
  | _ => none

structure State where
  cluster : Cluster := {}
  /-- The keys that wait for a worker, those whose time to requeue has not come included. -/
  queue : List (String × String) := []
  running : List Reconciling := []
  /-- The process is running. -/
  up : Bool := true

/-- The event of a resource: one that is new or has a new version passes the predicates or is
dropped, while a deletion always passes. -/
def event (denyList : List String) (before after : Cluster) (key : String × String) :
    List (String × String) :=
  match (before.store .druid).find? key, (after.store .druid).find? key with
  | none, none => []
  | some _, none => [key]
  | none, some cr => if genericPredicates denyList cr then [key] else []
  | some old, some cr =>
      if old.metadata.resourceVersion ≠ cr.metadata.resourceVersion ∧ genericPredicates denyList cr
      then [key] else []

/-- A process that is down gets no event. -/
def State.noticed (s : State) (keys : List (String × String)) : List (String × String) :=
  if s.up then keys else []

/-- Store what was written, and queue the event. -/
def State.wrote (denyList : List String) (s : State) (after : Cluster) (key : String × String) :
    State where
  cluster := after
  queue := s.queue ++ s.noticed (event denyList s.cluster after key)
  running := s.running.map fun r => { r with ignored := r.ignored && ignored after r.key }
  up := s.up

/-- The process ends, with its queue and its workers. -/
def State.crash (s : State) : State := { s with queue := [], running := [], up := false }

/-- The process starts, and the watch sends every stored resource as a new one. -/
def State.boot (denyList : List String) (s : State) : State :=
  if s.up then s
  else { s with
    queue := ((s.cluster.store .druid).items.filter (genericPredicates denyList)).map Object.key
    up := true }

inductive Action where
  /-- A user creates a resource, or edits it in any way. -/
  | store (cr : Druid)
  /-- A user deletes a resource. -/
  | delete (key : String × String) (deletionTimestamp : Int)
  /-- Anyone changes objects other than resources. -/
  | outside (change : Cluster → Cluster)
  /-- The watch starts again and sends the stored resource as a new one. -/
  | relist (key : String × String)
  /-- A worker takes a key from the queue. -/
  | start (key : String × String) (orders : MapOrders) (decoding : Decoding)
      (dynamicConfigs : Except Error Unit)
  /-- A worker goes on with its reconcile: one request, or the end. -/
  | advance (i : ℕ) (clock : Int) (fault : Option Fault)
  /-- The process is killed. -/
  | kill
  /-- The process is started. -/
  | boot

/-- Create the resource, or put it in the place of the stored one. -/
def storeCR (c : Cluster) (cr : Druid) : Cluster :=
  match (c.store .druid).find? cr.key with
  | none => c.modify .druid fun version t => t.insert (Object.withResourceVersion cr version)
  | some _ => c.modify .druid (Cluster.put .druid cr)

/-- The resource is gone, or waits for its finalizers. -/
def deleteCR (c : Cluster) (key : String × String) (deletionTimestamp : Int) : Cluster :=
  (c.patch .druid key fun cr =>
    { cr with metadata := { cr.metadata with deletionTimestamp := some deletionTimestamp } }).2

/-- The resource a request writes. -/
def writesCR (r : Request) : Option (String × String) :=
  match r.write with
  | some (_, .druid, key) => some key
  | _ => none

/-- The reconcile `i` is over; `requeue` says whether its key comes back. -/
def State.finish (s : State) (i : ℕ) (key : String × String) (requeue : Bool) : State :=
  { s with
    queue := if requeue then s.queue ++ [key] else s.queue
    running := s.running.eraseIdx i }

def advance (denyList : List String) (clock : Int) (fault : Option Fault) (s : State) (i : ℕ)
    (r : Reconciling) : State :=
  match r.rest with
  -- neither a requeue nor an error asks the predicates
  | .ret .requeueAfter => s.finish i r.key true
  | .ret .done => s.finish i r.key false
  | .exit (.error _) => s.finish i r.key true
  -- nobody recovers from a panic
  | .exit (.panic _) => s.crash
  | .call req rest =>
      let served := serve { clock := clock, fault := fun _ => fault } req ⟨s.cluster, 0⟩
      let s' := { s with running := s.running.set i { r with rest := rest served.1 } }
      match writesCR req with
      | some key => s'.wrote denyList served.2.cluster key
      | none => { s' with cluster := served.2.cluster }

variable (hash : Hash) (denyList : List String)

def step (s : State) : Action → State
  | .store cr => s.wrote denyList (storeCR s.cluster cr) cr.key
  | .delete key t => s.wrote denyList (deleteCR s.cluster key t) key
  | .outside change => { s with cluster := { change s.cluster with
      store := Function.update (change s.cluster).store .druid (s.cluster.store .druid) } }
  | .relist key => { s with queue := s.queue ++ s.noticed (event denyList {} s.cluster key) }
  | .start key o decoding dynamicConfigs =>
      -- the queue gives out no key that is being worked on
      if key ∈ s.queue ∧ ∀ r ∈ s.running, r.key ≠ key then
        { s with
          queue := s.queue.erase key
          running := s.running ++
            [⟨key, reconcile hash o dynamicConfigs key decoding, ignored s.cluster key⟩] }
      else s
  | .advance i clock fault =>
      match s.running[i]? with
      | some r => advance denyList clock fault s i r
      | none => s
  | .kill => s.crash
  | .boot => s.boot denyList

/-- The annotation is set only on a resource that is neither queued nor being reconciled. -/
def SetWhileIdle (s : State) : Action → Prop
  | .store cr => ignoreIgnoredObjectPredicate cr = false →
      cr.key ∉ s.queue ∧ ∀ r ∈ s.running, r.key ≠ cr.key
  | _ => True

/-- A reconcile of a resource that had the annotation from its start on writes nothing, and none
writes another resource than its own. -/
def LeavesIgnored (s : State) : Action → Prop
  | .advance i _ _ => ∀ r ∈ s.running[i]?, ∀ req ∈ r.next,
      (r.ignored = true → req.write = none) ∧ ∀ key ∈ writesCR req, key = r.key
  | _ => True

variable {hash denyList}

/-! ## What keeps the annotation away -/

theorem ignored_eq_true :
    ignored c key = true ↔
      ∃ cr, (c.store .druid).find? key = some cr ∧ ignoreIgnoredObjectPredicate cr = false := by
  unfold ignored
  split <;> simp_all

theorem ignored_eq_false :
    ignored c key = false ↔
      ∀ cr, (c.store .druid).find? key = some cr → ignoreIgnoredObjectPredicate cr = true := by
  unfold ignored
  split <;> simp_all

theorem ignored_congr {c' : Cluster}
    (h : (c'.store .druid).find? key = (c.store .druid).find? key) :
    ignored c' key = ignored c key := by
  rw [ignored, h, ignored]

theorem predicate_congr {cr' : Druid} (h : cr'.metadata.annotations = cr.metadata.annotations) :
    ignoreIgnoredObjectPredicate cr' = ignoreIgnoredObjectPredicate cr := by
  rw [ignoreIgnoredObjectPredicate, h, ignoreIgnoredObjectPredicate]

theorem not_ignored_of_predicates (h : genericPredicates denyList cr = true) :
    ignoreIgnoredObjectPredicate cr = true := by
  rw [genericPredicates, Bool.and_eq_true] at h
  exact h.2

/-- What an event queues is gone, or has no annotation. -/
theorem not_ignored_of_event {before after : Cluster} (h : key' ∈ event denyList before after key) :
    ignored after key' = false := by
  refine ignored_eq_false.2 fun cr hcr => ?_
  unfold event at h
  split at h
  · cases h
  · next hnone =>
      rw [List.mem_singleton.1 h, hnone] at hcr
      cases hcr
  · next cr' _ hcr' =>
      split_ifs at h with hpasses
      · rw [List.mem_singleton.1 h, hcr'] at hcr
        cases hcr
        exact not_ignored_of_predicates hpasses
      · cases h
  · next old cr' _ hcr' =>
      split_ifs at h with hpasses
      · rw [List.mem_singleton.1 h, hcr'] at hcr
        cases hcr
        exact not_ignored_of_predicates hpasses.2
      · cases h

theorem ignored_of_put {stored new : Druid}
    (h : ignored (c.modify .druid (Cluster.put .druid new)) key' = true)
    (hstored : (c.store .druid).find? stored.key = some stored) (hkey : new.key = stored.key)
    (hnew : new.metadata.annotations = stored.metadata.annotations) : ignored c key' = true := by
  obtain ⟨cr, hcr, hignored⟩ := ignored_eq_true.1 h
  rw [Cluster.modify_store_self] at hcr
  rcases Cluster.find?_put_cases hcr with ⟨-, hold⟩ | ⟨rfl, rfl⟩
  · exact ignored_eq_true.2 ⟨cr, hold, hignored⟩
  · have hsame : ignoreIgnoredObjectPredicate (Object.withResourceVersion new (c.version + 1)) =
        ignoreIgnoredObjectPredicate stored := predicate_congr hnew
    exact ignored_eq_true.2 ⟨stored, hkey ▸ hstored, hsame.symm.trans hignored⟩

theorem deleteCR_cases (c : Cluster) (key : String × String) (t : Int) :
    deleteCR c key t = c ∨
      ∃ stored : Druid, (c.store .druid).find? stored.key = some stored ∧ stored.key = key ∧
        deleteCR c key t = c.modify .druid (Cluster.put .druid
          { stored with metadata := { stored.metadata with deletionTimestamp := some t } }) := by
  unfold deleteCR Cluster.patch
  split
  · exact .inl rfl
  · next stored hstored =>
      obtain rfl : stored.key = key := (Table.find?_eq_some.1 hstored).2
      exact .inr ⟨stored, hstored, rfl, rfl⟩

/-- The resource `key` alone is written, and never given the annotation. -/
structure Unmarking (key : String × String) (r : Request) : Prop where
  own : r.Within fun v k key' => k = .druid → (v = .patch ∨ v = .update) ∧ key' = key
  update : ∀ obj, r = .update .druid obj → ignoreIgnoredObjectPredicate obj = true

theorem Polite.unmarking (hm : ignoreIgnoredObjectPredicate m = true) (hr : Polite m r) :
    Unmarking m.key r where
  own := hr.own
  update obj hreq := by
    obtain ⟨-, finalizers, rfl⟩ := hr.update obj hreq
    exact hm

theorem ignored_of_perform {clock : Int} (hr : Unmarking key r)
    (h : ignored (perform clock r c).2 key' = true) : ignored c key' = true := by
  have heffect := perform_effect clock r c .druid
  generalize (perform clock r c).2 = c' at heffect h
  cases heffect with
  | none hstore hversion => rwa [ignored_congr (congrArg (Table.find? · key') hstore)] at h
  | created hnew => rcases (hr.own _ _ _ rfl rfl).1 with hv | hv <;> cases hv
  | deleted => rcases (hr.own _ _ _ rfl rfl).1 with hv | hv <;> cases hv
  | @updated _ obj stored hstored hversion =>
      obtain ⟨cr, hcr, hignored⟩ := ignored_eq_true.1 h
      rw [Cluster.modify_store_self] at hcr
      rcases Cluster.find?_put_cases hcr with ⟨-, hold⟩ | ⟨-, rfl⟩
      · exact ignored_eq_true.2 ⟨cr, hold, hignored⟩
      · -- the object that was sent has no annotation
        exact absurd ((hr.update obj rfl).symm.trans hignored) (by simp)
  | resource stored hwrite hstored =>
      exact ignored_of_put h hstored rfl rfl

theorem ignored_of_serve {env : Env} (henv : env.Alone) {w : World} (hr : Unmarking key r)
    (h : ignored (serve env r w).2.cluster key' = true) : ignored w.cluster key' = true := by
  rcases serve_state env r w with hstate | hstate
  · rw [hstate, seen_alone henv] at h
    exact ignored_of_perform hr h
  · rwa [hstate, seen_alone henv] at h

/-! ## Runs -/

/-- What a reconcile of `key` has still to do: all of it, or what follows the look at a resource
without the annotation. -/
def Remaining (hash : Hash) (key : String × String) (rest : Code Result) : Prop :=
  (∃ o decoding dynamicConfigs, rest = reconcile hash o dynamicConfigs key decoding) ∨
    rest.Uses (Unmarking key)

/-- No resource with the annotation is queued or being reconciled. -/
structure Idle (hash : Hash) (s : State) : Prop where
  queued : ∀ key ∈ s.queue, ignored s.cluster key = false
  running : ∀ r ∈ s.running, ignored s.cluster r.key = false ∧ r.ignored = false ∧
    Remaining hash r.key r.rest

theorem unmarking_of_read (hr : r.write = none) : Unmarking key r where
  own v k key' hw := by
    rw [hr] at hw
    cases hw
  update obj hreq := by
    subst hreq
    cases hr

theorem uses_afterGet {o : MapOrders} {decoding : Decoding} {dynamicConfigs : Except Error Unit}
    (hm : ignoreIgnoredObjectPredicate m = true) :
    (deployDruidCluster hash o m decoding >>= fun _ => orReturn dynamicConfigs >>= fun _ =>
      Prog.ret Result.requeueAfter : Code Result).Uses (Unmarking m.key) := by
  refine ((polite_deployDruidCluster hash o m decoding).mono fun r hr => hr.unmarking hm).bind
    fun _ => ?_
  exact Uses.bind (uses_orReturn _) fun _ => trivial

theorem Remaining.next {env : Env} (henv : env.Alone) {w : World} {req : Request}
    {rest : Response req → Code Result} (hrest : Remaining hash key (.call req rest))
    (hw : ignored w.cluster key = false) :
    Unmarking key req ∧ Remaining hash key (rest (serve env req w).1) := by
  rcases hrest with ⟨o, decoding, dynamicConfigs, heq⟩ | huses
  · rw [reconcile_eq] at heq
    cases heq
    refine ⟨unmarking_of_read rfl, .inr ?_⟩
    cases hget : (serve env (.get .druid key.1 key.2) w).1 with
    | error err =>
        dsimp only
        split_ifs <;> trivial
    | ok m =>
        obtain ⟨-, hfound⟩ := serve_get_ok (by decide) hget
        rw [seen_alone henv] at hfound
        obtain rfl : m.key = key := (Table.find?_eq_some.1 hfound).2
        exact uses_afterGet (ignored_eq_false.1 hw m hfound)
  · exact ⟨huses.1, .inr (huses.2 _)⟩

theorem mem_of_noticed {keys : List (String × String)} (h : key ∈ s.noticed keys) : key ∈ keys := by
  unfold State.noticed at h
  split_ifs at h
  · exact h
  · cases h

theorem Idle.wrote (hs : Idle hash s) {after : Cluster} (key : String × String)
    (hqueue : ∀ key' ∈ s.queue, ignored after key' = false)
    (hrunning : ∀ r ∈ s.running, ignored after r.key = false) :
    Idle hash (s.wrote denyList after key) where
  queued key' hkey' := by
    rcases List.mem_append.1 hkey' with hold | hnew
    · exact hqueue key' hold
    · exact not_ignored_of_event (mem_of_noticed hnew)
  running r hr := by
    obtain ⟨r', hr', rfl⟩ := List.mem_map.1 hr
    obtain ⟨-, hflag, hrest⟩ := hs.running r' hr'
    exact ⟨hrunning r' hr', by rw [hflag]; rfl, hrest⟩

theorem Idle.unmarked (hs : Idle hash s) (after : Cluster)
    (hafter : ∀ key, ignored after key = true → ignored s.cluster key = true) :
    (∀ key ∈ s.queue, ignored after key = false) ∧ ∀ r ∈ s.running,
      ignored after r.key = false := by
  have hfalse : ∀ key, ignored s.cluster key = false → ignored after key = false := by
    intro key hkey
    by_contra hne
    exact absurd (hkey.symm.trans (hafter key (by simpa using hne))) (by simp)
  exact ⟨fun key hkey => hfalse key (hs.queued key hkey),
    fun r hr => hfalse r.key (hs.running r hr).1⟩

theorem find?_storeCR_of_ne (h : key ≠ cr.key) :
    ((storeCR c cr).store .druid).find? key = (c.store .druid).find? key := by
  unfold storeCR
  split
  · next hnone =>
      rw [Cluster.modify_store_self, Table.find?_insert (by exact hnone), if_neg]
      exact fun heq => h heq.symm
  · rw [Cluster.modify_store_self, Cluster.find?_put_of_ne h]

theorem eq_of_find?_storeCR (h : ((storeCR c cr).store .druid).find? cr.key = some m) :
    m = Object.withResourceVersion cr (c.version + 1) := by
  unfold storeCR at h
  split at h
  · next hnone =>
      rw [Cluster.modify_store_self, Table.find?_insert (by exact hnone), if_pos (by rfl)] at h
      exact (Option.some.inj h).symm
  · rw [Cluster.modify_store_self] at h
    rcases Cluster.find?_put_cases h with ⟨hne, -⟩ | ⟨-, heq⟩
    · exact absurd rfl hne
    · exact heq

theorem ignored_storeCR_of_ne (h : key ≠ cr.key) :
    ignored (storeCR c cr) key = ignored c key := ignored_congr (find?_storeCR_of_ne h)

theorem ignored_storeCR_self (hcr : ignoreIgnoredObjectPredicate cr = true) :
    ignored (storeCR c cr) cr.key = false := by
  refine ignored_eq_false.2 fun cr' hcr' => ?_
  rw [eq_of_find?_storeCR hcr']
  exact hcr

theorem Idle.store (hs : Idle hash s) (hidle : SetWhileIdle s (.store cr)) :
    Idle hash (step hash denyList s (.store cr)) := by
  cases hcr : ignoreIgnoredObjectPredicate cr with
  | true =>
      have hkeep : ∀ key, ignored s.cluster key = false →
          ignored (storeCR s.cluster cr) key = false := by
        intro key hkey
        by_cases heq : key = cr.key
        · rw [heq]
          exact ignored_storeCR_self hcr
        · rwa [ignored_storeCR_of_ne heq]
      exact hs.wrote cr.key (fun key hkey => hkeep key (hs.queued key hkey))
        fun r hr => hkeep r.key (hs.running r hr).1
  | false =>
      obtain ⟨hqueue, hrunning⟩ := hidle hcr
      refine hs.wrote cr.key (fun key hkey => ?_) fun r hr => ?_
      · rw [ignored_storeCR_of_ne fun heq => hqueue (heq ▸ hkey)]
        exact hs.queued key hkey
      · rw [ignored_storeCR_of_ne (hrunning r hr)]
        exact (hs.running r hr).1

theorem Idle.finish (hs : Idle hash s) {i : ℕ} {r : Reconciling} (hr : r ∈ s.running)
    (requeue : Bool) : Idle hash (s.finish i r.key requeue) where
  queued key hkey := by
    cases requeue with
    | false => exact hs.queued key hkey
    | true =>
        rcases List.mem_append.1 hkey with hold | hnew
        · exact hs.queued key hold
        · rw [List.mem_singleton.1 hnew]
          exact (hs.running r hr).1
  running r' hr' := hs.running r' (List.mem_of_mem_eraseIdx hr')

theorem Idle.crash (s : State) : Idle hash s.crash :=
  ⟨fun _ h => absurd h List.not_mem_nil, fun _ h => absurd h List.not_mem_nil⟩

theorem Idle.boot (hs : Idle hash s) : Idle hash (s.boot denyList) := by
  unfold State.boot
  split_ifs
  · exact hs
  · refine ⟨fun key hkey => ?_, hs.running⟩
    obtain ⟨cr, hcr, rfl⟩ := List.mem_map.1 hkey
    obtain ⟨hstored, haccepted⟩ := List.mem_filter.1 hcr
    refine ignored_eq_false.2 fun cr' hcr' => ?_
    rw [Table.find?_eq_some.2 ⟨hstored, rfl⟩] at hcr'
    cases hcr'
    exact not_ignored_of_predicates haccepted

theorem Idle.advance (hs : Idle hash s) {i : ℕ} {r : Reconciling} (hr : s.running[i]? = some r)
    (clock : Int) (fault : Option Fault) : Idle hash (advance denyList clock fault s i r) := by
  have hmem : r ∈ s.running := List.mem_of_getElem? hr
  obtain ⟨hnot, hflag, hrest⟩ := hs.running r hmem
  unfold Manager.advance
  split
  · exact hs.finish hmem true
  · exact hs.finish hmem false
  · exact hs.finish hmem true
  · exact .crash s
  · next req rest heq =>
      rw [heq] at hrest
      have halone : ({ clock := clock, fault := fun _ => fault } : Env).Alone := fun _ _ => rfl
      obtain ⟨hreq, hnext⟩ := hrest.next halone (w := ⟨s.cluster, 0⟩) hnot
      -- the reconcile goes on, in the cluster before the request
      have hset : Idle hash { s with running := s.running.set i { r with
          rest :=
            rest (serve { clock := clock, fault := fun _ => fault } req ⟨s.cluster, 0⟩).1 } } := by
        refine ⟨hs.queued, fun r' hr' => ?_⟩
        rcases List.mem_or_eq_of_mem_set hr' with hold | rfl
        · exact hs.running r' hold
        · exact ⟨hnot, hflag, hnext⟩
      obtain ⟨hqueue, hrunning⟩ := hset.unmarked
        (serve { clock := clock, fault := fun _ => fault } req ⟨s.cluster, 0⟩).2.cluster
        fun key h => ignored_of_serve halone hreq h
      dsimp only
      split
      · exact hset.wrote _ hqueue hrunning
      · exact ⟨hqueue, fun r' hr' => ⟨hrunning r' hr', (hset.running r' hr').2⟩⟩

/-- **One step.** If the annotation is set only on idle resources, none with it is ever queued. -/
theorem Idle.step (hs : Idle hash s) {a : Action} (hidle : SetWhileIdle s a) :
    Idle hash (step hash denyList s a) := by
  cases a with
  | store cr => exact hs.store hidle
  | delete key t =>
      obtain ⟨hqueue, hrunning⟩ := hs.unmarked (deleteCR s.cluster key t) fun key' h => by
        rcases deleteCR_cases s.cluster key t with heq | ⟨stored, hstored, -, heq⟩ <;> rw [heq] at h
        · exact h
        · exact ignored_of_put h hstored rfl rfl
      exact hs.wrote key hqueue hrunning
  | outside change =>
      have hsame : ∀ key, ignored (Manager.step hash denyList s (.outside change)).cluster key =
          ignored s.cluster key := fun key => ignored_congr (by simp [Manager.step])
      refine ⟨fun key hkey => ?_, fun r hr => ?_⟩
      · rw [hsame]
        exact hs.queued key hkey
      · rw [hsame]
        exact hs.running r hr
  | relist key =>
      refine ⟨fun key' hkey' => ?_, hs.running⟩
      rcases List.mem_append.1 hkey' with hold | hnew
      · exact hs.queued key' hold
      · exact not_ignored_of_event (mem_of_noticed hnew)
  | start key o decoding dynamicConfigs =>
      simp only [Manager.step]
      split_ifs with hstart
      · refine ⟨fun key' hkey' => hs.queued key' (List.mem_of_mem_erase hkey'), fun r hr => ?_⟩
        rcases List.mem_append.1 hr with hold | hnew
        · exact hs.running r hold
        · rw [List.mem_singleton.1 hnew]
          have hnot := hs.queued key hstart.1
          exact ⟨hnot, hnot, .inl ⟨o, decoding, dynamicConfigs, rfl⟩⟩
      · exact hs
  | advance i clock fault =>
      simp only [Manager.step]
      split
      · next r hr => exact hs.advance hr clock fault
      · exact hs
  | kill => exact .crash s
  | boot => exact hs.boot

theorem Reconciling.next_eq_some (r : Reconciling) {req : Request} (h : r.next = some req) :
    ∃ rest, r.rest = .call req rest := by
  unfold Reconciling.next at h
  split at h
  · next req' rest heq =>
      cases h
      exact ⟨rest, heq⟩
  · cases h

theorem Idle.leaves (hs : Idle hash s) (a : Action) : LeavesIgnored s a := by
  cases a with
  | advance i clock fault =>
      intro r hr req hnext
      obtain ⟨hnot, hflag, hrest⟩ := hs.running r (List.mem_of_getElem? hr)
      obtain ⟨rest, heq⟩ := r.next_eq_some hnext
      rw [heq] at hrest
      have halone : ({} : Env).Alone := fun _ _ => rfl
      have hreq := (hrest.next halone (w := ⟨s.cluster, 0⟩) hnot).1
      refine ⟨fun htrue => absurd (hflag.symm.trans htrue) (by simp), fun key hkey => ?_⟩
      unfold writesCR at hkey
      split at hkey
      · next v key' hwrite =>
          cases hkey
          exact (hreq.own _ _ _ hwrite rfl).2
      · cases hkey
  | _ => trivial

/-- **Ignored clusters are left alone.** In a run in which the annotation is only set on resources
that are neither queued nor being reconciled, no reconcile that starts on a resource with the
annotation writes anything, and no other reconcile writes the resource. -/
theorem ignored_left_alone (c : Cluster) {acts : List Action}
    (hacts : Meets (step hash denyList) SetWhileIdle { cluster := c } acts) :
    Meets (step hash denyList) LeavesIgnored { cluster := c } acts :=
  hacts.ofInvariant (I := Idle hash) (fun _ a _ hs hidle => ⟨hs.step hidle, hs.leaves a⟩)
    ⟨fun _ h => absurd h List.not_mem_nil, fun _ h => absurd h List.not_mem_nil⟩

/-! ## Two tiers -/

instance (s : State) : DecidablePred (SetWhileIdle s)
  | .store cr => inferInstanceAs (Decidable (ignoreIgnoredObjectPredicate cr = false →
      cr.key ∉ s.queue ∧ ∀ r ∈ s.running, r.key ≠ cr.key))
  | .delete _ _ => .isTrue trivial
  | .outside _ => .isTrue trivial
  | .relist _ => .isTrue trivial
  | .start _ _ _ _ => .isTrue trivial
  | .advance _ _ _ => .isTrue trivial
  | .kill => .isTrue trivial
  | .boot => .isTrue trivial

instance (s : State) : DecidablePred (LeavesIgnored s)
  | .advance i _ _ => inferInstanceAs (Decidable (∀ r ∈ s.running[i]?, ∀ req ∈ r.next,
      (r.ignored = true → req.write = none) ∧ ∀ key ∈ writesCR req, key = r.key))
  | .store _ => .isTrue trivial
  | .delete _ _ => .isTrue trivial
  | .outside _ => .isTrue trivial
  | .relist _ => .isTrue trivial
  | .start _ _ _ _ => .isTrue trivial
  | .kill => .isTrue trivial
  | .boot => .isTrue trivial

/-- The two tiers with the annotation. -/
def ignoredTiers (image : String) : Druid :=
  { tieredCluster image with metadata := { (tieredCluster image).metadata with
    annotations := some (Finmap.singleton ignoredAnnotation "true") } }

/-- A worker reconciles the tiers, with at most `n` requests. -/
def reconciled (n : ℕ) : List Action :=
  .start ("d", "c") {} .same (.ok ()) :: List.replicate n (.advance 0 0 none)

/-- Tiers that are created with the annotation are not deployed until it is removed. -/
theorem ignored_left_alone_tiers :
    Meets (step imageHash []) LeavesIgnored {}
      (.store (ignoredTiers "v1") :: reconciled 50 ++
        .store (tieredCluster "v1") :: reconciled 50) :=
  ignored_left_alone {} (by decide +kernel)

/-- Tiers that are deployed get the annotation and a new image. The requeue after the first
reconcile does not ask for it, and the second one writes. -/
theorem requeued_though_ignored :
    ¬ Meets (step imageHash []) LeavesIgnored {}
      (.store (tieredCluster "v1") :: reconciled 50 ++
        .store (ignoredTiers "v2") :: reconciled 50) := by
  decide +kernel

end DruidOperator.Controller.Manager
