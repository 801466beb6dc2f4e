import DruidOperator.Footprint

/-!
# `Reconcile` and what triggers it

`druid_controller.go` and `predicates.go`: events of a `Druid` resource pass the predicates, and a
reconcile reads the resource again, deploys it and asks to be called again. The dynamic
configuration of a cluster is set through Druid's own API: it writes nothing to Kubernetes, and
only its result is kept here.
-/

namespace DruidOperator.Controller

open Interaction Prog Kube

/-! ## Predicates -/

def ignoredAnnotation : String := "druid.apache.org/ignored"

def ignoreNamespacePredicate (denyList : List String) (obj : Druid) : Bool := obj.ns ∉ denyList

def ignoreIgnoredObjectPredicate (obj : Druid) : Bool :=
  StrMap.getD obj.metadata.annotations ignoredAnnotation ≠ "true"

/-- `GenericPredicates`: what `Create` asks of the new object, and `Update` too. -/
def genericPredicates (denyList : List String) (obj : Druid) : Bool :=
  ignoreNamespacePredicate denyList obj && ignoreIgnoredObjectPredicate obj

/-! ## Reconcile -/

def reconcile (hash : Hash) (o : MapOrders) (dynamicConfigs : Except Error Unit)
    (request : String × String) (decoding : Decoding := .same) : Code Result := do
  match ← getObj .druid request.1 request.2 with
  | .error err => if err.notFound then return .done else .exit (.error err)
  | .ok m => do
      deployDruidCluster hash o m decoding
      orReturn dynamicConfigs
      return .requeueAfter

theorem reconcile_eq (hash : Hash) (o : MapOrders) (decoding : Decoding)
    (dynamicConfigs : Except Error Unit) (key : String × String) :
    reconcile hash o dynamicConfigs key decoding = .call (.get .druid key.1 key.2) fun
      | .error err => if err.notFound then .ret .done else .exit (.error err)
      | .ok m => deployDruidCluster hash o m decoding >>= fun _ =>
          orReturn dynamicConfigs >>= fun _ => .ret .requeueAfter := by
  unfold reconcile getObj
  simp only [call_bind, ret_bind]
  refine congrArg _ (funext fun answer => ?_)
  cases answer <;> rfl

/-- Everything a reconcile writes comes from deploying the resource it read. -/
theorem reconcile_writes {σ : Type} {h : Handler sig σ} {hash : Hash} {o : MapOrders}
    {dynamicConfigs : Except Error Unit} {request : String × String} {s : σ} {e : Step sig σ}
    (he : e ∈ (exec h (reconcile hash o dynamicConfigs request) s).steps)
    (hwrite : e.req.write ≠ none) :
    ∃ m, (h (.get .druid request.1 request.2) s).1 = .ok m ∧
      e ∈ (exec h (deployDruidCluster hash o m)
        (h (.get .druid request.1 request.2) s).2).steps := by
  unfold reconcile getObj at he
  simp only [call_bind, ret_bind, exec_call] at he
  rcases List.mem_cons.1 he with rfl | he
  · exact absurd rfl hwrite
  · cases hget : (h (.get .druid request.1 request.2) s).1 with
    | error err =>
        rw [hget] at he
        dsimp only at he
        split_ifs at he <;> cases he
    | ok m =>
        rw [hget] at he
        refine ⟨m, rfl, ?_⟩
        have hrest : ∀ t, (exec h (orReturn dynamicConfigs >>= fun _ =>
            Prog.ret Result.requeueAfter : Code Result) t).steps = [] := by
          intro t
          cases dynamicConfigs <;> rfl
        cases hres : (exec h (deployDruidCluster hash o m)
            (h (.get .druid request.1 request.2) s).2).res with
        | error err =>
            dsimp only at he
            rwa [exec_bind_error hres] at he
        | ok u =>
            dsimp only at he
            rw [exec_bind_ok hres] at he
            rcases List.mem_append.1 he with he | he
            · exact he
            · exact absurd (hrest _ ▸ he) List.not_mem_nil

end DruidOperator.Controller
