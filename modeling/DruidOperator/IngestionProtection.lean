import DruidOperator.IngestionDeletion

/-!
# The finalizer that protects a running task

`do` registers its finalizer after the task was started, with an `Update` of the object it has in
memory. A status patch on the way has moved the stored object to a later `resourceVersion` than
that one, so the `Update` is refused, and `do` returns as if nothing had happened. The finalizer is
registered only by a `do` that patches nothing.
-/

namespace DruidOperator.Ingestion

open Interaction Prog DruidApi Runs Triple

/-! ## What a reconcile keeps of the object -/

end DruidOperator.Ingestion
