import DruidOperator.Lib.Interaction
import DruidOperator.Lib.Runs
import DruidOperator.Lib.Table
import DruidOperator.Lib.Traces
import DruidOperator.Lib.Replica
import DruidOperator.Lib.Segments
import DruidOperator.Types
import DruidOperator.ApiServer
import DruidOperator.Objects
import DruidOperator.Lib.Regex
import DruidOperator.Lib.Buckets
import DruidOperator.Lib.Dynamic
import DruidOperator.Verify
import DruidOperator.VolumeExpansion
import DruidOperator.OrphanClaims
import DruidOperator.Finalizers
import DruidOperator.Handler
import DruidOperator.Plan
import DruidOperator.Footprint
import DruidOperator.RollingDeploy
import DruidOperator.WorkloadWrites
import DruidOperator.WorkloadAnnotations
import DruidOperator.Reconciler
import DruidOperator.Autoscaling
import DruidOperator.IgnoredClusters
import DruidOperator.RollingRuns
import DruidOperator.ObservedRollout
import DruidOperator.FinalizersProof
import DruidOperator.FinalizerRuns
import DruidOperator.VolumeExpansionProof
import DruidOperator.Json
import DruidOperator.JsonRoundTrip
import DruidOperator.Basic
import DruidOperator.DruidApi
import DruidOperator.ApiPaths
import DruidOperator.Ingestion
import DruidOperator.IngestionRun
import DruidOperator.IngestionProof
import DruidOperator.IngestionQuiet
import DruidOperator.IngestionRules
import DruidOperator.IngestionTask
import DruidOperator.Lib.Embedding
import DruidOperator.IngestionLifecycle
import DruidOperator.IngestionDeletion
import DruidOperator.IngestionProtection
import DruidOperator.OrphanRuns
import DruidOperator.RequestedClaims
import DruidOperator.SentObjects
import DruidOperator.SharedServices
import DruidOperator.SharedProbes
import DruidOperator.StatusPatch
import DruidOperator.ObjectNames
import DruidOperator.ShrinkRejection
import DruidOperator.ExtraConfig
import DruidOperator.CommonConfig
import DruidOperator.ConfigRollout
import DruidOperator.IngestionSettled
import DruidOperator.JsonInclusion
import DruidOperator.IngestionReport
import DruidOperator.HeldRules
import DruidOperator.Placement
import DruidOperator.CompleteCall
import DruidOperator.UnusedObjects
import DruidOperator.GeneratedObjects
import DruidOperator.GarbageCollection
import DruidOperator.RolloutStatus
import DruidOperator.DeclaredClaims
import DruidOperator.ValidSpecs
import DruidOperator.OrphanPass
import DruidOperator.ExpansionBounds
import DruidOperator.ExpansionSteps
import DruidOperator.ExpansionClasses
import DruidOperator.RouterUrl
import DruidOperator.GroupOrder
import DruidOperator.IdleCalls
import DruidOperator.Quiescence
import DruidOperator.PodTemplates
import DruidOperator.BuilderPanics
import DruidOperator.FinalizerCleanup
import DruidOperator.IngestionStatus
import DruidOperator.SpecNumbers
import DruidOperator.Lib.Rely
import DruidOperator.Bystanders
import DruidOperator.ControlLoop
import DruidOperator.FaultyCalls
import DruidOperator.ServedCalls
import DruidOperator.Convergence
import DruidOperator.DynamicConfig
import DruidOperator.DynamicSettings
import DruidOperator.IngestionLocking
