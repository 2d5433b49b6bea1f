import ActionLineage.Journal.Append
import ActionLineage.Journal.Anchors
import ActionLineage.Journal.AnchorLogAppend
import ActionLineage.Journal.VerifiedPrefix
import ActionLineage.Projection.TimelineOrder
import ActionLineage.Detection.Permutation
import ActionLineage.Detection.Unordered
import ActionLineage.Projection.PostgresBinding
import ActionLineage.Contracts.Integrity
import ActionLineage.Contracts.Latency
import ActionLineage.Projection.Binding
import ActionLineage.Projection.GraphClosure
import ActionLineage.Domain.Noninterference
import ActionLineage.Service.Tenancy
import ActionLineage.Exporters.Profiles
import ActionLineage.Adapters.Lifecycle
import ActionLineage.Domain.Codec
import ActionLineage.Detection.Suppression
import ActionLineage.Detection.Operators
import ActionLineage.Detection.Returns
import ActionLineage.Domain.CaptureBudget
import ActionLineage.Evidence.FailureIsolation
import ActionLineage.Observers.Cloud
import ActionLineage.Lab.Robustness
import ActionLineage.Lab.Mutation
import ActionLineage.Journal.AnchorLogReturns
import ActionLineage.Console.Context
import ActionLineage.Detection.RuleSaver
import ActionLineage.Contracts.Codec
import ActionLineage.Projection.Rebuild
import ActionLineage.Evidence.Durability
import ActionLineage.Adapters.Dispatch
import ActionLineage.Projection.Reads
import ActionLineage.Service.Auth
import ActionLineage.Service.Ingest
import ActionLineage.Service.Provenance
import ActionLineage.Projection.Freshness
import ActionLineage.Service.Answers
