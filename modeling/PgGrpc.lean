import PgGrpc.Call
import PgGrpc.Calls
import PgGrpc.ChannelCache
import PgGrpc.Cluster
import PgGrpc.Crates
import PgGrpc.Descriptor
import PgGrpc.Endpoint
import PgGrpc.Error
import PgGrpc.JoinSet
import PgGrpc.Json
import PgGrpc.Library.Exchange
import PgGrpc.Library.Fiber
import PgGrpc.Library.Guarded
import PgGrpc.Library.Keyed
import PgGrpc.Library.Machine
import PgGrpc.Library.Strip
import PgGrpc.Library.Tasks
import PgGrpc.Library.Waits
import PgGrpc.Lifecycle
import PgGrpc.Options
import PgGrpc.Process
import PgGrpc.Proofs.Answers
import PgGrpc.Proofs.AsyncCalls
import PgGrpc.Proofs.Batch
import PgGrpc.Proofs.BatchEnds
import PgGrpc.Proofs.BlockingWait
import PgGrpc.Proofs.CallEffects
import PgGrpc.Proofs.CallProtocol
import PgGrpc.Proofs.CallRuns
import PgGrpc.Proofs.CallSafety
import PgGrpc.Proofs.ChannelIsolation
import PgGrpc.Proofs.ChannelLifetime
import PgGrpc.Proofs.ClusterSteps
import PgGrpc.Proofs.Compile
import PgGrpc.Proofs.Conservation
import PgGrpc.Proofs.Delivery
import PgGrpc.Proofs.Drain
import PgGrpc.Proofs.DrainLoop
import PgGrpc.Proofs.DrainResults
import PgGrpc.Proofs.Executions
import PgGrpc.Proofs.Fairness
import PgGrpc.Proofs.Imports
import PgGrpc.Proofs.IssuedRows
import PgGrpc.Proofs.LatchPointer
import PgGrpc.Proofs.Listings
import PgGrpc.Proofs.Lookup
import PgGrpc.Proofs.LostWakeup
import PgGrpc.Proofs.Metadata
import PgGrpc.Proofs.MethodPath
import PgGrpc.Proofs.OptionsGrammar
import PgGrpc.Proofs.Outcomes
import PgGrpc.Proofs.PinnedSchemas
import PgGrpc.Proofs.Pools
import PgGrpc.Proofs.Queue
import PgGrpc.Proofs.Refinement
import PgGrpc.Proofs.ReflectedSchemas
import PgGrpc.Proofs.ReflectionOrder
import PgGrpc.Proofs.Reload
import PgGrpc.Proofs.Restart
import PgGrpc.Proofs.Retention
import PgGrpc.Proofs.Seeding
import PgGrpc.Proofs.ServerSteps
import PgGrpc.Proofs.Sigterm
import PgGrpc.Proofs.Snapshots
import PgGrpc.Proofs.StoredAnswers
import PgGrpc.Proofs.Text
import PgGrpc.Proofs.TlsOptions
import PgGrpc.Proofs.Transactions
import PgGrpc.Proofs.Wake
import PgGrpc.Proofs.WakeWarrant
import PgGrpc.Proofs.WorkerSchemas
import PgGrpc.Proto
import PgGrpc.ProtoManagement
import PgGrpc.Queue
import PgGrpc.RowCall
import PgGrpc.Server
import PgGrpc.Sql
import PgGrpc.Staging
import PgGrpc.Text
import PgGrpc.Tls
import PgGrpc.Worker
