import BatchRun.Codec.Records
import BatchRun.Json.Reader
import BatchRun.Json.Writer
import BatchRun.Launch.Listing
import BatchRun.LaunchId
import BatchRun.Operator
import BatchRun.Parameters.Validator
import BatchRun.Reader.Tracking
import BatchRun.Repository.Faults
import BatchRun.Proofs.SortedMap
import BatchRun.Proofs.Store.Executions
import BatchRun.Proofs.Interleaving.Books
import BatchRun.Proofs.Interleaving.Calls
import BatchRun.Proofs.Interleaving.Completion
import BatchRun.Proofs.Interleaving.Handover
import BatchRun.Proofs.Interleaving.StaleWrites
import BatchRun.Proofs.Interleaving.Overtaking
import BatchRun.Proofs.Interleaving.StopRequests
import BatchRun.Proofs.Launch.Accounts
import BatchRun.Proofs.Parameters.Identity
import BatchRun.Proofs.Launch.Outcome
import BatchRun.Proofs.Launch.Resumption
import BatchRun.Proofs.Store.VersionChain
import BatchRun.Proofs.Store.Identities
import BatchRun.Proofs.Store.StepLog
import BatchRun.Proofs.Reader.Phases
import BatchRun.Proofs.Clients.Status
import BatchRun.Proofs.Clients.Stores
import BatchRun.Proofs.Clients.Reads
import BatchRun.Proofs.Clients.Isolation
import BatchRun.Proofs.Clients.Twins
import BatchRun.Proofs.Reader.Exhausted
import BatchRun.Proofs.Repository.Claims
import BatchRun.Proofs.Launch.Conflicts
import BatchRun.Proofs.Clients.Claims
import BatchRun.Proofs.Codec.Records
import BatchRun.Proofs.Operator.Asking
import BatchRun.Proofs.Operator.Failures
import BatchRun.Proofs.Store.Mapped
import BatchRun.Proofs.Operator.Effects
import BatchRun.Proofs.Clients.OwnLists
import BatchRun.Proofs.Clients.Calls
import BatchRun.Proofs.Clients.Abandoned
import BatchRun.Proofs.Launch.UnsavedSteps
import BatchRun.Proofs.Repository.Outlines
import BatchRun.Proofs.ExitStatus
import BatchRun.Proofs.Retry
import BatchRun.Proofs.Store.Eviction
import BatchRun.Proofs.Retry.Delay
import BatchRun.Proofs.Context.Dirty
import BatchRun.Proofs.Reader.Sharing
import BatchRun.Proofs.Execution.History
import BatchRun.Proofs.Launch.Slots
import BatchRun.Proofs.Config
