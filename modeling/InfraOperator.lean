import InfraOperator.Api.Answer
import InfraOperator.Api.Client
import InfraOperator.Api.Configurations
import InfraOperator.Api.Events
import InfraOperator.Api.Http
import InfraOperator.Api.Revisions
import InfraOperator.Api.Serving
import InfraOperator.Catalog.Controller
import InfraOperator.Catalog.Expiration
import InfraOperator.Catalog.Membership
import InfraOperator.Catalog.Store
import InfraOperator.Cluster.Answer
import InfraOperator.Cluster.Basic
import InfraOperator.CommandLine
import InfraOperator.Cycle.Basic
import InfraOperator.Cycle.Failures
import InfraOperator.Cycle.Finalizer
import InfraOperator.Cycle.Pipeline
import InfraOperator.Cycle.Program
import InfraOperator.Cycle.Retry
import InfraOperator.Cycle.Surroundings
import InfraOperator.Decimal.Shortest
import InfraOperator.Dict
import InfraOperator.Failure
import InfraOperator.Json.Basic
import InfraOperator.Json.Document
import InfraOperator.Json.Printer
import InfraOperator.Json.Reader
import InfraOperator.Main
import InfraOperator.Manifest.Kinds
import InfraOperator.Manifest.Schema
import InfraOperator.Object.Job
import InfraOperator.Object.Meta
import InfraOperator.Object.Pod
import InfraOperator.Object.Record
import InfraOperator.Object.Secret
import InfraOperator.Object.Shape.Basic
import InfraOperator.Object.Shape.Container
import InfraOperator.Object.Shape.Pod
import InfraOperator.Object.Shape.Selector
import InfraOperator.Object.Shape.Volume
import InfraOperator.Proofs.Answering
import InfraOperator.Proofs.Attempts
import InfraOperator.Proofs.Backoff
import InfraOperator.Proofs.Building
import InfraOperator.Proofs.Calendar
import InfraOperator.Proofs.Catalog.Admission
import InfraOperator.Proofs.Catalog.Agreement
import InfraOperator.Proofs.Catalog.Alone
import InfraOperator.Proofs.Catalog.Consumers
import InfraOperator.Proofs.Catalog.Deletions
import InfraOperator.Proofs.Catalog.Enlisting
import InfraOperator.Proofs.Catalog.Expiration
import InfraOperator.Proofs.Catalog.Joining
import InfraOperator.Proofs.Catalog.Memberships
import InfraOperator.Proofs.Catalog.Steps
import InfraOperator.Proofs.Catalog.Streaks
import InfraOperator.Proofs.Catalog.Survival
import InfraOperator.Proofs.Catalog.Terminating
import InfraOperator.Proofs.Conflicts
import InfraOperator.Proofs.Contention
import InfraOperator.Proofs.Decoding
import InfraOperator.Proofs.Deeds
import InfraOperator.Proofs.Delays
import InfraOperator.Proofs.Documents
import InfraOperator.Proofs.Execution
import InfraOperator.Proofs.Filters
import InfraOperator.Proofs.Finalizers
import InfraOperator.Proofs.Generations
import InfraOperator.Proofs.ImageReferences
import InfraOperator.Proofs.Interleaving
import InfraOperator.Proofs.JsonText
import InfraOperator.Proofs.Marks
import InfraOperator.Proofs.Merging
import InfraOperator.Proofs.Metadata
import InfraOperator.Proofs.Newest
import InfraOperator.Proofs.Numerals
import InfraOperator.Proofs.Observed
import InfraOperator.Proofs.Persisting
import InfraOperator.Proofs.Provisioning.Budget
import InfraOperator.Proofs.Provisioning.Changes
import InfraOperator.Proofs.Provisioning.Completion
import InfraOperator.Proofs.Provisioning.Copies
import InfraOperator.Proofs.Provisioning.Correlation
import InfraOperator.Proofs.Provisioning.Creation
import InfraOperator.Proofs.Provisioning.Duplicates
import InfraOperator.Proofs.Provisioning.Handling
import InfraOperator.Proofs.Provisioning.Interruption
import InfraOperator.Proofs.Provisioning.Journal
import InfraOperator.Proofs.Provisioning.Leftovers
import InfraOperator.Proofs.Provisioning.Names
import InfraOperator.Proofs.Provisioning.Plays
import InfraOperator.Proofs.Provisioning.Quiescence
import InfraOperator.Proofs.Provisioning.Release
import InfraOperator.Proofs.Provisioning.Retries
import InfraOperator.Proofs.Provisioning.Stages
import InfraOperator.Proofs.Provisioning.Steps
import InfraOperator.Proofs.Provisioning.Turns
import InfraOperator.Proofs.Provisioning.Units
import InfraOperator.Proofs.Provisioning.Waiting
import InfraOperator.Proofs.Provisioning.Watchers
import InfraOperator.Proofs.Queries
import InfraOperator.Proofs.Records
import InfraOperator.Proofs.Requests
import InfraOperator.Proofs.Retrying
import InfraOperator.Proofs.Runs
import InfraOperator.Proofs.Selectors
import InfraOperator.Proofs.Settling
import InfraOperator.Proofs.Shadowing
import InfraOperator.Proofs.Stepping
import InfraOperator.Proofs.Timestamps
import InfraOperator.Proofs.Tracking
import InfraOperator.Proofs.Transitions
import InfraOperator.Proofs.Undisturbed
import InfraOperator.Proofs.Updates
import InfraOperator.Proofs.Versions
import InfraOperator.Provisioning.Controller
import InfraOperator.Provisioning.Naming
import InfraOperator.Provisioning.Rendering
import InfraOperator.Provisioning.Steps
import InfraOperator.Provisioning.Store
import InfraOperator.Rehearsal.Calls
import InfraOperator.Rehearsal.Exchange
import InfraOperator.Rehearsal.Scenario
import InfraOperator.Rehearsal.Script
import InfraOperator.Rehearsal.Session
import InfraOperator.Rehearsal.Trial
import InfraOperator.Rehearsal.Values
import InfraOperator.Rehearsal.World
import InfraOperator.Resource.Basic
import InfraOperator.Resource.Condition
import InfraOperator.Resource.Configuration
import InfraOperator.Resource.Plan
import InfraOperator.Resource.Policy
import InfraOperator.Resource.Provider
import InfraOperator.Resource.Revision
import InfraOperator.Settings
import InfraOperator.Telemetry.Instruments
import InfraOperator.Telemetry.Logging
import InfraOperator.Text.Base64
import InfraOperator.Text.Blank
import InfraOperator.Text.Integer
import InfraOperator.Text.Quoted
import InfraOperator.Text.Visible
import InfraOperator.Time.Instant
import InfraOperator.Time.Rfc3339
import InfraOperator.Time.Span
import InfraOperator.Unit.Basic
import InfraOperator.Unit.Filter
import InfraOperator.Version
