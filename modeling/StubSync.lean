import StubSync.Classify
import StubSync.Hosting.Memory
import StubSync.Main
import StubSync.Proposal.Encoding
import StubSync.Proofs.Interaction
import StubSync.Proofs.Proposal.Branch
import StubSync.Proofs.Hosting.Service
import StubSync.Proofs.Proposal.History
import StubSync.Proofs.Hosting.Calls
import StubSync.Proofs.Hosting.Server
import StubSync.Proofs.Hosting.Atomicity
import StubSync.Proofs.Hosting.Deletion
import StubSync.Proofs.Run.Pool
import StubSync.Proofs.Text.Decimal
import StubSync.Proofs.Version.Order
import StubSync.Proofs.Text.Blank
import StubSync.Proofs.Version.RoundTrip
import StubSync.Proofs.Version.Series
import StubSync.Proofs.Constraint
import StubSync.Proofs.Settling
import StubSync.Proofs.Metadata.Rewrite
import StubSync.Proofs.Patch.Reader
import StubSync.Proofs.Text.Lines
import StubSync.Proofs.Patch.Hunk
import StubSync.Proofs.Patch.RoundTrip
import StubSync.Proofs.Pacing
import StubSync.Proofs.Proposal.Blocking
import StubSync.Proofs.Proposal.Draft
import StubSync.Proofs.Proposal.Preview
import StubSync.Proofs.Proposal.Overlap
import StubSync.Proofs.Run.Attempts
import StubSync.Proofs.Run.Jobs
import StubSync.Proofs.Retry
import StubSync.Proofs.Retry.Delay
import StubSync.Proofs.Retry.Schedule
import StubSync.Proofs.Http.Address
import StubSync.Proofs.Http.Exchange
import StubSync.Proofs.Hosting.Conversation
import StubSync.Proofs.Hosting.Discipline
import StubSync.Proofs.Hosting.Issues
import StubSync.Proofs.Index.Fetch
import StubSync.Proofs.Session.Ending
import StubSync.Proofs.Session.Reading
import StubSync.Proofs.Run.Publications
import StubSync.Proofs.Run.Rerun
import StubSync.Proofs.Run.Levels
import StubSync.Proofs.Release
import StubSync.Proofs.Version.Stages
import StubSync.Proofs.Json.Document
import StubSync.Proofs.Json.Record
import StubSync.Proofs.Patch.Series
import StubSync.Proofs.Report.Document
import StubSync.Proofs.Report.Patches
import StubSync.Proofs.Report.Wording
import StubSync.Proofs.Verdict
import StubSync.Proofs.Release.Sorted
import StubSync.Proofs.Eligible
import StubSync.Proofs.Metadata.Frame
import StubSync.Proofs.Index.Document
import StubSync.Proofs.Coverage
import StubSync.Proofs.Proposal.Identity
import StubSync.Proofs.Hosting.Conflict
import StubSync.Proofs.Hosting.Lookup
import StubSync.Proofs.Hosting.Found
import StubSync.Proofs.Settings
import StubSync.Proofs.Checkout
