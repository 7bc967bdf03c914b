import DataOlympus.Text.Lines
import DataOlympus.Python.Value
import DataOlympus.Control.Except
import DataOlympus.Document.Path
import DataOlympus.Document.Frontmatter
import DataOlympus.Document.Validity
import DataOlympus.Document.Parse
import DataOlympus.Index.Build
import DataOlympus.Gate.GovernedLane
import DataOlympus.Python.StrictEqual
import DataOlympus.Gate.Validate
import DataOlympus.Gate.Agreement
import DataOlympus.Index.Storable
import DataOlympus.Gate.Accepted
import DataOlympus.Transition.Run
import DataOlympus.Index.InForce
import DataOlympus.Gate.Propose
import DataOlympus.Gate.Promotion
import DataOlympus.Gate.Backstop
import DataOlympus.Merge.Replay
import DataOlympus.Publish.Session
import DataOlympus.Publish.Upstream
import DataOlympus.Search.Facets
import DataOlympus.Search.Pipeline
import DataOlympus.Search.Retrieval
import DataOlympus.Transition.Plan
import DataOlympus.Pending.Disk
import DataOlympus.Pending.Queue
import DataOlympus.Pending.Ledger
import DataOlympus.Pending.Exclusion
import DataOlympus.Pending.Fencing
import DataOlympus.Pending.Recovery
import DataOlympus.Publish.PushQueue
import DataOlympus.Audit.Log
import DataOlympus.Onboarding.InFlight
import DataOlympus.Audit.Chain
import DataOlympus.Audit.Rotation
import DataOlympus.Audit.Tamper
import DataOlympus.Enforce.Classifier
import DataOlympus.Enforce.Ledger
import DataOlympus.Enforce.Coverage
import DataOlympus.Enforce.Suggestion
import DataOlympus.Text.Listing
import DataOlympus.Publish.Demotion
import DataOlympus.Merge.ThreeWay
import DataOlympus.Publish.Approval
import DataOlympus.Publish.Release
import DataOlympus.Document.Render
import DataOlympus.Pending.Resolve
import DataOlympus.Select.Best
import DataOlympus.Select.Tally
import DataOlympus.Search.Cooccurrence
import DataOlympus.Git.WorkingTree
import DataOlympus.Publish.Cleanup
import DataOlympus.Onboarding.Bundle
import DataOlympus.Publish.Worktrees
import DataOlympus.Publish.Supersession
import DataOlympus.Audit.Emission
import DataOlympus.Audit.Decisions
import DataOlympus.Audit.Exits
import DataOlympus.Audit.Answered
import DataOlympus.Json.Scan
import DataOlympus.Python.Json
import DataOlympus.Audit.Files
import DataOlympus.Audit.Torn
import DataOlympus.Python.JsonRead
import DataOlympus.Merge.Combine
import DataOlympus.Publish.Provenance
import DataOlympus.Maintenance.State
import DataOlympus.Maintenance.Ledger
import DataOlympus.Index.Writable
import DataOlympus.Publish.BaseCheck
import DataOlympus.Select.Disjoint
import DataOlympus.Text.Regex
import DataOlympus.Gate.Secrets
import DataOlympus.Onboarding.Status
import DataOlympus.Onboarding.RemoteUrl
import DataOlympus.Gate.RateLimit
import DataOlympus.Git.Trailers
import DataOlympus.Gate.WritingRules
import DataOlympus.Importer.Flat
import DataOlympus.Importer.Stamp
import DataOlympus.Audit.Since
import DataOlympus.Pending.Listing
import DataOlympus.Gate.Cancel
import DataOlympus.Maintenance.StatusMigrate
import DataOlympus.Select.Shadow
import DataOlympus.Maintenance.Converge
import DataOlympus.Importer.Run
import DataOlympus.Importer.Atomic
import DataOlympus.Importer.Stamped
import DataOlympus.Importer.Repeat
import DataOlympus.Sql.Where
import DataOlympus.Python.IsoDate
import DataOlympus.Search.Columns
import DataOlympus.Gate.ExtraPatterns
import DataOlympus.Select.Pairing
import DataOlympus.Python.SameValue
import DataOlympus.Python.Aliases
import DataOlympus.Python.IntOf
import DataOlympus.Text.Pieces
import DataOlympus.Enforce.Report
import DataOlympus.Version.SemVer
import DataOlympus.Git.Graph
import DataOlympus.Version.Pep440
import DataOlympus.Version.Candidate
import DataOlympus.Version.Monotone
import DataOlympus.Html.Embedded
import DataOlympus.Viewer.Payload
import DataOlympus.Viewer.Page
import DataOlympus.Installer.Blocks
import DataOlympus.Installer.Hooks
import DataOlympus.Audit.Readers
import DataOlympus.Enforce.Correlate
import DataOlympus.Access.Principals
import DataOlympus.Access.Surfaces
import DataOlympus.Graph.DepthFirst
import DataOlympus.Lint.Bundle
import DataOlympus.Lint.Cycles
import DataOlympus.Lint.Steady
import DataOlympus.Publish.ClaimSearch
import DataOlympus.Refresh.Loop
import DataOlympus.Sanitize.Errors
import DataOlympus.Sanitize.Records
import DataOlympus.Search.Expansion
import DataOlympus.Sessions.Reaper
import DataOlympus.Storage.Cache
import DataOlympus.Storage.Durable
