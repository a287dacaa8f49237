import AgreementIntelligence.Lib.Coverage
import AgreementIntelligence.ApprovalPolicies.NoConflicts
import AgreementIntelligence.Playbooks.Wildcards
import AgreementIntelligence.Playbooks.SameFindings
import AgreementIntelligence.Reviews.Modes
import AgreementIntelligence.Reviews.ExactlyOnce
import AgreementIntelligence.Reviews.Columns
import AgreementIntelligence.Reviews.OpenWork
import AgreementIntelligence.Agreements.Fencing
import AgreementIntelligence.Agreements.Orphans
import AgreementIntelligence.Agreements.QuestionHistory
import AgreementIntelligence.Agreements.Frame
import AgreementIntelligence.Agreements.Attempts
import AgreementIntelligence.Agreements.Submissions
import AgreementIntelligence.Agreements.JobWrites
import AgreementIntelligence.Agreements.CurrentVersions
import AgreementIntelligence.Agreements.Queue
import AgreementIntelligence.Agreements.Wakeups
import AgreementIntelligence.Agreements.NoJobLost
import AgreementIntelligence.Agreements.Catalog
import AgreementIntelligence.Agreements.Ledger
import AgreementIntelligence.Agreements.DeletableKeys
import AgreementIntelligence.Agreements.NoRefusedKey
import AgreementIntelligence.Evidence.Sentences
import AgreementIntelligence.Evidence.Answers
import AgreementIntelligence.Evidence.CompleteSentences
import AgreementIntelligence.Lib.JsonText
import AgreementIntelligence.Evidence.Chunks
import AgreementIntelligence.Evidence.Retrieval
import AgreementIntelligence.Evidence.UsableEvidence
import AgreementIntelligence.Agreements.DeletionOutbox
import AgreementIntelligence.Agreements.DeletionSchema
import AgreementIntelligence.Agreements.LawfulDeletions
import AgreementIntelligence.Reviews.AtLeastOnce
import AgreementIntelligence.Indexing.Configurations
import AgreementIntelligence.Indexing.Tables
import AgreementIntelligence.Indexing.EmbeddingSink
import AgreementIntelligence.Indexing.UsableVectors
import AgreementIntelligence.Indexing.DocumentSink
import AgreementIntelligence.Indexing.Activation
import AgreementIntelligence.Indexing.NewestVersion
import AgreementIntelligence.AiConfig.Service
import AgreementIntelligence.AiConfig.Convergence
import AgreementIntelligence.Agreements.Lineage
import AgreementIntelligence.Reviews.FinalPackage
import AgreementIntelligence.Reviews.PackageDeliveries
import AgreementIntelligence.Reviews.PackagesOnce
import AgreementIntelligence.Lib.Totals
import AgreementIntelligence.Usage.Ledger
import AgreementIntelligence.Usage.Budget
import AgreementIntelligence.Agreements.AuditEvents
import AgreementIntelligence.Agreements.AuditTrail
import AgreementIntelligence.Playbooks.NoTies
import AgreementIntelligence.Analysis.Manifest
import AgreementIntelligence.Analysis.Artifact
import AgreementIntelligence.Analysis.NoInfluence
import AgreementIntelligence.Evidence.OwnBlocks
import AgreementIntelligence.Evidence.StoredTurns
import AgreementIntelligence.Evidence.History
import AgreementIntelligence.Evidence.Redaction
import AgreementIntelligence.Authorization
import AgreementIntelligence.Lib.Queries
import AgreementIntelligence.Mcp.ReadService
import AgreementIntelligence.Mcp.Isolation
import AgreementIntelligence.Lib.Sessions
import AgreementIntelligence.Tenancy.Tables
import AgreementIntelligence.Tenancy.Processing
import AgreementIntelligence.Tenancy.Scoping
import AgreementIntelligence.Tenancy.Promotion
import AgreementIntelligence.Tenancy.Collaboration
import AgreementIntelligence.Tenancy.Coordinator
import AgreementIntelligence.Tenancy.Coverage
import AgreementIntelligence.Lib.JsonValue
import AgreementIntelligence.Reviews.PackageBackfill
import AgreementIntelligence.Reviews.BackfillPrepared
import AgreementIntelligence.Reviews.BackfillEvents
import AgreementIntelligence.Reviews.BackfillRuns
import AgreementIntelligence.Agreements.NoWakeupLost
import AgreementIntelligence.Agreements.SourcesStay
import AgreementIntelligence.Comparisons.Alignment
import AgreementIntelligence.Lib.Pools
import AgreementIntelligence.Comparisons.Candidates
import AgreementIntelligence.Comparisons.Partition
import AgreementIntelligence.Comparisons.SelfComparison
import AgreementIntelligence.Comparisons.ExactMatches
import AgreementIntelligence.Comparisons.Materiality
import AgreementIntelligence.Comparisons.Severity
import AgreementIntelligence.Comparisons.WordDiff
import AgreementIntelligence.Agreements.FinishedWork
import AgreementIntelligence.Agreements.Histories
import AgreementIntelligence.Agreements.VersionArtifacts
import AgreementIntelligence.Agreements.LatestArtifacts
import AgreementIntelligence.ApprovalPolicies.BestMatch
import AgreementIntelligence.Evidence.OrderInsensitive
import AgreementIntelligence.Search.Fusion
import AgreementIntelligence.Evidence.Sections
import AgreementIntelligence.Lib.JsonQuotes
import AgreementIntelligence.Lib.Windows
import AgreementIntelligence.Evidence.ChunkCoverage
import AgreementIntelligence.Comparisons.CanonicalVersion
import AgreementIntelligence.Reviews.Decisions
import AgreementIntelligence.Workspaces
import AgreementIntelligence.AiConfig.SupportedParameters
import AgreementIntelligence.Evidence.Guardrails
import AgreementIntelligence.Evidence.TurnRoundTrip
import AgreementIntelligence.Evidence.EncodedRequests
import AgreementIntelligence.Analysis.FailsClosed
import AgreementIntelligence.Lib.Like
import AgreementIntelligence.Search.Filters
import AgreementIntelligence.Search.FilterMeaning
import AgreementIntelligence.Reviews.DecisionOrder
import AgreementIntelligence.Comparisons.Evaluation
import AgreementIntelligence.Comparisons.GateSound
import AgreementIntelligence.Mcp.AuditedCalls
import AgreementIntelligence.Lib.Pdf
import AgreementIntelligence.Reviews.PdfFile
import AgreementIntelligence.Evidence.Anchors
import AgreementIntelligence.Evidence.SentenceLayout
import AgreementIntelligence.Lib.HalfEven
import AgreementIntelligence.Lib.RunningGreatest
import AgreementIntelligence.Comparisons.BestGroup
import AgreementIntelligence.Lib.Turns
import AgreementIntelligence.UuidOrder
import AgreementIntelligence.Reviews.RelayTurns
import AgreementIntelligence.Usage.DegradedLimits
import AgreementIntelligence.Lib.JsonPaths
import AgreementIntelligence.Privacy.Metadata
import AgreementIntelligence.Privacy.SafeMetadata
import AgreementIntelligence.Audit.RestrictedText
import AgreementIntelligence.Audit.SafeReferences
import AgreementIntelligence.Worker.Messages
import AgreementIntelligence.Worker.Loops
import AgreementIntelligence.Usage.SearchSettlement
import AgreementIntelligence.Playbooks.FindingPayloads
import AgreementIntelligence.Playbooks.ShownPayloads
import AgreementIntelligence.Playbooks.FixedWhenPublished
