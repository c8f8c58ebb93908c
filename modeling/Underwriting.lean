import Underwriting.Python.Regex
import Underwriting.DurableGraph.Basic
import Underwriting.Python.Json
import Underwriting.Python.Rounding
import Underwriting.Domain.Errors
import Underwriting.Domain.Models
import Underwriting.Domain.Policy
import Underwriting.Domain.Decisioning
import Underwriting.Infrastructure.Resilience
import Underwriting.Infrastructure.AuditLog
import Underwriting.Infrastructure.CreditBureau
import Underwriting.Infrastructure.PromptGuard
import Underwriting.Infrastructure.Tracing
import Underwriting.Infrastructure.Llm
import Underwriting.Service.Nodes
import Underwriting.Service.ApplicationService
import Underwriting.Infrastructure.Frame
import Underwriting.Service.Updates
import Underwriting.Service.NodeSpecs
import Underwriting.Run.Progress
import Underwriting.Run.Refinement
import Underwriting.Run.Reachable
import Underwriting.Run.Replies
import Underwriting.Guarantees.DecisionTable
import Underwriting.Guarantees.DebtMonotonicity
import Underwriting.Guarantees.PendingNodes
import Underwriting.Guarantees.Resubmission
import Underwriting.Service.Offline
import Underwriting.Infrastructure.Admission
import Underwriting.Guarantees.Offline
import Underwriting.Guarantees.Isolation
import Underwriting.Run.Emission
import Underwriting.Guarantees.AuditTrail
import Underwriting.Guarantees.RationaleIndependence
import Underwriting.Run.Fresh
import Underwriting.Guarantees.UnderwritingFactors
import Underwriting.Guarantees.HardDecline
import Underwriting.Guarantees.AdverseReasons
import Underwriting.Guarantees.BreakerHistory
import Underwriting.Guarantees.HalfOpenProbe
import Underwriting.Python.Language
import Underwriting.Python.Substitution
import Underwriting.Guarantees.Redaction
import Underwriting.Guarantees.AuditRedaction
import Underwriting.Infrastructure.Logging
import Underwriting.Guarantees.LogPrivacy
import Underwriting.Guarantees.UnlabelledDocuments
import Underwriting.Python.Adjacency
import Underwriting.Python.Spelling
import Underwriting.Guarantees.Cooldown
import Underwriting.Guarantees.RetryBudget
import Underwriting.Guarantees.DecisionRecord
import Underwriting.Guarantees.DeepRedaction
import Underwriting.Guarantees.TrailGrammar
import Underwriting.Guarantees.DocumentedIncome
import Underwriting.Guarantees.FaithfulRationale
import Underwriting.Guarantees.FieldConfidence
import Underwriting.Guarantees.OwnLine
import Underwriting.Guarantees.PayStubRoundTrip
import Underwriting.Guarantees.CleanPrompt
import Underwriting.Guarantees.BreakerInvariant
import Underwriting.Guarantees.IncomeMonotonicity
import Underwriting.Guarantees.FailedSpans
import Underwriting.Guarantees.PermittedFactors
import Underwriting.Guarantees.RedactionStructure
import Underwriting.Guarantees.GuardedFigures
import Underwriting.DurableGraph.Recovery
import Underwriting.Guarantees.CrashSafety
import Underwriting.Guarantees.Redeployment
import Underwriting.Api.Main
import Underwriting.Api.Server
import Underwriting.Guarantees.HttpContract
import Underwriting.Guarantees.LoggedTrail
import Underwriting.Guarantees.Outage
import Underwriting.Guarantees.Answers
import Underwriting.Guarantees.CreditOrder
import Underwriting.Guarantees.OfflineServer
