import Bantam.Projection
import Bantam.Authentication
import Bantam.Authorisation
import Bantam.AccountTables
import Bantam.Deferred
import Bantam.Replay
import Bantam.Delivery
import Bantam.Idempotency
import Bantam.Retry
import Bantam.MfaSession
import Bantam.Removal
import Bantam.DoubleEntry
import Bantam.Reversals
import Bantam.Enrolment
import Bantam.AttackTrees
import Bantam.CompiledTests
import Bantam.PlanIntegrity
import Bantam.Grounding
import Bantam.Revocations
import Bantam.Bypass
import Bantam.Lifecycle
import Bantam.Deadlock
import Bantam.RiskWorker
import Bantam.Notifications
import Bantam.Migrations
import Bantam.ProjectionClosure
import Bantam.PublicationBoundary
import Bantam.CodeGraph
import Bantam.PythonSource
import Bantam.TerraformSource
import Bantam.PythonCatalog
import Bantam.TerraformCatalog
import Bantam.Remediations
import Bantam.AttackAttempts
import Bantam.ProjectionSecrecy
import Bantam.HclTotality
import Bantam.DependencySequence
import Bantam.LossSimulation
import Bantam.ControlEffects
import Bantam.TerraformScopes
import Bantam.Lib.Matching
import Bantam.RedactedLines
import Bantam.RedactionSecrecy
import Bantam.DatabaseLimiter
import Bantam.Lockout
import Bantam.PoisonEvents
import Bantam.Lib.Base64
import Bantam.Lib.JsonBytes
import Bantam.EventEnvelope
import Bantam.Lib.IpAddress
import Bantam.ForwardedChain
import Bantam.Lib.Sorted
import Bantam.LossStatistics
import Bantam.SimulationReport
import Bantam.Answers
import Bantam.Guesses
import Bantam.TotpSteps
import Bantam.BodyLimit
import Bantam.FetchedFiles
import Bantam.SourceContext
import Bantam.ContextBounds
import Bantam.Lib.Worklist
import Bantam.OpenApi
import Bantam.ProviderSchemas
import Bantam.PythonSymbols
import Bantam.PromptReduction
import Bantam.PromptBounds
import Bantam.Evidence
import Bantam.JunitEvidence
import Bantam.JunitOutcomes
import Bantam.HclMasking
import Bantam.BrowserSimulation
import Bantam.BrowserDraws
import Bantam.CatalogClosure
import Bantam.FlowAddresses
import Bantam.CatalogFlows
import Bantam.WorkflowValidator
import Bantam.EventReplay
import Bantam.Approvals
import Bantam.RegoPolicies
import Bantam.EvidenceReport
import Bantam.FinancialHistory
import Bantam.CustomerReads
import Bantam.SoftwareInventory
import Bantam.AttackLab
import Bantam.AttackLabRuns
