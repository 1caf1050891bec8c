import Memora.SummaryCounters
import Memora.SummaryOutcomes
import Memora.SummaryLegacy
import Memora.LearningRollback
import Memora.LearningAnswers
import Memora.CanonicalSourceRetry
import Memora.WriteBudget
import Memora.WriteAtoms
import Memora.SummaryOwners
import Memora.SummaryPasses
import Memora.DecayScheduler
import Memora.ReconsolidationRecovery
import Memora.CatalogFreshness
import Memora.EvolutionRejection
import Memora.EvolutionAttempts
import Memora.InjectionRoundTrip
import Memora.InjectionRecorderRuns
import Memora.QuarantineRuns
import Memora.RestoreLegacy
import Memora.CleanupRuns
import Memora.RepresentationMigration
import Memora.GraphRuns
import Memora.AtomReplay
import Memora.MergeReplay
import Memora.ScopeResolver
import Memora.RerankBoundary
import Memora.GroundingReplay
import Memora.AtomInterleavings
import Memora.DeletionRuns
import Memora.ConfigFrames
import Memora.ScopeLocks
import Memora.MmrSelection
import Memora.MaintenanceBounds
import Memora.ProjectionAttachments
import Memora.EvolutionRepeats
import Memora.LearningSaves
import Memora.LlmJsonDocuments
import Memora.IdentityNames
import Memora.AtomDedup
import Memora.BatchDelete
import Memora.SummaryTrim
import Memora.DuplicateScopes
import Memora.DerivedExpansion
import Memora.TopicSelection
import Memora.ChineseNumerals
import Memora.ExtraLlmBudget
