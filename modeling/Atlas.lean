import Atlas.System
import Atlas.ConflictRows
import Atlas.Disputes
import Atlas.Evolution
import Atlas.MergedEvents
import Atlas.Reopening
import Atlas.Statements
import Atlas.Concurrent
import Atlas.ConcurrentLaws
import Atlas.ConflictLog
import Atlas.Conservation
import Atlas.FirstReports
import Atlas.Replays
import Atlas.EditorialRaces
import Atlas.ReviewedContent
import Atlas.IndexFacets
import Atlas.ReviewRaces
import Atlas.TenantRuns
import Atlas.Rollups
import Atlas.EchoRuns
import Atlas.EchoSignals
import Atlas.EchoDelivery
import Atlas.ArgusReviews
import Atlas.NtsbPrecedents
import Atlas.NtsbReplays
import Atlas.Timelines
import Atlas.Forest
import Atlas.Freshness
import Atlas.HermesChanges
import Atlas.ReconcilerRaces
import Atlas.CorpusSync
import Atlas.MatchDecisions
import Atlas.HashableForms
import Atlas.ChangedFields
import Atlas.OrionRuns
import Atlas.NlSpans
import Atlas.Slugs
import Atlas.IdentityDates
import Atlas.AliasLog
import Atlas.Reindex
import Atlas.EchoMatcher
import Atlas.IdenticalValues
import Atlas.CodesAndNumbers
import Atlas.HistoricalRegistrations
import Atlas.ExternalClaims
import Atlas.EadmsTotality
import Atlas.OrionNames
import Atlas.KeysetPages
import Atlas.SequenceReviews
import Atlas.MapClusters
import Atlas.RelatedEvents
import Atlas.UrlRoundTrips
import Atlas.RateLimit
import Atlas.HermesFetch
import Atlas.ApiKeys
import Atlas.Causality
import Atlas.Rebuild
import Atlas.TenantIsolation
import Atlas.OverlayHistories
import Atlas.ArgusPasses
import Atlas.Lib.Dialogues
import Atlas.Middleware
import Atlas.PublicEvidence
