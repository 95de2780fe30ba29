import CatalogQuery.Inspect.Catalog
import CatalogQuery.Inspect.Error
import CatalogQuery.Inspect.Plan
import CatalogQuery.Inspect.Query
import CatalogQuery.Inspect.State
import CatalogQuery.Main
import CatalogQuery.Proofs.AggregateAnswer
import CatalogQuery.Proofs.ChangingWalk
import CatalogQuery.Proofs.CompiledById
import CatalogQuery.Proofs.EnforcedRange
import CatalogQuery.Proofs.Reloads
import CatalogQuery.Proofs.SharedFingerprints
import CatalogQuery.Proofs.SingleUse
import CatalogQuery.Proofs.ValueIndependence
import CatalogQuery.Proofs.LockedReloads
import CatalogQuery.Proofs.FailedPages
import CatalogQuery.Proofs.IdleQueries
import CatalogQuery.Proofs.OffsetWalk
import CatalogQuery.Proofs.OutcomeCounters
import CatalogQuery.Proofs.PageTokens
import CatalogQuery.Proofs.FormulaReading
import CatalogQuery.Proofs.PageCondition
import CatalogQuery.Proofs.CarriedValue
import CatalogQuery.Proofs.CivilDate
import CatalogQuery.Proofs.TimestampText
import CatalogQuery.Proofs.TimestampBounds
import CatalogQuery.Proofs.ExactStore
import CatalogQuery.Proofs.LikeFilters
import CatalogQuery.Proofs.BetweenBounds
import CatalogQuery.Proofs.TimestampSpellings
import CatalogQuery.Proofs.SavedCatalog
import CatalogQuery.Proofs.SortedValues
import CatalogQuery.Proofs.LogLines
import CatalogQuery.Proofs.ReencodedPlans
import CatalogQuery.Proofs.FingerprintParts
