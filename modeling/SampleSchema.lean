import SampleSchema.Builder
import SampleSchema.Standard
import SampleSchema.Deployment
import SampleSchema.Main
import SampleSchema.Proofs.Outcomes
import SampleSchema.Proofs.Assembly
import SampleSchema.Proofs.Observation
import SampleSchema.Proofs.Summary
import SampleSchema.Proofs.SummaryMerge
import SampleSchema.Proofs.DistinctNames
import SampleSchema.Proofs.Inferred
import SampleSchema.Proofs.Reachable
import SampleSchema.Proofs.Runs
import SampleSchema.Proofs.Acceptance
import SampleSchema.Proofs.MergedFields
import SampleSchema.Proofs.Variants
import SampleSchema.Proofs.WellFormed
import SampleSchema.Proofs.Invariant
import SampleSchema.Proofs.StructuralEquality
import SampleSchema.Proofs.Widening
import SampleSchema.Proofs.WideningOrder
import SampleSchema.Proofs.LeastUpperBound
import SampleSchema.Proofs.MergeCongruence
import SampleSchema.Proofs.FieldOrder
import SampleSchema.Proofs.StructuralIdentity
import SampleSchema.Proofs.Rearrangement
import SampleSchema.Proofs.OrderIndependence
import SampleSchema.Proofs.Unions
import SampleSchema.Proofs.MergeConflicts
import SampleSchema.Proofs.Positions
import SampleSchema.Proofs.Nullability
import SampleSchema.Proofs.Clashes
import SampleSchema.Proofs.MergeRecords
import SampleSchema.Proofs.Idempotence
import SampleSchema.Proofs.Diagnostics
import SampleSchema.Proofs.Objects
import SampleSchema.Proofs.Occurrences
import SampleSchema.Proofs.NamingSteps
import SampleSchema.Proofs.Definitions
import SampleSchema.Proofs.Expansion
import SampleSchema.Proofs.RootName
import SampleSchema.Proofs.Identifiers
import SampleSchema.Proofs.Singulars
import SampleSchema.Proofs.WordPaths
import SampleSchema.Proofs.Collisions
import SampleSchema.Proofs.GivenNames
import SampleSchema.Proofs.Feeding
import SampleSchema.Proofs.JsonCharacters
import SampleSchema.Proofs.JsonTexts
import SampleSchema.Proofs.JsonLines
import SampleSchema.Proofs.RunHistory
import SampleSchema.Proofs.Twins
import SampleSchema.Proofs.ReadRequests
import SampleSchema.Proofs.EntryPoints
import SampleSchema.Proofs.Deployments
import SampleSchema.Proofs.StoredRows
import SampleSchema.Proofs.Faults
import SampleSchema.Proofs.YamlReaders
import SampleSchema.Proofs.YamlScalars
import SampleSchema.Proofs.YamlTokens
import SampleSchema.Proofs.YamlEvents
import SampleSchema.Proofs.YamlNodes
import SampleSchema.Proofs.YamlMerging
import SampleSchema.Proofs.YamlValues
import SampleSchema.Proofs.Decoding
import SampleSchema.Proofs.Layouts
import SampleSchema.Proofs.Coarsening
import SampleSchema.Proofs.RestrictedOptions
import SampleSchema.Proofs.Renderings
import SampleSchema.Proofs.Conversion
import SampleSchema.Proofs.UniformValues
import SampleSchema.Proofs.IsoTexts
import SampleSchema.Proofs.TableRows
import SampleSchema.Proofs.BadRows
import SampleSchema.Proofs.FlatTables
