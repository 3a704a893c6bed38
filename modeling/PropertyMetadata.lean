import PropertyMetadata.Graph.Builder
import PropertyMetadata.GraphMl.Writer
import PropertyMetadata.Main
import PropertyMetadata.Table
import PropertyMetadata.Proofs.Circles
import PropertyMetadata.Proofs.Files.Roots
import PropertyMetadata.Proofs.Files.Snapshots
import PropertyMetadata.Proofs.Graph.Loading
import PropertyMetadata.Proofs.Members
import PropertyMetadata.Proofs.NormalForm
import PropertyMetadata.Proofs.Layers
import PropertyMetadata.Proofs.Graph.EnumUnions
import PropertyMetadata.Proofs.Graph.Regular
import PropertyMetadata.Proofs.Graph.Reordering
import PropertyMetadata.Proofs.Graph.Locality
import PropertyMetadata.Proofs.Graph.Optional
import PropertyMetadata.Proofs.Graph.Ordering
import PropertyMetadata.Proofs.Graph.Permutation
import PropertyMetadata.Proofs.Graph.Questions
import PropertyMetadata.Proofs.Graph.Safety
import PropertyMetadata.Proofs.Graph.Silence
import PropertyMetadata.Proofs.Graph.Symbols
import PropertyMetadata.Proofs.Building.Acceptance
import PropertyMetadata.Proofs.Building.Answers
import PropertyMetadata.Proofs.Building.Faithful
import PropertyMetadata.Proofs.Building.Freshness
import PropertyMetadata.Proofs.Expression.Basic
import PropertyMetadata.Proofs.Expression.Closed
import PropertyMetadata.Proofs.Expression.Meaning
import PropertyMetadata.Proofs.Specifier.Markers
import PropertyMetadata.Proofs.Specifier.Nesting
import PropertyMetadata.Proofs.Specifier.Packages
import PropertyMetadata.Proofs.Specifier.Places
import PropertyMetadata.Proofs.Specifier.Relative
import PropertyMetadata.Proofs.Specifier.Rewriting
import PropertyMetadata.Proofs.Scan.Findings
import PropertyMetadata.Proofs.Scan.Fields
import PropertyMetadata.Proofs.Scan.Reports
import PropertyMetadata.Proofs.Scan.Decorations
import PropertyMetadata.Proofs.Scan.Keys
import PropertyMetadata.Proofs.Sessions
import PropertyMetadata.Proofs.Searches
import PropertyMetadata.Proofs.Saving
