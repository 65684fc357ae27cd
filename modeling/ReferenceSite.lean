import ReferenceSite.Main
import ReferenceSite.Proofs.Generation.Rerun
import ReferenceSite.Proofs.Cache.Recency
import ReferenceSite.Proofs.Cache.Requests
import ReferenceSite.Proofs.Model.Source
import ReferenceSite.Proofs.Owners
import ReferenceSite.Proofs.Generation.Navigation
import ReferenceSite.Proofs.Json.Numbers
import ReferenceSite.Proofs.Json.Reread
import ReferenceSite.Proofs.Manifest.Reread
import ReferenceSite.Proofs.Address.Safety
import ReferenceSite.Proofs.Address.Reference
import ReferenceSite.Proofs.Generation.References
import ReferenceSite.Proofs.Generation.Obstruction
import ReferenceSite.Proofs.Generation.Links
import ReferenceSite.Proofs.Resolution.Naming
import ReferenceSite.Proofs.Resolution.Completeness
import ReferenceSite.Proofs.Navigation.Order
import ReferenceSite.Proofs.Manifest.Slots
import ReferenceSite.Proofs.Manifest.Atomic
import ReferenceSite.Proofs.Cache.Inclusion
import ReferenceSite.Proofs.Generation.Independence
import ReferenceSite.Proofs.Reference
import ReferenceSite.Proofs.Docs
import ReferenceSite.Proofs.Model.Layout
import ReferenceSite.Proofs.Generation.Coverage
import ReferenceSite.Proofs.Generation.Unnamed
import ReferenceSite.Proofs.Page.Rows
import ReferenceSite.Proofs.Page.Layout
import ReferenceSite.Proofs.Navigation.Reread
import ReferenceSite.Proofs.Configuration
import ReferenceSite.Proofs.Mdx.Spans
import ReferenceSite.Proofs.Generation.Collision
import ReferenceSite.Proofs.Address.Stability
import ReferenceSite.Proofs.Generation.Titles
import ReferenceSite.Proofs.Configuration.PageBase
import ReferenceSite.Proofs.Environment.Pieces
import ReferenceSite.Proofs.Environment.References
import ReferenceSite.Proofs.Cache.Canonical
import ReferenceSite.Proofs.Generation.Sections
import ReferenceSite.Proofs.Navigation.Nesting
import ReferenceSite.Proofs.Navigation.Reachability
import ReferenceSite.Proofs.Cache.Coherence
import ReferenceSite.Proofs.Model.Arborescence
import ReferenceSite.Proofs.Page.Description
