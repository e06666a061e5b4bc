import SchemaPage.Main
import SchemaPage.Proofs.Page.Outline
import SchemaPage.Proofs.Source.Kept
import SchemaPage.Proofs.Page.Alike
import SchemaPage.Proofs.Schema.Linked
import SchemaPage.Proofs.Page.Limited
import SchemaPage.Proofs.Page.Tolerance
import SchemaPage.Proofs.Page.Imports
import SchemaPage.Proofs.Page.RowOrder
import SchemaPage.Proofs.Text.Clean
import SchemaPage.Proofs.Page.Grammar
import SchemaPage.Proofs.Page.Nesting
import SchemaPage.Proofs.Page.Groups
import SchemaPage.Proofs.Page.Panes
import SchemaPage.Proofs.Page.Distinct
import SchemaPage.Proofs.Schema.Matched
import SchemaPage.Proofs.Source.Seen
import SchemaPage.Proofs.Schema.Chosen
import SchemaPage.Proofs.Source.Lenient
import SchemaPage.Proofs.Source.Agreed
import SchemaPage.Proofs.Text.Bytes
import SchemaPage.Proofs.Graph.Canonical
import SchemaPage.Proofs.Schema.Members
import SchemaPage.Proofs.Files.Tree
import SchemaPage.Proofs.Schema.Maps
import SchemaPage.Proofs.Files.Locate
import SchemaPage.Proofs.Files.Changes
import SchemaPage.Proofs.Run
import SchemaPage.Proofs.Graph.Scoping
import SchemaPage.Proofs.Source.Breadth
import SchemaPage.Proofs.Schema.Flattened
import SchemaPage.Proofs.Graph.Listing
import SchemaPage.Proofs.Page.Slug
import SchemaPage.Proofs.Page.Coincidence
import SchemaPage.Proofs.Files.Detour
import SchemaPage.Proofs.Source.OwnedRoot
import SchemaPage.Proofs.Schema.Sorted
import SchemaPage.Proofs.Page.Comments
import SchemaPage.Proofs.Schema.Nested
import SchemaPage.Proofs.Page.Subblocks
import SchemaPage.Proofs.Files.Below
import SchemaPage.Proofs.Source.Served
import SchemaPage.Proofs.Page.Subblocks
