import SchemaGraph.Api.Session
import SchemaGraph.Main
import SchemaGraph.Proofs.Clause.Misread
import SchemaGraph.Proofs.Config.Valid
import SchemaGraph.Proofs.Content.Slot
import SchemaGraph.Proofs.Declaration.KeyStyle
import SchemaGraph.Proofs.Declaration.Script
import SchemaGraph.Proofs.Declaration.Spelled
import SchemaGraph.Proofs.Diagram.Grid
import SchemaGraph.Proofs.Diagram.Lines
import SchemaGraph.Proofs.Diagram.Reading
import SchemaGraph.Proofs.Identifier.Quoting
import SchemaGraph.Proofs.Scan.Body
import SchemaGraph.Proofs.Scan.Pairs
import SchemaGraph.Proofs.Scan.Rejoin
import SchemaGraph.Proofs.Schema.Accounted
import SchemaGraph.Proofs.Schema.Claim
import SchemaGraph.Proofs.Schema.Explicit
import SchemaGraph.Proofs.Schema.Inferred
import SchemaGraph.Proofs.Schema.LetterCase
import SchemaGraph.Proofs.Schema.Named
import SchemaGraph.Proofs.Schema.Order
import SchemaGraph.Proofs.Schema.Rearranged
import SchemaGraph.Proofs.Schema.Redefinition
import SchemaGraph.Proofs.Schema.WellFormed
import SchemaGraph.Proofs.Source.Normal
import SchemaGraph.Proofs.Statement.Recognition
import SchemaGraph.Proofs.Surfaces
