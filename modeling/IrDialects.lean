import IrDialects.Document.Expression
import IrDialects.Json.Floating
import IrDialects.Main
import IrDialects.Naming.Interner
import IrDialects.Sample.Chain
import IrDialects.Sample.Ledger
import IrDialects.Scenario.Load
import IrDialects.Scenario.Run
import IrDialects.Traverse.Rules
import IrDialects.Proofs.Number.Binary64
import IrDialects.Proofs.Number.Shortest
import IrDialects.Proofs.Json.Content
import IrDialects.Proofs.Json.NumberText
import IrDialects.Proofs.Text.Utf8
import IrDialects.Proofs.Text.Units
import IrDialects.Proofs.Json.StringText
import IrDialects.Proofs.Json.RoundTrip
import IrDialects.Proofs.Json.Image
import IrDialects.Proofs.Json.Inverse
import IrDialects.Proofs.Wire.Decoding
import IrDialects.Proofs.Wire.WholeNumber
import IrDialects.Proofs.Tree.Conditions
import IrDialects.Proofs.Wire.Tag
import IrDialects.Proofs.Wire.Places
import IrDialects.Proofs.Classic.Parts
import IrDialects.Proofs.Classic.Expression
import IrDialects.Proofs.Classic.Value
import IrDialects.Proofs.Classic.Document
import IrDialects.Proofs.Classic.Places
import IrDialects.Proofs.V4.Attributes
import IrDialects.Proofs.Classic.RoundTrip
import IrDialects.Proofs.Tree.Replacement
import IrDialects.Proofs.Classic.Image
import IrDialects.Proofs.Classic.Content
import IrDialects.Proofs.Naming.Canonical
import IrDialects.Proofs.Naming.Rendering
import IrDialects.Proofs.V4.Node
import IrDialects.Proofs.V4.Parts
import IrDialects.Proofs.V4.Expression
import IrDialects.Proofs.V4.Value
import IrDialects.Proofs.V4.Document
import IrDialects.Proofs.V4.Places
import IrDialects.Proofs.V4.Agreement
import IrDialects.Proofs.V4.Modes
import IrDialects.Proofs.V4.Image
import IrDialects.Proofs.V4.DocumentImage
import IrDialects.Proofs.Document.Conversion
import IrDialects.Proofs.Document.Reading
import IrDialects.Proofs.Tree.Nesting
import IrDialects.Proofs.V4.Respelling
import IrDialects.Proofs.V4.RoundTrip
import IrDialects.Proofs.V4.Siblings
import IrDialects.Proofs.Document.Migration
import IrDialects.Proofs.Document.Normalization
import IrDialects.Proofs.Traverse.Rebuilding
import IrDialects.Proofs.Traverse.Asking
import IrDialects.Proofs.Tree.Labels
import IrDialects.Proofs.Document.Stability
import IrDialects.Proofs.Json.Canonical
import IrDialects.Proofs.Json.Rearrangement
import IrDialects.Proofs.Json.CanonicalText
import IrDialects.Proofs.Document.Fingerprint
import IrDialects.Proofs.Document.Detection
import IrDialects.Proofs.Document.Locations
import IrDialects.Proofs.Document.Writing
import IrDialects.Proofs.Command.Exit
import IrDialects.Proofs.Classic.Grammar
import IrDialects.Proofs.Classic.Acceptance
import IrDialects.Proofs.V4.Spelling
import IrDialects.Proofs.V4.SpelledParts
import IrDialects.Proofs.V4.Leniency
import IrDialects.Proofs.Document.Classification
import IrDialects.Proofs.Traverse.Mapping
import IrDialects.Proofs.Traverse.Pruning
import IrDialects.Proofs.Traverse.Positions
import IrDialects.Proofs.Naming.Interner
import IrDialects.Proofs.Wire.ForeignTag
import IrDialects.Proofs.Wire.Pointer
import IrDialects.Proofs.Wire.Context
import IrDialects.Proofs.Sample.Chain
import IrDialects.Proofs.Scenario.Validity
