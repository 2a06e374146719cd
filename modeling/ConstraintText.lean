import ConstraintText.Command.Folder
import ConstraintText.Json.Decode
import ConstraintText.Main
import ConstraintText.Proofs.Outcome
import ConstraintText.Proofs.Grammar
import ConstraintText.Proofs.Meaning
import ConstraintText.Proofs.Steps
import ConstraintText.Proofs.Completeness
import ConstraintText.Proofs.System
import ConstraintText.Proofs.Soundness
import ConstraintText.Proofs.Drafts
import ConstraintText.Proofs.Simplification
import ConstraintText.Proofs.Interpretation
import ConstraintText.Proofs.Scanning
import ConstraintText.Proofs.Acceptance
import ConstraintText.Proofs.Lexemes
import ConstraintText.Proofs.DimensionNames
import ConstraintText.Proofs.FreshNames
import ConstraintText.Proofs.PrintedRows
import ConstraintText.Proofs.PrintedText
import ConstraintText.Proofs.NormalForms
import ConstraintText.Proofs.Printable
import ConstraintText.Proofs.RoundTrip
import ConstraintText.Proofs.PrintedMaps
import ConstraintText.Proofs.Edits
import ConstraintText.Proofs.EditRuns
import ConstraintText.Proofs.MatrixGrammar
import ConstraintText.Proofs.MatrixReading
import ConstraintText.Proofs.CheckedCounts
import ConstraintText.Proofs.Reachability
import ConstraintText.Proofs.CheckedSteps
import ConstraintText.Proofs.ScanningSafety
import ConstraintText.Proofs.FormulaSafety
import ConstraintText.Proofs.MatrixSafety
import ConstraintText.Proofs.Totality
import ConstraintText.Proofs.Items
import ConstraintText.Proofs.Places
import ConstraintText.Proofs.Sessions
import ConstraintText.Proofs.Diagnostics
import ConstraintText.Proofs.PrintedUnions
import ConstraintText.Proofs.Renaming
import ConstraintText.Proofs.Independence
import ConstraintText.Proofs.RowValues
import ConstraintText.Proofs.SimplifiedSystems
import ConstraintText.Proofs.ConsecutiveObjects
import ConstraintText.Proofs.TrailingText
import ConstraintText.Proofs.JsonObjects
import ConstraintText.Proofs.CanonicalRows
import ConstraintText.Proofs.ParameterLists
import ConstraintText.Proofs.NameRules
import ConstraintText.Proofs.LineBeginnings
import ConstraintText.Proofs.Cursors
import ConstraintText.Proofs.VectorLines
import ConstraintText.Proofs.VectorText
import ConstraintText.Proofs.VectorPlaces
import ConstraintText.Proofs.DefaultNames
import ConstraintText.Proofs.Respacing
import ConstraintText.Proofs.TupleErrors
import ConstraintText.Proofs.SpanJoins
