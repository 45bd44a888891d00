import ShapeCheck.Text.Ranges
import ShapeCheck.Text.Blank
import ShapeCheck.Text.DecimalDigit
import ShapeCheck.Text.Printable
import ShapeCheck.Text.LowerCase
import ShapeCheck.Text.Pattern
import ShapeCheck.Text.Position
import ShapeCheck.Text.Quoted
import ShapeCheck.Number.Shortest
import ShapeCheck.Calendar.Text
import ShapeCheck.Calendar.Reader
import ShapeCheck.Value.Order
import ShapeCheck.Value.Spelling
import ShapeCheck.Value.Equality
import ShapeCheck.Scalar.Basic
import ShapeCheck.Schema.Parser
import ShapeCheck.Schema.Recursion
import ShapeCheck.Schema.Resolve
import ShapeCheck.Check
import ShapeCheck.Outcome
import ShapeCheck.Options
import ShapeCheck.Session
import ShapeCheck.DirectCheck
import ShapeCheck.Options.File
import ShapeCheck.Raise
import ShapeCheck.Proofs.SchemaText.Spacing
import ShapeCheck.Proofs.SchemaText.Grammar
import ShapeCheck.Proofs.Schema.Resolution
import ShapeCheck.Proofs.Schema.Compiled
import ShapeCheck.Proofs.Schema.Recursion
import ShapeCheck.Proofs.Schema.Permutation
import ShapeCheck.Proofs.Check.Place
import ShapeCheck.Proofs.Check.Path
import ShapeCheck.Proofs.Session.Recording
import ShapeCheck.Proofs.Check.Totality
import ShapeCheck.Proofs.Check.Coverage
import ShapeCheck.Proofs.Check.Message
import ShapeCheck.Proofs.Session.Invariant
import ShapeCheck.Proofs.Session.LastWrite
import ShapeCheck.Proofs.Options.Acceptance
import ShapeCheck.Proofs.Options.Merge
import ShapeCheck.Proofs.Session.Isolation
import ShapeCheck.Proofs.Check.Entrance
import ShapeCheck.Proofs.Check.Nesting
import ShapeCheck.Proofs.Registry.Runs
import ShapeCheck.Proofs.Check.Depth
import ShapeCheck.Proofs.Check.Around
import ShapeCheck.Proofs.SchemaText.Split
import ShapeCheck.Proofs.Session.Construction
import ShapeCheck.Proofs.SchemaText.Stage
import ShapeCheck.Proofs.SchemaText.Offender
import ShapeCheck.Proofs.SchemaText.Places
import ShapeCheck.Proofs.SchemaText.Repeats
import ShapeCheck.Proofs.Schema.Search
import ShapeCheck.Proofs.Check.PathLength
import ShapeCheck.Proofs.Check.Sharing
import ShapeCheck.Proofs.Session.Cleaning
import ShapeCheck.Proofs.Check.Edit
import ShapeCheck.Proofs.Check.Forest
import ShapeCheck.Proofs.Session.Refusal
import ShapeCheck.Proofs.Session.Messages
import ShapeCheck.Proofs.Session.Wording
import ShapeCheck.Proofs.Text.Pattern
import ShapeCheck.Proofs.Text.Classes
import ShapeCheck.Proofs.Calendar.Week
import ShapeCheck.Proofs.Calendar.Bytes
import ShapeCheck.Proofs.Calendar.Validity
import ShapeCheck.Proofs.Calendar.Scan
import ShapeCheck.Proofs.Calendar.IsoForm
import ShapeCheck.Proofs.Calendar.Overlap
import ShapeCheck.Proofs.Calendar.RoundTrip
import ShapeCheck.Proofs.Calendar.Slashed
import ShapeCheck.Proofs.Scalar.Email
import ShapeCheck.Proofs.Scalar.Phone
