import Chord.Command.Arguments
import Chord.Command.Basic
import Chord.Command.Console
import Chord.Config
import Chord.Decimal.Binary
import Chord.Decimal.Fixed
import Chord.Decimal.Layout
import Chord.Decimal.Read
import Chord.Decimal.Shortest
import Chord.Desk
import Chord.Engine.Basic
import Chord.Engine.Bundle
import Chord.Engine.Mode
import Chord.Eval.Expr
import Chord.Eval.Machine
import Chord.Eval.Scope
import Chord.Eval.Session
import Chord.Eval.Stmt
import Chord.Fault
import Chord.Host.Basic
import Chord.Host.Desktop
import Chord.Hotkey
import Chord.Journal
import Chord.Json.Basic
import Chord.Json.Read
import Chord.Json.Write
import Chord.Library.Registry
import Chord.Library.Standard
import Chord.Main
import Chord.Manual
import Chord.Native.Code
import Chord.Native.Exec
import Chord.Native.Frame
import Chord.Native.Keyboard
import Chord.Native.Lower
import Chord.Proofs.Decimal.Binary
import Chord.Proofs.Decimal.Layout
import Chord.Proofs.Decimal.Shortest
import Chord.Proofs.Engine.Announcements
import Chord.Proofs.Engine.Bundles
import Chord.Proofs.Engine.FailedLoads
import Chord.Proofs.Engine.Increments
import Chord.Proofs.Engine.Invariants
import Chord.Proofs.Engine.Listings
import Chord.Proofs.Engine.Modes
import Chord.Proofs.Eval.Act
import Chord.Proofs.Eval.Binds
import Chord.Proofs.Eval.Bounds
import Chord.Proofs.Eval.CallDepth
import Chord.Proofs.Eval.Footprint
import Chord.Proofs.Eval.Invariants
import Chord.Proofs.Eval.Isolation
import Chord.Proofs.Eval.Parallel
import Chord.Proofs.Eval.Pipelines
import Chord.Proofs.Eval.Straight
import Chord.Proofs.Hotkey.Canonical
import Chord.Proofs.Hotkey.Lookup
import Chord.Proofs.Hotkey.Plain
import Chord.Proofs.Hotkey.Rereading
import Chord.Proofs.Hotkey.Spelling
import Chord.Proofs.Json.RoundTrip
import Chord.Proofs.Library
import Chord.Proofs.Library.Registrations
import Chord.Proofs.Native.Constructs
import Chord.Proofs.Native.Equivalence
import Chord.Proofs.Native.Faults
import Chord.Proofs.Native.Forecast
import Chord.Proofs.Native.Handles
import Chord.Proofs.Native.Headings
import Chord.Proofs.Native.Invariants
import Chord.Proofs.Native.Link
import Chord.Proofs.Native.Lowering
import Chord.Proofs.Native.Reports
import Chord.Proofs.Native.Unresolved
import Chord.Proofs.Script.Blame
import Chord.Proofs.Script.Commands
import Chord.Proofs.Script.Concatenation
import Chord.Proofs.Script.Cursor
import Chord.Proofs.Script.Failure
import Chord.Proofs.Script.FirstError
import Chord.Proofs.Script.Grammar
import Chord.Proofs.Script.Layout
import Chord.Proofs.Script.Lookahead
import Chord.Proofs.Script.Reading
import Chord.Proofs.Script.Renumbering
import Chord.Proofs.Script.Shapes
import Chord.Proofs.Script.Spellings
import Chord.Proofs.Script.Tracking
import Chord.Proofs.Script.UniqueReading
import Chord.Proofs.Script.Writing
import Chord.Proofs.Store
import Chord.Proofs.Table
import Chord.Proofs.Text.Case
import Chord.Proofs.Text.Quoted
import Chord.Proofs.Text.Words
import Chord.Proofs.Token.Comments
import Chord.Proofs.Token.Extents
import Chord.Proofs.Token.Joining
import Chord.Proofs.Token.Lexis
import Chord.Proofs.Token.Splitting
import Chord.Proofs.Token.Wording
import Chord.Proofs.Value.Integers
import Chord.Script.Basic
import Chord.Script.Operator
import Chord.Script.Parse
import Chord.Script.Render
import Chord.Script.Source
import Chord.Store
import Chord.Table
import Chord.Text.Blank
import Chord.Text.Case
import Chord.Text.CaseTable
import Chord.Text.Quoted
import Chord.Text.Search
import Chord.Text.ShownTable
import Chord.Token.Basic
import Chord.Token.Scan
import Chord.Toml.Basic
import Chord.Toml.Read
import Chord.Toml.Write
import Chord.Value.Arithmetic
import Chord.Value.Basic
import Chord.Value.Convert
