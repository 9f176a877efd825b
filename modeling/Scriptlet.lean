import Scriptlet.Builtin.Basic
import Scriptlet.Builtin.Collection
import Scriptlet.Builtin.Scalar
import Scriptlet.Builtin.Standard
import Scriptlet.Command.Execute
import Scriptlet.Command.Flags
import Scriptlet.Command.Help
import Scriptlet.Command.Outcome
import Scriptlet.Eval.Node
import Scriptlet.Eval.Operator
import Scriptlet.Eval.Run
import Scriptlet.FileTree
import Scriptlet.Host
import Scriptlet.Log
import Scriptlet.Main
import Scriptlet.Parse.Diagnostic
import Scriptlet.Parse.Expr
import Scriptlet.Parse.Precedence
import Scriptlet.Parse.Program
import Scriptlet.Parse.State
import Scriptlet.Path
import Scriptlet.Proofs.Eval.Arithmetic
import Scriptlet.Proofs.Eval.Breaks
import Scriptlet.Proofs.Eval.Congruence
import Scriptlet.Proofs.Eval.Containment
import Scriptlet.Proofs.Eval.Discipline
import Scriptlet.Proofs.Eval.Frame
import Scriptlet.Proofs.Eval.Levels
import Scriptlet.Proofs.Eval.Lockstep
import Scriptlet.Proofs.Eval.LoopFree
import Scriptlet.Proofs.Eval.Naturality
import Scriptlet.Proofs.Eval.Raising
import Scriptlet.Proofs.Eval.Scoping
import Scriptlet.Proofs.Eval.Simulation
import Scriptlet.Proofs.Eval.Unused
import Scriptlet.Proofs.Grammar
import Scriptlet.Proofs.Parse.Audit
import Scriptlet.Proofs.Parse.Brackets
import Scriptlet.Proofs.Parse.CompleteForms
import Scriptlet.Proofs.Parse.Completeness
import Scriptlet.Proofs.Parse.GivingUp
import Scriptlet.Proofs.Parse.Joined
import Scriptlet.Proofs.Parse.Layout
import Scriptlet.Proofs.Parse.NestingLimit
import Scriptlet.Proofs.Parse.Openings
import Scriptlet.Proofs.Parse.Order
import Scriptlet.Proofs.Parse.Parallel
import Scriptlet.Proofs.Parse.Progress
import Scriptlet.Proofs.Parse.Reprint
import Scriptlet.Proofs.Parse.Soundness
import Scriptlet.Proofs.Parse.Termination
import Scriptlet.Proofs.Parse.Vigilance
import Scriptlet.Proofs.Parse.Written
import Scriptlet.Proofs.Repl.Agreement
import Scriptlet.Proofs.Repl.Completion
import Scriptlet.Proofs.Repl.Inputs
import Scriptlet.Proofs.Repl.LineBreaks
import Scriptlet.Proofs.Repl.Pending
import Scriptlet.Proofs.Session
import Scriptlet.Proofs.Settings.Load
import Scriptlet.Proofs.Text.Bytes
import Scriptlet.Proofs.Text.Pieces
import Scriptlet.Proofs.Text.Readable
import Scriptlet.Proofs.Token.Division
import Scriptlet.Proofs.Token.Escapes
import Scriptlet.Proofs.Token.Forms
import Scriptlet.Proofs.Token.Literal
import Scriptlet.Proofs.Token.Places
import Scriptlet.Proofs.Token.Positions
import Scriptlet.Proofs.Token.Stream
import Scriptlet.Proofs.Token.Verbatim
import Scriptlet.Proofs.Tree.Text
import Scriptlet.Proofs.Value.Entries
import Scriptlet.Proofs.Value.Equality
import Scriptlet.Proofs.Value.Faults
import Scriptlet.Proofs.Value.Inspect
import Scriptlet.Proofs.Value.Interchange
import Scriptlet.Proofs.Value.ReadBack
import Scriptlet.Proofs.Value.Tokens
import Scriptlet.Proofs.Value.Unambiguous
import Scriptlet.Proofs.Value.Views
import Scriptlet.Proofs.Value.Writes
import Scriptlet.Repl.Completion
import Scriptlet.Repl.Event
import Scriptlet.Repl.History
import Scriptlet.Repl.Loop
import Scriptlet.Repl.Pending
import Scriptlet.Repl.Perform
import Scriptlet.Report
import Scriptlet.Session
import Scriptlet.Settings.Basic
import Scriptlet.Settings.Decode
import Scriptlet.Settings.Load
import Scriptlet.Store
import Scriptlet.Text.Base64
import Scriptlet.Text.Blank
import Scriptlet.Text.Bytes
import Scriptlet.Text.Case
import Scriptlet.Text.CodeRanges
import Scriptlet.Text.Letter
import Scriptlet.Text.Lines
import Scriptlet.Text.Printable
import Scriptlet.Text.Quoted
import Scriptlet.Text.Split
import Scriptlet.Text.Utf8
import Scriptlet.Token.Basic
import Scriptlet.Token.Cursor
import Scriptlet.Token.Lexeme
import Scriptlet.Tree.Basic
import Scriptlet.Tree.Outline
import Scriptlet.Tree.Printer
import Scriptlet.Value.Basic
import Scriptlet.Value.Entries
import Scriptlet.Value.Equal
import Scriptlet.Value.Fault
import Scriptlet.Value.Inspect
import Scriptlet.Yaml.Block
import Scriptlet.Yaml.Cursor
import Scriptlet.Yaml.Fault
import Scriptlet.Yaml.Node
import Scriptlet.Yaml.Number
import Scriptlet.Yaml.Resolve
import Scriptlet.Yaml.Scalar
import Scriptlet.Yaml.Source
import Scriptlet.Yaml.Tag
import Scriptlet.Yaml.Timestamp
import Scriptlet.Yaml.Token
