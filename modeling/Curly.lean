import Curly.Main
import Curly.Tree.Cursor
import Curly.Proofs.Text.Offset
import Curly.Proofs.Text.LineTable
import Curly.Proofs.Text.Lookup
import Curly.Proofs.Text.Lossless
import Curly.Proofs.Text.LineEnds
import Curly.Proofs.Token.Lexeme
import Curly.Proofs.Token.Next
import Curly.Proofs.Token.LongestMatch
import Curly.Proofs.Token.Tiling
import Curly.Proofs.Tree.Grammar
import Curly.Proofs.Tree.Reading
import Curly.Proofs.Tree.Derivation
import Curly.Proofs.Tree.Parsing
import Curly.Proofs.Layout.Printer
import Curly.Proofs.Layout.Indent
import Curly.Proofs.Token.Piece
import Curly.Proofs.Tree.Legal
import Curly.Proofs.Layout.Printed
import Curly.Proofs.Layout.Spelling
import Curly.Proofs.Layout.Relexing
import Curly.Proofs.Tree.Shape
import Curly.Proofs.Layout.Reparsing
import Curly.Proofs.Tree.ArrowBody
import Curly.Proofs.Layout.RoundTrip
import Curly.Proofs.Tree.Move
import Curly.Proofs.Tree.Outcome
import Curly.Proofs.Tree.Image
import Curly.Proofs.Tree.Spacing
import Curly.Proofs.Token.Contiguous
import Curly.Proofs.Tree.Spans
import Curly.Proofs.Token.Seam
import Curly.Proofs.Token.Joined
import Curly.Proofs.Layout.Joining
import Curly.Proofs.Tree.Lookahead
import Curly.Proofs.Tree.Completion
import Curly.Proofs.Tree.CorrectPrefix
import Curly.Proofs.Tree.Fault
import Curly.Proofs.Token.LineCut
import Curly.Proofs.Tree.Balance
import Curly.Proofs.Session.Completeness
import Curly.Proofs.Layout.Depth
import Curly.Proofs.Layout.Lines
import Curly.Proofs.Layout.Unambiguous
import Curly.Proofs.Token.Spaced
import Curly.Proofs.Token.Unplaced
import Curly.Proofs.Token.LineEnds
import Curly.Proofs.Tree.Unplaced
import Curly.Proofs.Tree.LineEnds
import Curly.Proofs.Session.Parts
import Curly.Proofs.Session.Reading
import Curly.Proofs.Session.Shown
import Curly.Proofs.Session.Partition
import Curly.Proofs.Session.LineEnds
import Curly.Proofs.Host.Leads
import Curly.Proofs.Host.Streams
import Curly.Proofs.Machine.Streams
import Curly.Proofs.Command.Session
import Curly.Proofs.Command.Batch
import Curly.Proofs.Command.Retyping
import Curly.Proofs.Token.Fault
import Curly.Proofs.Diagnostic.Marks
import Curly.Proofs.Diagnostic.Errors
import Curly.Proofs.Tree.Stripped
import Curly.Proofs.Tree.EndOfInput
import Curly.Proofs.Tree.WellFormed
import Curly.Proofs.Token.Stepwise
import Curly.Proofs.Tree.Progress
import Curly.Proofs.Tree.Stepping
import Curly.Proofs.Settings.Document
import Curly.Proofs.Settings.Programs
import Curly.Proofs.Service.Settings
import Curly.Proofs.Host.View
import Curly.Proofs.Machine.Directory
import Curly.Proofs.Command.Telling
import Curly.Proofs.Command.Formatting
