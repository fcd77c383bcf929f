import WaveNotebook.Bench.Member
import WaveNotebook.Config.Document
import WaveNotebook.Report
import WaveNotebook.Signal.Dimensions
import WaveNotebook.Workspace.Basic
import WaveNotebook.Proofs.Config.Document
import WaveNotebook.Proofs.Grid.Algebra
import WaveNotebook.Proofs.Grid.Sound
import WaveNotebook.Proofs.Grid.Text
import WaveNotebook.Proofs.Kernel.Correlation
import WaveNotebook.Proofs.Kernel.Envelope
import WaveNotebook.Proofs.Kernel.Halves
import WaveNotebook.Proofs.Kernel.Sifting
import WaveNotebook.Proofs.Kernel.Statistic
import WaveNotebook.Proofs.Literal.Prefix
import WaveNotebook.Proofs.Literal.Reader
import WaveNotebook.Proofs.Literal.Room
import WaveNotebook.Proofs.Literal.Scan
import WaveNotebook.Proofs.Matrix.History
import WaveNotebook.Proofs.Method.Options
import WaveNotebook.Proofs.Method.Paired
import WaveNotebook.Proofs.Method.Standard
import WaveNotebook.Proofs.Method.Table
import WaveNotebook.Proofs.Scan.Balance
import WaveNotebook.Proofs.Scan.Paren
import WaveNotebook.Proofs.Scan.Span
import WaveNotebook.Proofs.Scan.Split
import WaveNotebook.Proofs.Scan.Strip
import WaveNotebook.Proofs.Signal.Cap
import WaveNotebook.Proofs.Signal.Statistics
import WaveNotebook.Proofs.Signal.Symmetry
import WaveNotebook.Proofs.Signal.Wavelet
import WaveNotebook.Proofs.Signal.Window
import WaveNotebook.Proofs.Value.Paired
import WaveNotebook.Proofs.Value.Text
import WaveNotebook.Proofs.Workspace.Brackets
import WaveNotebook.Proofs.Workspace.Call
import WaveNotebook.Proofs.Workspace.Comment
import WaveNotebook.Proofs.Workspace.Concat
import WaveNotebook.Proofs.Workspace.Expression
import WaveNotebook.Proofs.Workspace.Failure
import WaveNotebook.Proofs.Workspace.History
import WaveNotebook.Proofs.Workspace.Invariant
import WaveNotebook.Proofs.Workspace.LiteralArgument
import WaveNotebook.Proofs.Workspace.Nesting
import WaveNotebook.Proofs.Workspace.Number
import WaveNotebook.Proofs.Workspace.Overflow
import WaveNotebook.Proofs.Workspace.Paired
