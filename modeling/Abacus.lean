import Abacus.Text.Position
import Abacus.Text.Identifier
import Abacus.Text.Cluster
import Abacus.Text.Quoted
import Abacus.Number.Arithmetic
import Abacus.Number.Decimal
import Abacus.Token.Lexer
import Abacus.Program.Parser
import Abacus.Fault
import Abacus.Operator
import Abacus.Builtin.Call
import Abacus.CommandLine
import Abacus.Main
import Abacus.Proofs.Grammar
import Abacus.Proofs.Precedence
import Abacus.Proofs.Shape
import Abacus.Proofs.ExpressionReading
import Abacus.Proofs.ProgramReading
import Abacus.Proofs.Binding
import Abacus.Proofs.Preservation
import Abacus.Proofs.Positions
import Abacus.Proofs.Frames
import Abacus.Proofs.Simulation
import Abacus.Proofs.Isolation
import Abacus.Proofs.Answers
import Abacus.Proofs.Broadcast
import Abacus.Proofs.Printer
import Abacus.Proofs.RoundTrip
import Abacus.Proofs.Layout
import Abacus.Proofs.Faults
import Abacus.Proofs.Points
import Abacus.Proofs.Propagation
import Abacus.Proofs.CallDepth
import Abacus.Proofs.Spelling
import Abacus.Proofs.Lexemes
import Abacus.Proofs.ErrorStages
import Abacus.Proofs.Joining
import Abacus.Proofs.Sinks
import Abacus.Proofs.Truncation
import Abacus.Proofs.Printing
import Abacus.Proofs.Naming
import Abacus.Proofs.Returning
import Abacus.Proofs.Termination
import Abacus.Proofs.Origin
import Abacus.Proofs.IntegerRange
import Abacus.Proofs.Rounding
import Abacus.Proofs.Median
import Abacus.Proofs.Counting
import Abacus.Proofs.Comparison
import Abacus.Proofs.Extremes
import Abacus.Proofs.Plurality
import Abacus.Proofs.OrderStatistic
import Abacus.Proofs.Equality
import Abacus.Proofs.Commutation
import Abacus.Proofs.Summation
import Abacus.Proofs.Quoting
import Abacus.Proofs.Rendering
import Abacus.Proofs.Lines
import Abacus.Proofs.Printed
import Abacus.Proofs.Chunks
import Abacus.Proofs.Cursor
import Abacus.Proofs.Climbing
import Abacus.Proofs.ExpressionWalking
import Abacus.Proofs.ProgramWalking
import Abacus.Proofs.LargerBudget
import Abacus.Proofs.Progress
