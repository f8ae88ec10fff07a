import Scriptling.Main
import Scriptling.Proofs.Grammar.SyntaxErrors
import Scriptling.Proofs.Interpreter.Channels
import Scriptling.Proofs.Interpreter.Hints
import Scriptling.Proofs.Interpreter.History
import Scriptling.Proofs.Interpreter.InTurn
import Scriptling.Proofs.Interpreter.Integers
import Scriptling.Proofs.Interpreter.Jumps
import Scriptling.Proofs.Interpreter.Kinds
import Scriptling.Proofs.Interpreter.Layout
import Scriptling.Proofs.Interpreter.Loops
import Scriptling.Proofs.Interpreter.Noninterference
import Scriptling.Proofs.Interpreter.Origins
import Scriptling.Proofs.Shell.Account
import Scriptling.Proofs.Source.Concatenation
import Scriptling.Proofs.Source.Insertion
import Scriptling.Proofs.Source.Places
import Scriptling.Proofs.Syntax.Image
import Scriptling.Proofs.Syntax.RoundTrip
import Scriptling.Proofs.Syntax.Spans
import Scriptling.Proofs.Text.EditTable
import Scriptling.Proofs.Token.Failures
import Scriptling.Proofs.Token.MaximalMunch
import Scriptling.Proofs.Token.RoundTrip
import Scriptling.Proofs.Value.Arithmetic
import Scriptling.Proofs.Value.Position
import Scriptling.Proofs.Value.Substring
