import Sprig.Expr.Value
import Sprig.Main
import Sprig.Proofs.Evaluation.Continuation
import Sprig.Proofs.Evaluation.Limit
import Sprig.Proofs.Expr.Residue
import Sprig.Proofs.Format.Preservation
import Sprig.Proofs.Format.Content
import Sprig.Proofs.Session.Completeness
import Sprig.Service.Server
import Sprig.Proofs.Session.Collection
import Sprig.Proofs.Session.Typing
import Sprig.Proofs.Text.Scalar
import Sprig.Proofs.Text.Utf8
import Sprig.Proofs.Evaluation.Report
import Sprig.Proofs.Format.InPlace
import Sprig.Proofs.Evaluation.Timing
import Sprig.Proofs.Format.Modes
import Sprig.Proofs.Program.Formatting
import Sprig.Proofs.Service.Outcome
import Sprig.Proofs.Format.Grammar
import Sprig.Proofs.Options.Effective
import Sprig.Proofs.Token.Factorization
import Sprig.Proofs.Token.Calls
import Sprig.Proofs.Program.Lines
import Sprig.Proofs.Number.Digits
import Sprig.Proofs.Json.Number
import Sprig.Proofs.Json.String
import Sprig.Proofs.Json.RoundTrip
import Sprig.Proofs.Service.Answer
import Sprig.Proofs.Format.Stray
import Sprig.Proofs.Format.NormalForm
import Sprig.Proofs.Scope.History
import Sprig.Proofs.Script.Joining
import Sprig.Proofs.Format.Gaps
import Sprig.Proofs.Format.Failure
import Sprig.Proofs.Evaluation.Surplus
import Sprig.Proofs.Expr.Bindings
import Sprig.Proofs.Evaluation.Contract
