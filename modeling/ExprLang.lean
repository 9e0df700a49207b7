import ExprLang.Text.Letter
import ExprLang.Text.Digit
import ExprLang.Text.Quoted
import ExprLang.Text.Utf8
import ExprLang.Text.Line
import ExprLang.Number.Shortest
import ExprLang.Scanner.Operation
import ExprLang.Expr.Printer
import ExprLang.Expr.Census
import ExprLang.Parser.Operation
import ExprLang.Main
import ExprLang.Proofs.Lexical.Below
import ExprLang.Proofs.Expr.Legible
import ExprLang.Proofs.Parser.Layout
import ExprLang.Proofs.Parser.Agreement
import ExprLang.Proofs.Shell.Commands
import ExprLang.Proofs.Shell.Memory
import ExprLang.Proofs.Parser.LastLine
import ExprLang.Proofs.Number.RoundTrip
import ExprLang.Proofs.Parser.RoundTrip
import ExprLang.Proofs.Lexical.Requests
import ExprLang.Proofs.Lexical.Resumption
