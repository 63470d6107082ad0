import IntLang.Main
import IntLang.Scope.Session
import IntLang.Scope.Indexed
import IntLang.Proofs.Code.Correctness
import IntLang.Proofs.Scope.Rule
import IntLang.Proofs.Tree.Prefix
import IntLang.Proofs.Code.Stack
import IntLang.Proofs.Code.Symbols
import IntLang.Proofs.Report.Located
import IntLang.Proofs.Tree.Relabel
import IntLang.Proofs.Scope.Relabel
import IntLang.Proofs.Code.Renaming
import IntLang.Proofs.Code.Extension
import IntLang.Proofs.Code.Spacing
import IntLang.Proofs.Scope.Runs
import IntLang.Proofs.Scope.Indexed
import IntLang.Proofs.Scope.Binding
import IntLang.Proofs.Text.Numerals
import IntLang.Proofs.Tree.Writing
import IntLang.Proofs.Scope.Frames
import IntLang.Proofs.Code.Output
import IntLang.Proofs.Code.Refusal
import IntLang.Proofs.Token.Failures
import IntLang.Proofs.Token.Pushback
import IntLang.Proofs.Code.Literals
import IntLang.Proofs.Token.Spelling
import IntLang.Proofs.Tree.Dumping
import IntLang.Proofs.Scope.Geometry
