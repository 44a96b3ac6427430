import DepLang.Decl.Printer
import DepLang.Script
import DepLang.Session
import DepLang.Proofs.Registry.Extends
import DepLang.Proofs.Term.Agree
import DepLang.Proofs.Reader.Failed
import DepLang.Proofs.Script.Abandoned
import DepLang.Proofs.Operators.Reader
import DepLang.Proofs.Reader.Fixities
import DepLang.Proofs.Reader.Joined
import DepLang.Proofs.Reader.Records
import DepLang.Proofs.Session.Ledger
import DepLang.Proofs.Printer.Roundtrip
import DepLang.Proofs.Reader.Prefix
import DepLang.Proofs.Reader.Layout
import DepLang.Proofs.Reader.Reprint
import DepLang.Proofs.Grammar.Exclusive
import DepLang.Proofs.Reader.Usable
import DepLang.Proofs.Reader.Context
import DepLang.Proofs.Reader.ReprintModule
import DepLang.Proofs.Lexer.Tiles
import DepLang.Proofs.Lexer.Laid
import DepLang.Proofs.Reader.WellFormed
import DepLang.Proofs.Reader.DataForms
import DepLang.Proofs.Implicit.Supply
import DepLang.Proofs.Reader.Spans
import DepLang.Proofs.Grammar.Descent
import DepLang.Proofs.Implicit.Generalise
import DepLang.Proofs.Implicit.Given
import DepLang.Proofs.Reader.Parameters
import DepLang.Proofs.Reader.Calls
import DepLang.Proofs.Session.Fixities
import DepLang.Proofs.Script.Flattened
import DepLang.Proofs.Script.Repeated
import DepLang.Proofs.Span.Lines
