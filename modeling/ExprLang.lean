import ExprLang.Expr.Node
import ExprLang.Main
import ExprLang.Proofs.Grammar.Passing
import ExprLang.Proofs.Grammar.Room
import ExprLang.Proofs.Lexical.Tokenization
import ExprLang.Proofs.Grammar.Soundness
import ExprLang.Proofs.Grammar.Parsed
import ExprLang.Proofs.Grammar.Refusal
import ExprLang.Proofs.Lexical.Separated
import ExprLang.Proofs.Lexical.Location
import ExprLang.Proofs.Nesting.Bound
import ExprLang.Proofs.Nesting.Deepest
import ExprLang.Proofs.Environment.Bindings
import ExprLang.Proofs.Evaluation.Order
import ExprLang.Proofs.Evaluation.Outcome
import ExprLang.Proofs.Evaluation.Judgement
import ExprLang.Proofs.Evaluation.Writes
import ExprLang.Proofs.Evaluation.Frame
import ExprLang.Proofs.Host.Contents
import ExprLang.Proofs.Host.Display
import ExprLang.Proofs.Evaluation.Flow
import ExprLang.Proofs.Evaluation.Replacement
import ExprLang.Proofs.Evaluation.Builtins
import ExprLang.Proofs.Evaluation.Confinement
import ExprLang.Proofs.Evaluation.ShortCircuit
import ExprLang.Proofs.Evaluation.Sources
import ExprLang.Proofs.Evaluation.NestedRuns
import ExprLang.Proofs.Environment.Constants
import ExprLang.Proofs.Evaluation.Literals
import ExprLang.Proofs.Evaluation.Errors
import ExprLang.Proofs.Evaluation.Agreement
import ExprLang.Proofs.Grammar.Spacing
import ExprLang.Proofs.Grammar.ViablePrefix
import ExprLang.Proofs.Printing.Display
import ExprLang.Proofs.Interchange.Decoding
import ExprLang.Proofs.Lexical.Tiling
import ExprLang.Proofs.Environment.Nesting
import ExprLang.Proofs.CommandLine.Outcome
import ExprLang.Proofs.Grammar.Calls
import ExprLang.Proofs.Evaluation.Coherence
import ExprLang.Proofs.Evaluation.Integers
import ExprLang.Proofs.Evaluation.Chains
import ExprLang.Proofs.Evaluation.Storing
import ExprLang.Proofs.Evaluation.Steps
import ExprLang.Proofs.Evaluation.Compound
import ExprLang.Proofs.Host.Sharing
import ExprLang.Proofs.Environment.Assignment
import ExprLang.Proofs.Evaluation.LiteralTexts
import ExprLang.Proofs.Host.Calls
import ExprLang.Proofs.Evaluation.IntegerTexts
import ExprLang.Proofs.Evaluation.Groups
import ExprLang.Proofs.Lexical.Tail
import ExprLang.Proofs.Tree.Owners
import ExprLang.Proofs.Host.Behaviour
