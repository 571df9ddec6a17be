import OptionTypes.Json.Reader
import OptionTypes.Declaration.Interface
import OptionTypes.Evaluation
import OptionTypes.Syntax.Dump
import OptionTypes.Erasure
import OptionTypes.Text.Utf8.Message
import OptionTypes.Registration
import OptionTypes.Yaml.Reader
import OptionTypes.Store.AtomicWrite
import OptionTypes.Config.Resolution
import OptionTypes.Retrieval
import OptionTypes.Store.DataDirectory
import OptionTypes.Syntax.Dialect
import OptionTypes.CommandLine
import OptionTypes.Main
import OptionTypes.Proofs.EndMark
import OptionTypes.Proofs.Outcome
import OptionTypes.Proofs.Wrapping
import OptionTypes.Proofs.LineBreaks
import OptionTypes.Proofs.Json.EndMark
import OptionTypes.Proofs.CommentEnd
import OptionTypes.Proofs.TypeLayer
import OptionTypes.Proofs.Utf8
import OptionTypes.Proofs.Erasure
import OptionTypes.Proofs.Preorder
import OptionTypes.Proofs.FirstRegistration
import OptionTypes.Proofs.Evaluation.Failure
import OptionTypes.Proofs.Comments.Evaluation
import OptionTypes.Proofs.Comments.Registration
import OptionTypes.Proofs.Evaluation.SymbolTable
import OptionTypes.Proofs.Unchanged
import OptionTypes.Proofs.Grammar.Literal
import OptionTypes.Proofs.Grammar.Callable
import OptionTypes.Proofs.Grammar.Expression
import OptionTypes.Proofs.Grammar.Statement
import OptionTypes.Proofs.Grammar.Program
import OptionTypes.Proofs.Escape
import OptionTypes.Proofs.Extraction
import OptionTypes.Proofs.Spelling
import OptionTypes.Proofs.Store.Files
import OptionTypes.Proofs.World
import OptionTypes.Proofs.Store.AtomicWrite
import OptionTypes.Proofs.Run.Stages
import OptionTypes.Proofs.Run.Endings
import OptionTypes.Proofs.Run.Output
import OptionTypes.Proofs.Lines
import OptionTypes.Proofs.Names
import OptionTypes.Proofs.Numeral
import OptionTypes.Proofs.Integer
import OptionTypes.Proofs.Json.Scalars
import OptionTypes.Proofs.Json.RoundTrip
import OptionTypes.Proofs.Json.OneLine
import OptionTypes.Proofs.Json.Compact
import OptionTypes.Proofs.Declaration.Outline
import OptionTypes.Proofs.Declaration.Blocks
import OptionTypes.Proofs.Declaration.Choices
import OptionTypes.Proofs.Declaration.Defaults
import OptionTypes.Proofs.Run.Agreement
import OptionTypes.Proofs.Store.Writes
import OptionTypes.Proofs.Members
import OptionTypes.Proofs.Evaluation.InPlace
import OptionTypes.Proofs.Grammar.Place
import OptionTypes.Proofs.Grammar.Locality
import OptionTypes.Proofs.Grammar.LocalRules
import OptionTypes.Proofs.Grammar.Opening
import OptionTypes.Proofs.Grammar.OpeningRules
import OptionTypes.Proofs.Grammar.Sequence
import OptionTypes.Proofs.Boundaries
import OptionTypes.Proofs.Clauses
import OptionTypes.Proofs.Grammar.Clause
import OptionTypes.Proofs.Check
import OptionTypes.Proofs.Binary64
import OptionTypes.Proofs.Descriptor
import OptionTypes.Proofs.Declaration.Optionality
import OptionTypes.Proofs.Config.Layer
import OptionTypes.Proofs.Config.Composition
import OptionTypes.Proofs.Config.Documents
import OptionTypes.Proofs.Config.Precedence
import OptionTypes.Proofs.Arithmetic
import OptionTypes.Proofs.Evaluation.Operators
import OptionTypes.Proofs.Evaluation.Closure
import OptionTypes.Proofs.Evaluation.Domain
import OptionTypes.Proofs.Evaluation.NormalForm
import OptionTypes.Proofs.Evaluation.Chain
import OptionTypes.Proofs.Evaluation.Template
import OptionTypes.Proofs.Json.LongNumbers
import OptionTypes.Proofs.Consumption
import OptionTypes.Proofs.Yaml.Scans
import OptionTypes.Proofs.Yaml.Tokens
import OptionTypes.Proofs.Yaml.Nodes
import OptionTypes.Proofs.Config.Loading
import OptionTypes.Proofs.FirstFault
import OptionTypes.Proofs.Conventions
import OptionTypes.Proofs.IntegerLiteral
import OptionTypes.Proofs.Declaration.PropertyNames
import OptionTypes.Proofs.Dump
import OptionTypes.Proofs.OctalEscape
import OptionTypes.Proofs.Evaluation.UnknownNames
