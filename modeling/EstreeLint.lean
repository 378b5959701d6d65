import EstreeLint.Command.Arguments
import EstreeLint.Command.FileTree
import EstreeLint.Command.Listing
import EstreeLint.Command.LogFormat
import EstreeLint.Command.Path
import EstreeLint.Estree.Conversion
import EstreeLint.Estree.Conversion.Basic
import EstreeLint.Estree.Conversion.Class
import EstreeLint.Estree.Conversion.Element
import EstreeLint.Estree.Conversion.Expression
import EstreeLint.Estree.Conversion.Function
import EstreeLint.Estree.Conversion.Leaf
import EstreeLint.Estree.Conversion.Module
import EstreeLint.Estree.Conversion.Pattern
import EstreeLint.Estree.Conversion.Statement
import EstreeLint.Estree.Conversion.Type
import EstreeLint.Estree.Entity
import EstreeLint.Estree.Field
import EstreeLint.Estree.Node
import EstreeLint.Estree.NodeType
import EstreeLint.Estree.Numeral
import EstreeLint.Estree.Registry
import EstreeLint.Estree.Token
import EstreeLint.Grammar.Binding
import EstreeLint.Grammar.Class
import EstreeLint.Grammar.Declaration
import EstreeLint.Grammar.Element
import EstreeLint.Grammar.Error
import EstreeLint.Grammar.Expression
import EstreeLint.Grammar.Member
import EstreeLint.Grammar.Modifier
import EstreeLint.Grammar.Module
import EstreeLint.Grammar.Name
import EstreeLint.Grammar.Operation
import EstreeLint.Grammar.Rules
import EstreeLint.Grammar.Signature
import EstreeLint.Grammar.State
import EstreeLint.Grammar.Statement
import EstreeLint.Grammar.Type
import EstreeLint.LineMap
import EstreeLint.Lint.Diagnostic
import EstreeLint.Lint.Directive
import EstreeLint.Lint.Fix
import EstreeLint.Lint.Host
import EstreeLint.Lint.Options
import EstreeLint.Lint.Pass
import EstreeLint.Lint.Render
import EstreeLint.Lint.Report
import EstreeLint.Lint.RuleTest
import EstreeLint.Lint.Run
import EstreeLint.Main
import EstreeLint.Proofs.Census.Parents
import EstreeLint.Proofs.Command.Arguments
import EstreeLint.Proofs.Command.Files
import EstreeLint.Proofs.Command.Listing
import EstreeLint.Proofs.Estree.Convertible
import EstreeLint.Proofs.Estree.Redirect
import EstreeLint.Proofs.Estree.References
import EstreeLint.Proofs.Estree.Stream
import EstreeLint.Proofs.Estree.Within
import EstreeLint.Proofs.Except
import EstreeLint.Proofs.Grammar.Depth
import EstreeLint.Proofs.Grammar.FunctionContext
import EstreeLint.Proofs.Grammar.Speculation
import EstreeLint.Proofs.Law.Assigned
import EstreeLint.Proofs.Law.Basic
import EstreeLint.Proofs.Law.Chains
import EstreeLint.Proofs.Law.Declarations
import EstreeLint.Proofs.Law.Dispatch
import EstreeLint.Proofs.Law.Exported
import EstreeLint.Proofs.Law.Namespaces
import EstreeLint.Proofs.Layout.Expressions
import EstreeLint.Proofs.Layout.Statements
import EstreeLint.Proofs.Layout.WellFormed
import EstreeLint.Proofs.Lint.FailFast
import EstreeLint.Proofs.Lint.Isolation
import EstreeLint.Proofs.Lint.Overlap
import EstreeLint.Proofs.Lint.RoundTrip
import EstreeLint.Proofs.Lint.Rules
import EstreeLint.Proofs.Lint.Snippet
import EstreeLint.Proofs.Lint.Splice
import EstreeLint.Proofs.Precedence.Statements
import EstreeLint.Proofs.Progress.Expressions
import EstreeLint.Proofs.Progress.FrontEnd
import EstreeLint.Proofs.Progress.Operations
import EstreeLint.Proofs.Progress.Starts
import EstreeLint.Proofs.Progress.Statements
import EstreeLint.Proofs.Progress.Steps
import EstreeLint.Proofs.Shapes.Classes
import EstreeLint.Proofs.Shapes.Declarations
import EstreeLint.Proofs.Text.Positions
import EstreeLint.Proofs.Text.Printed
import EstreeLint.Proofs.Text.Split
import EstreeLint.Proofs.Token.Comments
import EstreeLint.Proofs.Token.Cooked
import EstreeLint.Proofs.Token.Session
import EstreeLint.Proofs.Token.Words
import EstreeLint.SourceFile
import EstreeLint.Span
import EstreeLint.Syntax.Kind
import EstreeLint.Syntax.Node
import EstreeLint.Text.Basic
import EstreeLint.Text.Blank
import EstreeLint.Text.Letters
import EstreeLint.Text.Printed
import EstreeLint.Text.Split
import EstreeLint.Token.Kind
import EstreeLint.Token.Lexeme
import EstreeLint.Token.Number
import EstreeLint.Token.Punctuation
import EstreeLint.Token.Quoted
import EstreeLint.Token.Scanner
import EstreeLint.Token.Word
import EstreeLint.Tree
import EstreeLint.Trivia
