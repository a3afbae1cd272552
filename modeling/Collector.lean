import Collector.CommandLine
import Collector.Compact.Conditions
import Collector.Compact.Facts
import Collector.Compact.Fold
import Collector.Compact.Inline
import Collector.Compact.Names
import Collector.Compact.Node
import Collector.Compact.Printer
import Collector.Compact.Quote
import Collector.Compact.Reduce
import Collector.Compact.Resolve
import Collector.Compact.Statements
import Collector.Compact.Unused
import Collector.Context.Schema
import Collector.Context.Usage
import Collector.Context.Variable
import Collector.Entries
import Collector.Error
import Collector.Export.Reader
import Collector.Export.Value
import Collector.Function.Artifact
import Collector.Function.Bundle
import Collector.Function.Canonical
import Collector.Function.Compression
import Collector.Function.Convention
import Collector.Function.Name
import Collector.Function.Pruning
import Collector.Group.Compile
import Collector.Group.Connection
import Collector.Group.Context
import Collector.Group.Transform
import Collector.Json.Printer
import Collector.Json.Reader
import Collector.Json.Value
import Collector.Number.Arithmetic
import Collector.Number.Decimal
import Collector.Number.Double
import Collector.Number.Short
import Collector.Project.Build
import Collector.Project.Disk
import Collector.Project.Host
import Collector.Project.Layout
import Collector.Project.Machine
import Collector.Script.Grammar
import Collector.Script.Grammar.Class
import Collector.Script.Grammar.Expression
import Collector.Script.Grammar.Function
import Collector.Script.Grammar.Pattern
import Collector.Script.Grammar.Statement
import Collector.Script.Grammar.Target
import Collector.Script.Lexer
import Collector.Script.Literal
import Collector.Script.Parser
import Collector.Script.Reader
import Collector.Script.Syntax
import Collector.Script.Token
import Collector.Script.Tree
import Collector.Template.Document
import Collector.Text.Character
import Collector.Text.ConcealedRanges
import Collector.Text.IdentifierRanges
import Collector.Text.Quoted
import Collector.Text.Utf8
import Collector.Proofs.Commuting
import Collector.Proofs.Context.Conflicts
import Collector.Proofs.Context.RoundTrip
import Collector.Proofs.Context.Schema
import Collector.Proofs.Context.Undeclared
import Collector.Proofs.Context.Usages
import Collector.Proofs.Context.Validation
import Collector.Proofs.Context.Variable
import Collector.Proofs.Definitions
import Collector.Proofs.Entries
import Collector.Proofs.Export.Assignments
import Collector.Proofs.Export.Constants
import Collector.Proofs.Export.Functions
import Collector.Proofs.Export.Normalizing
import Collector.Proofs.Export.Sources
import Collector.Proofs.Export.Static
import Collector.Proofs.Export.WellFormed
import Collector.Proofs.Files
import Collector.Proofs.Function.Attached
import Collector.Proofs.Function.Bundle
import Collector.Proofs.Function.Bundled
import Collector.Proofs.Function.Closing
import Collector.Proofs.Function.Cutting
import Collector.Proofs.Function.Declared
import Collector.Proofs.Function.Detached
import Collector.Proofs.Function.Extracting
import Collector.Proofs.Function.Fixpoint
import Collector.Proofs.Function.Liveness
import Collector.Proofs.Function.Parameters
import Collector.Proofs.Function.Pruned
import Collector.Proofs.Function.Remaining
import Collector.Proofs.Function.Reordering
import Collector.Proofs.Function.Scoping
import Collector.Proofs.Function.Stored
import Collector.Proofs.Function.Subjects
import Collector.Proofs.Function.Worklist
import Collector.Proofs.Group.Compressing
import Collector.Proofs.Group.Convention
import Collector.Proofs.Group.Plan
import Collector.Proofs.Group.Separate
import Collector.Proofs.Group.Usages
import Collector.Proofs.Json.Same
import Collector.Proofs.Keys
import Collector.Proofs.Occurrences
import Collector.Proofs.Ordering
import Collector.Proofs.Outcomes
import Collector.Proofs.Rebuilding
import Collector.Proofs.Running
import Collector.Proofs.Script.Agreement
import Collector.Proofs.Script.Ahead
import Collector.Proofs.Script.Alone
import Collector.Proofs.Script.Answering
import Collector.Proofs.Script.Appending
import Collector.Proofs.Script.Blanks
import Collector.Proofs.Script.Bounded
import Collector.Proofs.Script.Classes
import Collector.Proofs.Script.Cover
import Collector.Proofs.Script.Cuts
import Collector.Proofs.Script.Declarations
import Collector.Proofs.Script.Detaching
import Collector.Proofs.Script.Ending
import Collector.Proofs.Script.Enough
import Collector.Proofs.Script.Expressions
import Collector.Proofs.Script.Following
import Collector.Proofs.Script.Forms
import Collector.Proofs.Script.Functions
import Collector.Proofs.Script.Inside
import Collector.Proofs.Script.Leaving
import Collector.Proofs.Script.LeavingExpressions
import Collector.Proofs.Script.LeavingStatements
import Collector.Proofs.Script.Lexing
import Collector.Proofs.Script.Listing
import Collector.Proofs.Script.Literals
import Collector.Proofs.Script.Marks
import Collector.Proofs.Script.Methods
import Collector.Proofs.Script.Names
import Collector.Proofs.Script.Numbers
import Collector.Proofs.Script.Operands
import Collector.Proofs.Script.Parts
import Collector.Proofs.Script.Patterns
import Collector.Proofs.Script.Portable
import Collector.Proofs.Script.Reading
import Collector.Proofs.Script.Rereading
import Collector.Proofs.Script.Scanning
import Collector.Proofs.Script.Scopes
import Collector.Proofs.Script.Seam
import Collector.Proofs.Script.Spelling
import Collector.Proofs.Script.Statements
import Collector.Proofs.Script.Strings
import Collector.Proofs.Script.Texts
import Collector.Proofs.Script.Tracing
import Collector.Proofs.Script.Trees
import Collector.Proofs.Script.Wholes
import Collector.Proofs.Script.Words
import Collector.Proofs.Text.ByteOrder
import Collector.Proofs.Text.Parentheses
import Collector.Proofs.Text.Words
import Collector.Proofs.Updates
