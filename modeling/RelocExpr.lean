import RelocExpr.Address
import RelocExpr.Algebra
import RelocExpr.AssemblyRun
import RelocExpr.Association
import RelocExpr.Charset
import RelocExpr.Command
import RelocExpr.Command.Arguments
import RelocExpr.Command.Value
import RelocExpr.Defect
import RelocExpr.Evaluation
import RelocExpr.Except
import RelocExpr.Expression
import RelocExpr.Expression.Postfix
import RelocExpr.ExpressionCache
import RelocExpr.ExpressionError
import RelocExpr.Lexeme
import RelocExpr.Lexeme.Basic
import RelocExpr.Lexeme.Number
import RelocExpr.Lexeme.Quoted
import RelocExpr.Lexeme.Word
import RelocExpr.LinkItem
import RelocExpr.Main
import RelocExpr.Operator
import RelocExpr.Part
import RelocExpr.Proofs.Acceptance
import RelocExpr.Proofs.ByteSize
import RelocExpr.Proofs.CacheAccounts
import RelocExpr.Proofs.Caching
import RelocExpr.Proofs.CaseInsensitivity
import RelocExpr.Proofs.CommandValues
import RelocExpr.Proofs.Computation
import RelocExpr.Proofs.Correspondence
import RelocExpr.Proofs.DataStrings
import RelocExpr.Proofs.Defects
import RelocExpr.Proofs.Diagnosis
import RelocExpr.Proofs.Digits
import RelocExpr.Proofs.Division
import RelocExpr.Proofs.ErrorText
import RelocExpr.Proofs.Externals
import RelocExpr.Proofs.Grammar
import RelocExpr.Proofs.Juxtaposition
import RelocExpr.Proofs.LetterCase
import RelocExpr.Proofs.LexemeEnds
import RelocExpr.Proofs.LinkProgram
import RelocExpr.Proofs.Linkability
import RelocExpr.Proofs.Linking
import RelocExpr.Proofs.LookupOrder
import RelocExpr.Proofs.Mentions
import RelocExpr.Proofs.NulValue
import RelocExpr.Proofs.NumberNotation
import RelocExpr.Proofs.Ordering
import RelocExpr.Proofs.ReadParts
import RelocExpr.Proofs.Reading
import RelocExpr.Proofs.Registration
import RelocExpr.Proofs.Relocation
import RelocExpr.Proofs.Rendering
import RelocExpr.Proofs.Reordering
import RelocExpr.Proofs.SegmentFlow
import RelocExpr.Proofs.SegmentTags
import RelocExpr.Proofs.Segments
import RelocExpr.Proofs.Signs
import RelocExpr.Proofs.Stability
import RelocExpr.Proofs.StringNotation
import RelocExpr.Proofs.TableHistory
import RelocExpr.Proofs.Tree
import RelocExpr.Proofs.TreeEvaluation
import RelocExpr.Proofs.TypeTags
import RelocExpr.Report
import RelocExpr.Report.Lines
import RelocExpr.Session
import RelocExpr.Settings
import RelocExpr.Settings.Reader
import RelocExpr.SymbolTable
import RelocExpr.Text
import RelocExpr.Text.CellWidth
import RelocExpr.Text.Numeral
import RelocExpr.Text.White
