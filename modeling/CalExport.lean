import CalExport.Main
import CalExport.Text.Letter
import CalExport.Proofs.TrailingInput
import CalExport.Proofs.BatchAgreement
import CalExport.Proofs.DirectoryBatch
import CalExport.Proofs.Kinship.Basic
import CalExport.Proofs.EntryLocality
import CalExport.Proofs.Lexing.Lossless
import CalExport.Proofs.Passing
import CalExport.Proofs.Expression.Grammar
import CalExport.Proofs.Expression.Reading
import CalExport.Proofs.Expression.RoundTrip
import CalExport.Proofs.Covering
import CalExport.Proofs.Expression.Soundness
import CalExport.Proofs.Statement.Writing
import CalExport.Proofs.Statement.RoundTrip
import CalExport.Proofs.Lexing.Course
import CalExport.Proofs.Lexing.TriggerBody
import CalExport.Proofs.Kinship.Rule
import CalExport.Proofs.Kinship.Leaf
import CalExport.Proofs.Kinship.Expression
import CalExport.Proofs.Kinship.Declaration
import CalExport.Proofs.Kinship.Object
import CalExport.Proofs.StringSecrecy
import CalExport.Proofs.LetterCase.Lexing
import CalExport.Proofs.LetterCase.Leaf
import CalExport.Proofs.LetterCase.Analysis
import CalExport.Proofs.Statement.Balance
import CalExport.Proofs.Declaration.Balance
import CalExport.Proofs.CleanRun
import CalExport.Proofs.CodePlaces
import CalExport.Proofs.Lexing.CodeBlock
import CalExport.Proofs.SpanGeometry
import CalExport.Proofs.RecoveryLocality
import CalExport.Proofs.SectionOrder
import CalExport.Proofs.UnseenSection
import CalExport.Proofs.Recording
import CalExport.Proofs.SyntaxTree
import CalExport.Proofs.Upkeep.Basic
import CalExport.Proofs.Upkeep.Leaf
import CalExport.Proofs.Upkeep.Expression
import CalExport.Proofs.Upkeep.Statement
import CalExport.Proofs.Upkeep.Declaration
import CalExport.Proofs.Upkeep.Object
import CalExport.Proofs.SkippedRegions
import CalExport.Proofs.TreeDepth
import CalExport.Proofs.Expression.Extent
import CalExport.Proofs.OperationSpans
import CalExport.Proofs.ItemRecovery
import CalExport.Proofs.Meaning
import CalExport.Proofs.DataType.Form
import CalExport.Proofs.VariableBlock
import CalExport.Proofs.Lexing.Spelling
import CalExport.Proofs.DataType.Name
import CalExport.Proofs.ClosingBraces
import CalExport.Proofs.RawText
import CalExport.Proofs.EnclosingBlock
import CalExport.Proofs.RawValue
import CalExport.Proofs.Lexing.SpacedPrint
import CalExport.Proofs.DiagnosticLimit
import CalExport.Proofs.Lexing.StringLiteral
import CalExport.Proofs.FailFast
import CalExport.Proofs.DataType.Descriptor
import CalExport.Proofs.Decoding
import CalExport.Proofs.SignedInteger
import CalExport.Proofs.Lexing.Metrics
import CalExport.Proofs.Discovery
import CalExport.Proofs.Nesting.Flat
import CalExport.Proofs.Nesting.Script
import CalExport.Proofs.Nesting.Expression
import CalExport.Proofs.Nesting.Statement
import CalExport.Proofs.Nesting.Declaration
import CalExport.Proofs.Nesting.Object
import CalExport.Proofs.Nesting.Calls
import CalExport.Proofs.NestingGuard
