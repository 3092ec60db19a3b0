import Marginalia.Braced.Forms
import Marginalia.Braced.Scanner
import Marginalia.CommandLine
import Marginalia.Commentary
import Marginalia.Commentary.Placement
import Marginalia.Commentary.Remark
import Marginalia.Config
import Marginalia.Files
import Marginalia.Indented.Expression
import Marginalia.Indented.Line
import Marginalia.Indented.Literal
import Marginalia.Indented.Missing
import Marginalia.Indented.Outline
import Marginalia.Indented.Statement
import Marginalia.Indented.Token
import Marginalia.Json.Decode
import Marginalia.Json.Number
import Marginalia.Json.Reader
import Marginalia.Json.Value
import Marginalia.Json.Writer
import Marginalia.Language
import Marginalia.Main
import Marginalia.Naming.Intent
import Marginalia.Naming.Known
import Marginalia.Naming.Words
import Marginalia.Outline
import Marginalia.Proofs.AnnotationLines
import Marginalia.Proofs.ArgumentReading
import Marginalia.Proofs.Blanks
import Marginalia.Proofs.CallComparison
import Marginalia.Proofs.CallFilling
import Marginalia.Proofs.CallReading
import Marginalia.Proofs.CodeScan
import Marginalia.Proofs.CompletedCall
import Marginalia.Proofs.CompletionEnd
import Marginalia.Proofs.CompletionRounds
import Marginalia.Proofs.Cuts
import Marginalia.Proofs.HonestReport
import Marginalia.Proofs.ImprovedLines
import Marginalia.Proofs.ImprovedLogic
import Marginalia.Proofs.ImprovedPitfalls
import Marginalia.Proofs.ImprovedReferences
import Marginalia.Proofs.ImprovedShape
import Marginalia.Proofs.ImprovedSpelling
import Marginalia.Proofs.LineEndings
import Marginalia.Proofs.LiteralLayout
import Marginalia.Proofs.Margins
import Marginalia.Proofs.MendedCode
import Marginalia.Proofs.Names
import Marginalia.Proofs.NamingLines
import Marginalia.Proofs.OneLine
import Marginalia.Proofs.PaddedLines
import Marginalia.Proofs.ReindentTwice
import Marginalia.Proofs.RepairTwice
import Marginalia.Proofs.RevisedLines
import Marginalia.Proofs.SentenceLines
import Marginalia.Proofs.SpelledLines
import Marginalia.Proofs.Substituted
import Marginalia.Proofs.Weight
import Marginalia.Repair
import Marginalia.Repair.Arguments
import Marginalia.Repair.Change
import Marginalia.Repair.Definitions
import Marginalia.Repair.Draft
import Marginalia.Repair.Headers
import Marginalia.Repair.Indentation
import Marginalia.Repair.Inputs
import Marginalia.Repair.KeyReads
import Marginalia.Repair.Layout
import Marginalia.Repair.Logic
import Marginalia.Repair.Operands
import Marginalia.Repair.Pitfalls
import Marginalia.Repair.Printing
import Marginalia.Repair.References
import Marginalia.Repair.Spelling
import Marginalia.Sentence.Condition
import Marginalia.Sentence.Definition
import Marginalia.Sentence.Loop
import Marginalia.Sentence.Statement
import Marginalia.Service
import Marginalia.SocketAddress
import Marginalia.Source
import Marginalia.Text.Basic
import Marginalia.Text.Blank
import Marginalia.Text.CharTable
import Marginalia.Text.Code
import Marginalia.Text.Letters
import Marginalia.Text.Pattern
import Marginalia.Text.Shown
import Marginalia.Text.Substitution
import Marginalia.Text.Words
import Marginalia.Tools
import Marginalia.Web
import Marginalia.Web.MediaType
import Marginalia.Proofs.ClosedBlocks
import Marginalia.Proofs.Pieces
import Marginalia.Proofs.MatchedPieces
import Marginalia.Proofs.KindLines
import Marginalia.Proofs.ScannedLines
import Marginalia.Proofs.ScannedTexts
import Marginalia.Proofs.Spacing
import Marginalia.Proofs.ScannedComments
import Marginalia.Proofs.WrittenStrings
import Marginalia.Proofs.EnabledLanguages
import Marginalia.Proofs.WrittenValues
import Marginalia.Proofs.SavedConfig
import Marginalia.Proofs.RebuiltLines
import Marginalia.Proofs.FlatPrograms
import Marginalia.Proofs.RecodedLines
import Marginalia.Proofs.HeaderColons
import Marginalia.Proofs.FunctionHeads
import Marginalia.Proofs.NestedBlocks
import Marginalia.Proofs.OrdinaryLiterals
import Marginalia.Proofs.Literals
import Marginalia.Proofs.Exchanges
import Marginalia.Proofs.FilledLiterals
import Marginalia.Proofs.KeptLiterals
import Marginalia.Proofs.NestedBrackets
import Marginalia.Proofs.NestedCalls
import Marginalia.Proofs.JoinedArguments
import Marginalia.Proofs.Completions
import Marginalia.Proofs.CompletedCode
import Marginalia.Proofs.Edits
import Marginalia.Proofs.ConditionSigns
import Marginalia.Proofs.SameLayout
import Marginalia.Proofs.NoneComparisons
import Marginalia.Proofs.ExchangedPieces
import Marginalia.Proofs.LeftSigns
import Marginalia.Proofs.LogicTwice
import Marginalia.Proofs.KeyTargets
import Marginalia.Proofs.Occurrences
import Marginalia.Proofs.NumberUses
import Marginalia.Proofs.JoinedText
import Marginalia.Proofs.Marks
import Marginalia.Proofs.DecodedEntities
import Marginalia.Proofs.SpelledTwice
import Marginalia.Proofs.ReplacedCalls
import Marginalia.Proofs.ReferencesTwice
import Marginalia.Proofs.Receivers
import Marginalia.Proofs.PrintedCalls
import Marginalia.Proofs.PrintingTwice
import Marginalia.Proofs.PrintedOperands
import Marginalia.Proofs.ChosenLines
import Marginalia.Proofs.OutlineOrder
import Marginalia.Proofs.PassedBraces
import Marginalia.Proofs.ReadLines
import Marginalia.Proofs.OpenBraces
import Marginalia.Proofs.FoundKinds
import Marginalia.Proofs.NestedBranches
import Marginalia.Proofs.ClassOwners
import Marginalia.Proofs.FirstMarks
import Marginalia.Proofs.QuotedMarks
import Marginalia.Proofs.InlineComments
import Marginalia.Proofs.Fields
import Marginalia.Proofs.NameWords
import Marginalia.Proofs.NamingStyles
import Marginalia.Proofs.LongerTexts
import Marginalia.Proofs.ReachedPlaces
import Marginalia.Proofs.OpenedScripts
import Marginalia.Proofs.OpenedFunctions
import Marginalia.Proofs.BraceStyle
import Marginalia.Text.Edit
import Marginalia.Text.Located
import Marginalia.Text.Slice
import Marginalia.Proofs.ByteOffsets
import Marginalia.Proofs.Partners
import Marginalia.Proofs.MatchedDepths
import Marginalia.Proofs.LocatedPieces
import Marginalia.Proofs.ReplacedRanges
import Marginalia.Proofs.WrappedOperands
import Marginalia.Ranged.Text
import Marginalia.Ranged.Sentence
import Marginalia.Ranged.Scanner
import Marginalia.Ranged.Repair
import Marginalia.Proofs.TextRanges
import Marginalia.Proofs.SentenceRanges
import Marginalia.Proofs.ScannerRanges
import Marginalia.Proofs.LineRanges
import Marginalia.Proofs.EditRanges
import Marginalia.Proofs.CallRanges
import Marginalia.Proofs.RangeSafety
import Marginalia.Proofs.CodeBeforeComments
import Marginalia.Proofs.CountedBraces
import Marginalia.Commentary.Annotations
import Marginalia.Indented.Grammar
import Marginalia.Indented.ParseTree
import Marginalia.Proofs.BuiltComments
import Marginalia.Proofs.ParseTrees
import Marginalia.Proofs.RecognisedNodes
import Marginalia.Proofs.OutlineContexts
import Marginalia.Proofs.StatementPlaces
import Marginalia.Proofs.Lexers
import Marginalia.Proofs.PlainLexers
import Marginalia.Proofs.CommentPlaces
