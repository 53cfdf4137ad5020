import EquationPractice.Document.AnswerSet
import EquationPractice.Document.Json
import EquationPractice.Document.Preferences
import EquationPractice.Document.Toml.Literal
import EquationPractice.Document.Toml.Reader
import EquationPractice.Document.Toml.Text
import EquationPractice.Document.Toml.Tree
import EquationPractice.Document.Value
import EquationPractice.Equation
import EquationPractice.Exercise.Answer
import EquationPractice.Exercise.Basic
import EquationPractice.Exercise.Judge
import EquationPractice.Exercise.Question
import EquationPractice.Exercise.Settings
import EquationPractice.Exercise.Slots
import EquationPractice.Expr.Basic
import EquationPractice.Expr.Latex
import EquationPractice.Expr.Printer
import EquationPractice.Expr.Reader
import EquationPractice.Expr.Value
import EquationPractice.Language.Locale
import EquationPractice.Language.Message
import EquationPractice.Main
import EquationPractice.Program.Arguments
import EquationPractice.Program.Command
import EquationPractice.Program.Quiz
import EquationPractice.Program.Report
import EquationPractice.Program.Run
import EquationPractice.Regex.Basic
import EquationPractice.Regex.CharSet
import EquationPractice.Regex.Match
import EquationPractice.Regex.Reader
import EquationPractice.Regex.Replace
import EquationPractice.Regex.Search
import EquationPractice.Rule.Basic
import EquationPractice.Rule.Bounds
import EquationPractice.Rule.Catalogue
import EquationPractice.Sampling.ChaCha
import EquationPractice.Sampling.IntRange
import EquationPractice.Sampling.Shuffle
import EquationPractice.Sampling.Source
import EquationPractice.Sampling.WordFeed
import EquationPractice.Solution.LinearForm
import EquationPractice.Solution.Outcome
import EquationPractice.Solution.SpecialAnswer
import EquationPractice.Statement
import EquationPractice.Text.Blank
import EquationPractice.Text.CaseFolding
import EquationPractice.Text.DecimalDigit
import EquationPractice.Text.Lines
import EquationPractice.Text.LowerCase
import EquationPractice.Text.Quoted
import EquationPractice.Text.Table
import EquationPractice.Text.Unprinted
import EquationPractice.Text.WordChar
import EquationPractice.Proofs.Results
import EquationPractice.Proofs.Solution.LinearSolver
import EquationPractice.Proofs.Solution.FirstDegree
import EquationPractice.Proofs.Evaluation.Constants
import EquationPractice.Proofs.Evaluation.BitSize
import EquationPractice.Proofs.Reading.Layers
import EquationPractice.Proofs.Reading.Phrases
import EquationPractice.Proofs.Printing.Reread
import EquationPractice.Proofs.Printing.RoundTrip
import EquationPractice.Proofs.Text.Runs
import EquationPractice.Proofs.Regex.Loops
import EquationPractice.Proofs.Regex.Shapes
import EquationPractice.Proofs.Regex.Replacing
import EquationPractice.Proofs.Regex.Counting
import EquationPractice.Proofs.Regex.Scanning
import EquationPractice.Proofs.Regex.Moving
import EquationPractice.Proofs.Regex.Enclosing
import EquationPractice.Proofs.Regex.Wrapped
import EquationPractice.Proofs.Rule.Registration
import EquationPractice.Proofs.Rule.StandardForms
import EquationPractice.Proofs.Rule.IntegerCount
import EquationPractice.Proofs.Rule.OperatorCount
import EquationPractice.Proofs.Rule.WrittenBounds
import EquationPractice.Proofs.Rule.Variants
import EquationPractice.Proofs.Exercise.TypedNumber
import EquationPractice.Proofs.Exercise.TypedForms
import EquationPractice.Proofs.Reading.Blankless
import EquationPractice.Proofs.Reading.Consumption
import EquationPractice.Proofs.Sampling.Draws
import EquationPractice.Proofs.Sampling.Candidates
import EquationPractice.Proofs.Sampling.Distribution
import EquationPractice.Proofs.Exercise.Acceptance
import EquationPractice.Proofs.Exercise.DrawnQuestion
import EquationPractice.Proofs.Exercise.QuestionText
import EquationPractice.Proofs.Exercise.QuestionDraft
import EquationPractice.Proofs.Exercise.Generation
import EquationPractice.Proofs.Exercise.ConservedTerms
import EquationPractice.Proofs.Exercise.UnitRewriting
import EquationPractice.Proofs.Exercise.UnitCoefficients
import EquationPractice.Proofs.Exercise.ShownQuestion
import EquationPractice.Proofs.Exercise.ShownExercise
import EquationPractice.Proofs.Exercise.AskedExercise
import EquationPractice.Proofs.Reading.Grammar
import EquationPractice.Proofs.Reading.Lexemes
import EquationPractice.Proofs.Reading.Derivations
import EquationPractice.Proofs.Reading.Recognition
import EquationPractice.Proofs.Reading.Derived
import EquationPractice.Proofs.Reading.Relations
import EquationPractice.Proofs.Reading.LongestFront
import EquationPractice.Proofs.Reading.ExplicitProducts
import EquationPractice.Proofs.Reading.Positions
import EquationPractice.Proofs.Reading.DroppedStar
import EquationPractice.Proofs.Reading.Stars
import EquationPractice.Proofs.Reading.StarlessOperands
import EquationPractice.Proofs.Reading.Starless
import EquationPractice.Proofs.Exercise.Interchange
import EquationPractice.Proofs.Exercise.PressedAnswers
import EquationPractice.Proofs.Exercise.LeftOut
import EquationPractice.Proofs.Printing.Canonical
import EquationPractice.Proofs.Exercise.RevealedAnswer
import EquationPractice.Proofs.Printing.TypesetLine
import EquationPractice.Proofs.Printing.TypesetReading
import EquationPractice.Proofs.Language.FilledPlaces
import EquationPractice.Proofs.Reading.OpenedGroups
import EquationPractice.Proofs.Reading.NestingLimit
import EquationPractice.Proofs.Reading.TreeDepth
import EquationPractice.Proofs.Reading.WholeTokens
import EquationPractice.Proofs.Reading.TreeLeaves
import EquationPractice.Proofs.Program.QuizRounds
import EquationPractice.Proofs.Program.PrintedAnswer
