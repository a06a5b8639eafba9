import PatternGen.CommandLine
import PatternGen.Gen.Basic
import PatternGen.Gen.CharPool
import PatternGen.Gen.Compile
import PatternGen.Gen.Options
import PatternGen.Gen.Range
import PatternGen.Main
import PatternGen.Parser.Basic
import PatternGen.Parser.Expectations
import PatternGen.Parser.Failure
import PatternGen.Parser.Peg
import PatternGen.Pattern.Basic
import PatternGen.Pattern.CharClass
import PatternGen.Pattern.Grammar
import PatternGen.Proofs.CommandLine
import PatternGen.Proofs.Gen.Arrangement
import PatternGen.Proofs.Gen.Compile
import PatternGen.Proofs.Gen.Flaws
import PatternGen.Proofs.Gen.Grid
import PatternGen.Proofs.Gen.Interval
import PatternGen.Proofs.Gen.Multiplicity
import PatternGen.Proofs.Gen.Options
import PatternGen.Proofs.Gen.Outcomes
import PatternGen.Proofs.Gen.Password
import PatternGen.Proofs.Gen.PasswordRefusals
import PatternGen.Proofs.Gen.Pools
import PatternGen.Proofs.Gen.Range
import PatternGen.Proofs.Gen.Refusals
import PatternGen.Proofs.Gen.Safety
import PatternGen.Proofs.Gen.Sameness
import PatternGen.Proofs.Gen.Shuffle
import PatternGen.Proofs.Gen.Walk
import PatternGen.Proofs.Parser.Adequacy
import PatternGen.Proofs.Parser.BigStep
import PatternGen.Proofs.Parser.Calls
import PatternGen.Proofs.Parser.Choice
import PatternGen.Proofs.Parser.Forward
import PatternGen.Proofs.Parser.Guarded
import PatternGen.Proofs.Parser.Merging
import PatternGen.Proofs.Parser.Rounds
import PatternGen.Proofs.Parser.Rows
import PatternGen.Proofs.Parser.Rules
import PatternGen.Proofs.Parser.Separators
import PatternGen.Proofs.Parser.Shift
import PatternGen.Proofs.Parser.Span
import PatternGen.Proofs.Parser.Success
import PatternGen.Proofs.Parser.Telling
import PatternGen.Proofs.Parser.Trace
import PatternGen.Proofs.Parser.Unrolling
import PatternGen.Proofs.Parser.Within
import PatternGen.Proofs.Pattern.Bounds
import PatternGen.Proofs.Pattern.Canonical
import PatternGen.Proofs.Pattern.ClassBody
import PatternGen.Proofs.Pattern.ClassReading
import PatternGen.Proofs.Pattern.ContextFree
import PatternGen.Proofs.Pattern.Counting
import PatternGen.Proofs.Pattern.Joining
import PatternGen.Proofs.Pattern.Language
import PatternGen.Proofs.Pattern.Listing
import PatternGen.Proofs.Pattern.NormalForm
import PatternGen.Proofs.Pattern.Ordinary
import PatternGen.Proofs.Pattern.Reading
import PatternGen.Proofs.Pattern.Rejection
import PatternGen.Proofs.Pattern.RoundTrip
import PatternGen.Proofs.Pattern.Sameness
import PatternGen.Proofs.Pattern.Spelling
import PatternGen.Proofs.Pattern.Termination
import PatternGen.Proofs.Pattern.Words
import PatternGen.Proofs.Person
import PatternGen.Proofs.Regex.Engine
import PatternGen.Proofs.Regex.Token
import PatternGen.Proofs.Text.Position
import PatternGen.Proofs.Time.Calendar
import PatternGen.Proofs.Time.Moving
import PatternGen.Random.Source
import PatternGen.Regex.Basic
import PatternGen.Regex.CharSet
import PatternGen.Regex.Reader
import PatternGen.Regex.Search
import PatternGen.Regex.Size
import PatternGen.Regex.Token
import PatternGen.Text.Basic
import PatternGen.Text.Category
import PatternGen.Text.Quoted
import PatternGen.Time
