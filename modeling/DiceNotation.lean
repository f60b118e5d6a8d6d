import DiceNotation.Notation
import DiceNotation.Command
import DiceNotation.Executor
import DiceNotation.Field
import DiceNotation.Limits
import DiceNotation.Main
import DiceNotation.Settings
import DiceNotation.Templates
import DiceNotation.Toml.Document
import DiceNotation.Proofs.Accumulator
import DiceNotation.Proofs.Accumulator.Defect
import DiceNotation.Proofs.Accumulator.Invariant
import DiceNotation.Proofs.Lexeme
import DiceNotation.Proofs.Lexeme.Cut
import DiceNotation.Proofs.RoundTrip
import DiceNotation.Proofs.Arithmetic
import DiceNotation.Proofs.Limits
import DiceNotation.Proofs.Draw
import DiceNotation.Proofs.Exact
import DiceNotation.Proofs.Roll
import DiceNotation.Proofs.Roll.Faces
import DiceNotation.Proofs.Roll.Dropping
import DiceNotation.Proofs.Extreme
import DiceNotation.Proofs.Limits.Sound
import DiceNotation.Proofs.Sampled
import DiceNotation.Proofs.LeftNested
import DiceNotation.Proofs.Reread
import DiceNotation.Proofs.Histogram
import DiceNotation.Proofs.Histogram.Words
import DiceNotation.Proofs.Limits.Attained
import DiceNotation.Proofs.ZeroDivisor
import DiceNotation.Proofs.KeyStream
import DiceNotation.Proofs.Executor
import DiceNotation.Proofs.Executor.Service
import DiceNotation.Proofs.Command.Roll
import DiceNotation.Proofs.Description
import DiceNotation.Proofs.Description.Draws
import DiceNotation.Proofs.Histogram.Total
import DiceNotation.Proofs.Histogram.Rolls
import DiceNotation.Proofs.Command.Sample
import DiceNotation.Proofs.Field
import DiceNotation.Proofs.Json
import DiceNotation.Proofs.Json.Record
import DiceNotation.Proofs.Templates
import DiceNotation.Proofs.Templates.Sources
import DiceNotation.Proofs.Templates.Loaded
import DiceNotation.Proofs.Settings.Load
import DiceNotation.Proofs.Settings.Kept
