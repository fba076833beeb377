import WordTape.Main
import WordTape.FileRun
import WordTape.Proofs.BoundedRun
import WordTape.Proofs.Structure.Statement
import WordTape.Proofs.Structure.Layout
import WordTape.Proofs.Structure.Evaluation
import WordTape.Proofs.Structure.Execution
import WordTape.Proofs.Brainfuck.Nodes
import WordTape.Proofs.Brainfuck.Refusals
import WordTape.Proofs.Brainfuck.Brackets
import WordTape.Proofs.Brainfuck.Units
import WordTape.Proofs.Invariants
import WordTape.Proofs.Brainfuck.Simulation
import WordTape.Proofs.Brainfuck.Preservation
import WordTape.Proofs.Numeric.Rounding
import WordTape.Proofs.Numeric.Datum
import WordTape.Proofs.Numeric.Decimal
import WordTape.Proofs.Numeric.Shortest
import WordTape.Proofs.Token.Words
import WordTape.Proofs.Numeric.Figures
import WordTape.Proofs.Numeric.Literal
import WordTape.Proofs.StraightLine
import WordTape.Proofs.TypedCells
import WordTape.Proofs.Structure.Reading
import WordTape.Proofs.Structure.OpenLoops
import WordTape.Proofs.Transition
import WordTape.Proofs.FirstFault
import WordTape.Proofs.LoopStack
import WordTape.Proofs.LargerTape
import WordTape.Proofs.Composition
import WordTape.Proofs.Diagnosis
import WordTape.Proofs.History
import WordTape.Proofs.Tape.Bounds
import WordTape.Proofs.TapeBounds
import WordTape.Proofs.Text.Lines
import WordTape.Proofs.Text.Replacement
import WordTape.Proofs.FaultPlaces
import WordTape.Proofs.Device.Dialogue
import WordTape.Proofs.Device.Healing
import WordTape.Proofs.Requests
import WordTape.Proofs.Device.Accounts
import WordTape.Proofs.FailingStreams
import WordTape.Proofs.RequestNumbers
import WordTape.Proofs.Token.Spacing
import WordTape.Proofs.SameWords
import WordTape.Proofs.Device.Abreast
import WordTape.Proofs.RunsAbreast
import WordTape.Proofs.Isolation
import WordTape.Proofs.Respacing
import WordTape.Proofs.Numeric.Nearest
import WordTape.Proofs.Numeric.CorrectRounding
import WordTape.Proofs.Numeric.Settling
import WordTape.Proofs.Numeric.DecimalText
import WordTape.Proofs.Numeric.RoundedOnce
import WordTape.Proofs.Numeric.CoarsestGrid
import WordTape.Proofs.Numeric.FewestFigures
import WordTape.Proofs.Numeric.PlainText
import WordTape.Proofs.Numeric.ShortestText
import WordTape.Proofs.Token.Runs
import WordTape.Proofs.Numeric.FloatCells
import WordTape.Proofs.Numeric.IntegerCells
import WordTape.Proofs.Numeric.IntegerText
import WordTape.Proofs.SingleEffects
import WordTape.Proofs.Device.Lines
import WordTape.Proofs.Tape.ZeroCells
import WordTape.Proofs.ZeroRuns
import WordTape.Proofs.Device.OffCell
import WordTape.Proofs.Tape.Sweeps
import WordTape.Proofs.Footprints
import WordTape.Proofs.Structure.OneReading
import WordTape.Proofs.Brainfuck.Rendering
import WordTape.Proofs.Brainfuck.Concatenation
import WordTape.Proofs.Structure.Enclosure
import WordTape.Proofs.Brainfuck.Copies
import WordTape.Proofs.Brainfuck.Trees
import WordTape.Proofs.Device.Effort
import WordTape.Proofs.EndlessRuns
import WordTape.Proofs.CommandLine.Dump
import WordTape.Proofs.Text.Windows
