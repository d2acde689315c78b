import FormulaGrid.Calculator
import FormulaGrid.Command.Arguments
import FormulaGrid.Command.Procedure
import FormulaGrid.Command.Run
import FormulaGrid.Failure
import FormulaGrid.Fault
import FormulaGrid.Files
import FormulaGrid.Formula
import FormulaGrid.Grid
import FormulaGrid.Layout
import FormulaGrid.Nesting
import FormulaGrid.Operation
import FormulaGrid.Position
import FormulaGrid.Proofs.Cells
import FormulaGrid.Proofs.Answer
import FormulaGrid.Proofs.Worth
import FormulaGrid.Settings
import FormulaGrid.Settings.File
import FormulaGrid.Settings.Reader
import FormulaGrid.Text.Integer
import FormulaGrid.Text.Lines
import FormulaGrid.Toml.Document
import FormulaGrid.Toml.Syntax
import FormulaGrid.Value
import FormulaGrid.Worksheet
import FormulaGrid.Worksheet.Storage
import FormulaGrid.Main
import FormulaGrid.Proofs.Evaluation
import FormulaGrid.Proofs.Memo
import FormulaGrid.Proofs.Settled
import FormulaGrid.Proofs.Pass
import FormulaGrid.Proofs.Memoization
import FormulaGrid.Proofs.History
import FormulaGrid.Proofs.Faults
import FormulaGrid.Proofs.Unrolling
import FormulaGrid.Proofs.LoopPolicy
import FormulaGrid.Proofs.Loading
import FormulaGrid.Proofs.Names
import FormulaGrid.Proofs.LoopPath
import FormulaGrid.Proofs.Moving
import FormulaGrid.Proofs.Rearrangement
import FormulaGrid.Proofs.Lines
import FormulaGrid.Proofs.Reloading
import FormulaGrid.Proofs.FixedPoint
import FormulaGrid.Proofs.Scanning
import FormulaGrid.Proofs.Runs
import FormulaGrid.Proofs.Origins
import FormulaGrid.Proofs.Repetition
import FormulaGrid.Proofs.SecondPass
import FormulaGrid.Proofs.Stopping
import FormulaGrid.Proofs.Precedence
import FormulaGrid.Proofs.Locality
import FormulaGrid.Proofs.Grammar
import FormulaGrid.Proofs.WriteOnce
import FormulaGrid.Proofs.Defects
import FormulaGrid.Proofs.Deepening
import FormulaGrid.Proofs.LineEnds
import FormulaGrid.Proofs.Grouping
import FormulaGrid.Proofs.SelfReference
import FormulaGrid.Proofs.Replacement
import FormulaGrid.Proofs.Balance
