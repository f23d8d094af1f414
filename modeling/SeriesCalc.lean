import SeriesCalc.Data.Dataset
import SeriesCalc.Data.Error
import SeriesCalc.Data.Vars
import SeriesCalc.Decimal.Layout
import SeriesCalc.Decimal.Read
import SeriesCalc.Decimal.Shortest
import SeriesCalc.Eval.Assign
import SeriesCalc.Eval.Binary
import SeriesCalc.Eval.Cells
import SeriesCalc.Eval.Collections
import SeriesCalc.Eval.Convert
import SeriesCalc.Eval.Kernel
import SeriesCalc.Eval.Library
import SeriesCalc.Eval.Linalg
import SeriesCalc.Eval.Machine
import SeriesCalc.Eval.MatrixOps
import SeriesCalc.Eval.Numeric
import SeriesCalc.Eval.Run
import SeriesCalc.Eval.Scratch
import SeriesCalc.Eval.Select
import SeriesCalc.Eval.Walk
import SeriesCalc.Eval.Workspace
import SeriesCalc.Expr.Build
import SeriesCalc.Expr.Op
import SeriesCalc.Expr.Tree
import SeriesCalc.Proofs.Calls.Table
import SeriesCalc.Proofs.CompiledRuns
import SeriesCalc.Proofs.Exec
import SeriesCalc.Proofs.FailedStatement
import SeriesCalc.Proofs.PointerArgs
import SeriesCalc.Proofs.SampleReads
import SeriesCalc.Proofs.Vars
import SeriesCalc.Proofs.Vars.WellFormed
import SeriesCalc.Proofs.Walk.Closed
import SeriesCalc.Proofs.Walk.Effects
import SeriesCalc.Proofs.Write
import SeriesCalc.Session.Decode
import SeriesCalc.Session.Encode
import SeriesCalc.Session.Halt
import SeriesCalc.Session.Json
import SeriesCalc.Session.Probe
import SeriesCalc.Session.Request
import SeriesCalc.Session.Step
import SeriesCalc.Text.Unicode
import SeriesCalc.Value.Basic
import SeriesCalc.Value.Categories
import SeriesCalc.Value.Complex
import SeriesCalc.Value.Count
import SeriesCalc.Value.Error
import SeriesCalc.Value.Kind
import SeriesCalc.Value.Matrix
import SeriesCalc.Value.Word
import SeriesCalc.Proofs.Cells.Bookkeeping
import SeriesCalc.Proofs.Cells.Runs
import SeriesCalc.Proofs.Warnings
import SeriesCalc.Proofs.Cells.Frame
import SeriesCalc.Proofs.Cells.Operands
import SeriesCalc.Proofs.Calls.Depth
import SeriesCalc.Proofs.Calls.Balanced
import SeriesCalc.Proofs.Values.Throughout
import SeriesCalc.Proofs.Values.Shapes
import SeriesCalc.Proofs.Values.Invariant
import SeriesCalc.Proofs.Values.Operators
import SeriesCalc.Proofs.Values.Builtins
import SeriesCalc.Proofs.Values.Stores
import SeriesCalc.Proofs.Values.Writes
import SeriesCalc.Proofs.Values.Walk
import SeriesCalc.Proofs.Values.Statements
import SeriesCalc.Proofs.Values.WellFormed
import SeriesCalc.Proofs.Calls.Lending
import SeriesCalc.Proofs.SeriesConditional
import SeriesCalc.Proofs.Values.Conversions
import SeriesCalc.Proofs.Values.Blocks
import SeriesCalc.Proofs.Calls.Fuel
import SeriesCalc.Proofs.Values.Kinds
import SeriesCalc.Proofs.ShortCircuit
import SeriesCalc.Proofs.MissingValues
import SeriesCalc.Proofs.NestedWrites
import SeriesCalc.Proofs.Dataset.Labels
import SeriesCalc.Proofs.Dataset.ShapeArithmetic
import SeriesCalc.Proofs.Lags
import SeriesCalc.Proofs.SeriesWrites
import SeriesCalc.Proofs.Cells.Reruns
import SeriesCalc.Proofs.Forest.ChildRuns
import SeriesCalc.Proofs.Values.Concat
import SeriesCalc.Proofs.Values.MatrixLiterals
import SeriesCalc.Proofs.Values.Counts
import SeriesCalc.Proofs.Values.Characters
import SeriesCalc.Proofs.Values.Selections
import SeriesCalc.Proofs.Values.Broadcast
import SeriesCalc.Proofs.Values.CategoryCodes
import SeriesCalc.Proofs.Values.MatrixEquality
