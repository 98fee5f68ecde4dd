import SymbolicScript.Analysis.Optimize
import SymbolicScript.Heap.Conversion
import SymbolicScript.Heap.Equality
import SymbolicScript.Item.Text
import SymbolicScript.Machine.StopCondition
import SymbolicScript.Script.Builder
import SymbolicScript.Script.Cursor
import SymbolicScript.Proofs.Idempotence
import SymbolicScript.Proofs.SkippedPrefix
import SymbolicScript.Proofs.LargerLimits
import SymbolicScript.Proofs.Maintained
import SymbolicScript.Proofs.Pointers
import SymbolicScript.Proofs.LocalWork
import SymbolicScript.Proofs.HandlerWork
import SymbolicScript.Proofs.AccessFootprint
import SymbolicScript.Proofs.EffectFree
import SymbolicScript.Proofs.ScriptBlind
import SymbolicScript.Proofs.UnreadCode
import SymbolicScript.Proofs.BlockStarts
import SymbolicScript.Proofs.Guidance
import SymbolicScript.Proofs.ControlTargets
import SymbolicScript.Proofs.BlockEntry
import SymbolicScript.Proofs.StorageAliasing
import SymbolicScript.Proofs.StackUnknowns
import SymbolicScript.Proofs.TryBlocks
import SymbolicScript.Proofs.GroundedRuns
import SymbolicScript.Proofs.Encoding
import SymbolicScript.Proofs.InstructionGrammar
import SymbolicScript.Proofs.IntegerEncoding
import SymbolicScript.Proofs.BuiltPushes
import SymbolicScript.Proofs.AccessTraces
import SymbolicScript.Proofs.TrackedHandlers
import SymbolicScript.Proofs.TrackedRuns
import SymbolicScript.Proofs.BlockRuns
import SymbolicScript.Proofs.FrozenObjects
import SymbolicScript.Proofs.IntegerRange
import SymbolicScript.Proofs.CompoundSizes
import SymbolicScript.Proofs.FrameSteps
import SymbolicScript.Proofs.SlotHistories
import SymbolicScript.Proofs.SlotInstructions
import SymbolicScript.Proofs.SlotRuns
import SymbolicScript.Proofs.FrameBounds
import SymbolicScript.Proofs.Budget
import SymbolicScript.Proofs.EqualSymbols
import SymbolicScript.Proofs.HaltedRuns
import SymbolicScript.Proofs.ItemOrder
import SymbolicScript.Proofs.PrefixAccesses
import SymbolicScript.Proofs.ReturnedValues
import SymbolicScript.Proofs.StructEquality
import SymbolicScript.Proofs.StructCopies
import SymbolicScript.Proofs.ByteSizes
import SymbolicScript.Proofs.ManifestFields
import SymbolicScript.Proofs.InnermostHandler
import SymbolicScript.Proofs.ShortestPushes
import SymbolicScript.Proofs.StraightLine
import SymbolicScript.Proofs.ResolvedHandlers
import SymbolicScript.Proofs.UnresolvedInstructions
import SymbolicScript.Proofs.ModularArithmetic
import SymbolicScript.Proofs.Conversions
import SymbolicScript.Proofs.ByteSplicing
import SymbolicScript.Proofs.CompoundChanges
import SymbolicScript.Proofs.StackRearrangement
import SymbolicScript.Proofs.StepStatus
import SymbolicScript.Proofs.JumpMark
import SymbolicScript.Proofs.SymbolicOperands
import SymbolicScript.Proofs.ErrorOrder
import SymbolicScript.Proofs.Packing
