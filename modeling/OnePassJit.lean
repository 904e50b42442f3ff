import OnePassJit.Ir.Types
import OnePassJit.Ir.Operation
import OnePassJit.Ir.Module
import OnePassJit.Register
import OnePassJit.Location
import OnePassJit.Error
import OnePassJit.ValueStack
import OnePassJit.LabelTable
import OnePassJit.Exit
import OnePassJit.Instance.Memory
import OnePassJit.Instance.Table
import OnePassJit.CodeSegment
import OnePassJit.Script.ValueStack
import OnePassJit.Script.LabelTable
import OnePassJit.ModuleDef
import OnePassJit.Config
import OnePassJit.Json.Node
import OnePassJit.Text.Blank
import OnePassJit.Text.Unsigned
import OnePassJit.Ieee.Shortest
import OnePassJit.Json.Write
import OnePassJit.Json.Read
import OnePassJit.Json.Decode
import OnePassJit.Request.Decode
import OnePassJit.Amd64.Reg
import OnePassJit.Arm64.Reg
import OnePassJit.Request.Inspect
import OnePassJit.Request.Answer
import OnePassJit.Amd64.Instr
import OnePassJit.Amd64.Encode
import OnePassJit.Amd64.Layout
import OnePassJit.Amd64.Asm
import OnePassJit.Abi
import OnePassJit.Amd64.Emit
import OnePassJit.Amd64.Control
import OnePassJit.Amd64.Memory
import OnePassJit.Amd64.Numeric
import OnePassJit.Amd64.Vector
import OnePassJit.Backend
import OnePassJit.Amd64.Lower
import OnePassJit.Session
import OnePassJit.Request.Compile
import OnePassJit.Ieee.Format
import OnePassJit.Ieee.Round
import OnePassJit.Ieee.Arith
import OnePassJit.Arm64.Word
import OnePassJit.Arm64.Encoder
import OnePassJit.Arm64.Emit
import OnePassJit.Arm64.Control
import OnePassJit.Arm64.Memory
import OnePassJit.Arm64.Numeric
import OnePassJit.Arm64.Vector
import OnePassJit.Arm64.Lower
import OnePassJit.Amd64.Machine.AddressSpace
import OnePassJit.Amd64.Machine.Cpu
import OnePassJit.Amd64.Machine.Alu
import OnePassJit.Amd64.Machine.Sse
import OnePassJit.Amd64.Machine.Step
import OnePassJit.Engine.Error
import OnePassJit.Engine.Image
import OnePassJit.Engine.Instance
import OnePassJit.Engine.Call
import OnePassJit.Elf.StringTable
import OnePassJit.Elf.Object
import OnePassJit.Proofs.RegSet
import OnePassJit.Proofs.Wp
import OnePassJit.Proofs.Layout
import OnePassJit.Proofs.StackOps
import OnePassJit.Proofs.Frames
import OnePassJit.Proofs.Allocation
import OnePassJit.Proofs.Residence
import OnePassJit.Proofs.Labels
import OnePassJit.Proofs.Run
import OnePassJit.Proofs.Branches
import OnePassJit.Proofs.Amd64.Primitives
import OnePassJit.Proofs.Amd64.Control
import OnePassJit.Proofs.Amd64.Numeric
import OnePassJit.Proofs.Amd64.Memory
import OnePassJit.Proofs.Amd64.Vector
import OnePassJit.Proofs.Amd64.Lowering
import OnePassJit.Proofs.Arm64.Primitives
import OnePassJit.Proofs.Arm64.Control
import OnePassJit.Proofs.Arm64.Numeric
import OnePassJit.Proofs.Arm64.Memory
import OnePassJit.Proofs.Arm64.Vector
import OnePassJit.Proofs.Arm64.Lowering
import OnePassJit.Proofs.BetweenOperations
import OnePassJit.Proofs.BranchEntries
import OnePassJit.Proofs.ParallelCompilation
import OnePassJit.Proofs.Machine.Bytes
import OnePassJit.Proofs.Machine.Exec
import OnePassJit.Proofs.Machine.Runs
import OnePassJit.Proofs.Machine.Represent
import OnePassJit.Proofs.Machine.Spill
import OnePassJit.Proofs.Machine.Moves
import OnePassJit.Proofs.Machine.Guards
import OnePassJit.Proofs.Machine.Division
import OnePassJit.Proofs.Machine.Entry
import OnePassJit.Proofs.Machine.Operands
import OnePassJit.Proofs.Machine.IntegerDivision
import OnePassJit.Proofs.Ieee.Order
import OnePassJit.Proofs.Ieee.Rounding
import OnePassJit.Proofs.Machine.Scalar
import OnePassJit.Proofs.Machine.FloatBinary
import OnePassJit.Proofs.ListModel
import OnePassJit.Proofs.Machine.CountZeros
import OnePassJit.Proofs.Machine.FloatCode
import OnePassJit.Proofs.Machine.Conversion
import OnePassJit.Proofs.Ieee.Truncation
import OnePassJit.Proofs.Machine.Truncation
import OnePassJit.Proofs.SegmentLayout
import OnePassJit.Proofs.StackFailures
import OnePassJit.Proofs.Growth
import OnePassJit.Proofs.Machine.Release
import OnePassJit.Proofs.Machine.Host
import OnePassJit.Proofs.LabelHistory
import OnePassJit.Proofs.Arm64.MoveWide
import OnePassJit.Proofs.Machine.ExitCheck
import OnePassJit.Proofs.Engine.Closing
import OnePassJit.Proofs.Engine.TableGrowth
import OnePassJit.Proofs.Machine.Tables
import OnePassJit.Proofs.Engine.TypeIds
import OnePassJit.Proofs.Machine.IndirectCall
import OnePassJit.Proofs.Arm64.LabelFixups
import OnePassJit.Proofs.Arm64.Addressing
import OnePassJit.Proofs.Machine.MemoryAccess
