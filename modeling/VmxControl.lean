import VmxControl.Bench.CoreStep
import VmxControl.Bench.Desk
import VmxControl.Bench.MemoryStep
import VmxControl.Bench.NativeSession
import VmxControl.Bench.Object
import VmxControl.Bench.Probe
import VmxControl.Bench.ProcessorStep
import VmxControl.Bench.Reply
import VmxControl.Bench.Rig
import VmxControl.Bench.Session
import VmxControl.Bench.SnapshotStep
import VmxControl.Bench.State
import VmxControl.Capability
import VmxControl.Command
import VmxControl.Control
import VmxControl.ControlGroup
import VmxControl.Core
import VmxControl.Core.Guest
import VmxControl.Core.Invalidation
import VmxControl.Core.Operation
import VmxControl.Core.Record
import VmxControl.Core.Transition
import VmxControl.Detection
import VmxControl.Dispatch
import VmxControl.Emulator
import VmxControl.ExitReason
import VmxControl.Failure
import VmxControl.Field
import VmxControl.Frame
import VmxControl.Holder
import VmxControl.InstructionError
import VmxControl.Invalidation
import VmxControl.Machine
import VmxControl.Memory
import VmxControl.Mnemonic
import VmxControl.Msr
import VmxControl.Native.HostState
import VmxControl.Native.Software
import VmxControl.Native.TaskSegment
import VmxControl.Native.Trampoline
import VmxControl.Note
import VmxControl.Observer
import VmxControl.Processor
import VmxControl.Proofs.Accounts
import VmxControl.Proofs.Adjustment
import VmxControl.Proofs.Atomicity
import VmxControl.Proofs.Attempts
import VmxControl.Proofs.Boot
import VmxControl.Proofs.Bytes
import VmxControl.Proofs.Confinement
import VmxControl.Proofs.Conservation
import VmxControl.Proofs.Counting
import VmxControl.Proofs.CurrentStructure
import VmxControl.Proofs.Decoding
import VmxControl.Proofs.Detection
import VmxControl.Proofs.Dropping
import VmxControl.Proofs.Entering
import VmxControl.Proofs.Execution
import VmxControl.Proofs.ExitQueue
import VmxControl.Proofs.Features
import VmxControl.Proofs.FieldStore
import VmxControl.Proofs.FirstFailure
import VmxControl.Proofs.Footing
import VmxControl.Proofs.FrameStore
import VmxControl.Proofs.Holding
import VmxControl.Proofs.HostCapture
import VmxControl.Proofs.Imprint
import VmxControl.Proofs.Interleaving
import VmxControl.Proofs.Invalidating
import VmxControl.Proofs.Journal
import VmxControl.Proofs.LaunchState
import VmxControl.Proofs.Ledger
import VmxControl.Proofs.Masking
import VmxControl.Proofs.Mode
import VmxControl.Proofs.Moves
import VmxControl.Proofs.Operation
import VmxControl.Proofs.Projection
import VmxControl.Proofs.Readiness
import VmxControl.Proofs.Reading
import VmxControl.Proofs.Recording
import VmxControl.Proofs.Refusal
import VmxControl.Proofs.Replay
import VmxControl.Proofs.Scripted
import VmxControl.Proofs.Shutdown
import VmxControl.Proofs.Stamping
import VmxControl.Proofs.Stance
import VmxControl.Proofs.Standing
import VmxControl.Proofs.Station
import VmxControl.Proofs.Succession
import VmxControl.Proofs.TagSharing
import VmxControl.Proofs.TaskSegment
import VmxControl.Proofs.Tenure
import VmxControl.Proofs.Trampoline
import VmxControl.Proofs.Transition
import VmxControl.Proofs.Verdict
import VmxControl.Recorder
import VmxControl.Region
import VmxControl.Registers
import VmxControl.Run
import VmxControl.Script
import VmxControl.Store
import VmxControl.Tag
import VmxControl.Telemetry
import VmxControl.Text
import VmxControl.Text.Shapeless
import VmxControl.Trap
