import EarlyBoot.Bytes.Endian
import EarlyBoot.Bytes.RoundTrip
import EarlyBoot.Text.Hex
import EarlyBoot.Text.Quoted
import EarlyBoot.Word
import EarlyBoot.Memory.Region
import EarlyBoot.Memory.Physical
import EarlyBoot.Log
import EarlyBoot.Supervisor.Status
import EarlyBoot.Supervisor.Hart
import EarlyBoot.Supervisor.Call
import EarlyBoot.Supervisor.Context
import EarlyBoot.DeviceTree.Error
import EarlyBoot.DeviceTree.Header
import EarlyBoot.DeviceTree.Token
import EarlyBoot.DeviceTree.Structure
import EarlyBoot.DeviceTree.Basic
import EarlyBoot.DeviceTree.Property
import EarlyBoot.DeviceTree.Node
import EarlyBoot.DeviceTree.Path
import EarlyBoot.DeviceTree.Writer
import EarlyBoot.HandOff.Guid
import EarlyBoot.HandOff.Attributes
import EarlyBoot.HandOff.Block
import EarlyBoot.HandOff.Error
import EarlyBoot.HandOff.BlockList
import EarlyBoot.HandOff.Encoding
import EarlyBoot.Failure
import EarlyBoot.Attempt
import EarlyBoot.Platform.Config
import EarlyBoot.Platform.Discovery
import EarlyBoot.Platform.MemoryPlan
import EarlyBoot.Platform.Publication
import EarlyBoot.Platform.Harts
import EarlyBoot.Platform.Relocation
import EarlyBoot.Console.Uart
import EarlyBoot.Console.Printer
import EarlyBoot.Boot.Image
import EarlyBoot.Boot.Machine
import EarlyBoot.Boot.Flow
import EarlyBoot.Boot.Outcome
import EarlyBoot.Proofs.Attempt
import EarlyBoot.Proofs.Memory.Region
import EarlyBoot.Proofs.Memory.Overlap
import EarlyBoot.Proofs.Platform.Coverage
import EarlyBoot.Proofs.Memory.Physical
import EarlyBoot.Proofs.Platform.Relocation
import EarlyBoot.Proofs.Supervisor.Context
import EarlyBoot.Proofs.Platform.Migration
import EarlyBoot.Proofs.HandOff.Walk
import EarlyBoot.Proofs.Boot.Frame
import EarlyBoot.Proofs.Boot.HandOver
import EarlyBoot.Proofs.Text.Utf8
import EarlyBoot.Proofs.DeviceTree.Spelling
import EarlyBoot.Proofs.DeviceTree.Grammar
import EarlyBoot.Proofs.DeviceTree.Validation
import EarlyBoot.Proofs.DeviceTree.Written
import EarlyBoot.Proofs.DeviceTree.Blob
import EarlyBoot.Proofs.DeviceTree.Reading
import EarlyBoot.Proofs.DeviceTree.Balance
import EarlyBoot.Proofs.DeviceTree.RoundTrip
import EarlyBoot.Proofs.HandOff.Acceptance
import EarlyBoot.Proofs.HandOff.Decoding
import EarlyBoot.Proofs.Platform.Publication
import EarlyBoot.Proofs.DeviceTree.Draining
import EarlyBoot.Proofs.Platform.Published
import EarlyBoot.Proofs.Platform.Harts
import EarlyBoot.Proofs.Console.Uart
import EarlyBoot.Proofs.Console.Printer
import EarlyBoot.Proofs.Boot.Settlement
import EarlyBoot.Proofs.Boot.Verdict
import EarlyBoot.Proofs.Boot.Target
import EarlyBoot.Proofs.Platform.Refusal
import EarlyBoot.Proofs.Platform.Course
import EarlyBoot.Proofs.Boot.TreeSurvival
import EarlyBoot.Proofs.DeviceTree.Attribution
import EarlyBoot.Proofs.DeviceTree.Nesting
import EarlyBoot.Proofs.DeviceTree.PathLookup
import EarlyBoot.Proofs.DeviceTree.Property
import EarlyBoot.Proofs.Platform.Discovery
import EarlyBoot.Proofs.Platform.HartAccounts
import EarlyBoot.Proofs.Platform.HartStarts
import EarlyBoot.Proofs.Platform.Geometry
import EarlyBoot.Proofs.Boot.HartStacks
import EarlyBoot.Proofs.Platform.VolumePublication
import EarlyBoot.Proofs.DeviceTree.Continuation
import EarlyBoot.Proofs.DeviceTree.LiveBytes
import EarlyBoot.Proofs.DeviceTree.Finishing
import EarlyBoot.Proofs.DeviceTree.TypedReading
import EarlyBoot.Proofs.Console.Delivery
