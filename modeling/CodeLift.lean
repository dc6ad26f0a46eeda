import CodeLift.Address
import CodeLift.Address.Text
import CodeLift.Architecture
import CodeLift.ByteOrder
import CodeLift.Cli.Command
import CodeLift.Cli.Program
import CodeLift.Cli.Report
import CodeLift.Cli.Tokens
import CodeLift.Condition
import CodeLift.Constant
import CodeLift.DecodeError
import CodeLift.Event
import CodeLift.Flag
import CodeLift.Frame
import CodeLift.Host
import CodeLift.Image
import CodeLift.Image.Reader
import CodeLift.Image.Segment
import CodeLift.Image.Writer
import CodeLift.InPlace
import CodeLift.Instruction
import CodeLift.Json
import CodeLift.Main
import CodeLift.Operand
import CodeLift.Options
import CodeLift.Procedure
import CodeLift.Processor
import CodeLift.Proofs.AddressText
import CodeLift.Proofs.Composition
import CodeLift.Proofs.DecoratedNames
import CodeLift.Proofs.Displacement
import CodeLift.Proofs.EntrySegment
import CodeLift.Proofs.FlagNames
import CodeLift.Proofs.FrameSlots
import CodeLift.Proofs.Identifiers
import CodeLift.Proofs.Image.Positions
import CodeLift.Proofs.Image.Reading
import CodeLift.Proofs.Image.Segments
import CodeLift.Proofs.Image.Writing
import CodeLift.Proofs.Limits
import CodeLift.Proofs.Lists
import CodeLift.Proofs.Options
import CodeLift.Proofs.Policies
import CodeLift.Proofs.Register.Masks
import CodeLift.Proofs.Register.Tables
import CodeLift.Proofs.RegisterWidths
import CodeLift.Proofs.Relocation
import CodeLift.Proofs.Restoring
import CodeLift.Proofs.Rtl.Constants
import CodeLift.Proofs.Rtl.Folding
import CodeLift.Proofs.Rtl.Regions
import CodeLift.Proofs.Scanning
import CodeLift.Proofs.Stages
import CodeLift.Proofs.Text.Blank
import CodeLift.Proofs.Text.Hex
import CodeLift.Proofs.Text.Numeral
import CodeLift.Proofs.Tiling
import CodeLift.Proofs.X86.Calls
import CodeLift.Proofs.X86.ControlFlow
import CodeLift.Proofs.X86.CopyIdiom
import CodeLift.Proofs.X86.Coverage
import CodeLift.Proofs.X86.Decoding
import CodeLift.Proofs.X86.EffectiveAddresses
import CodeLift.Proofs.X86.EffectiveSizes
import CodeLift.Proofs.X86.FlagState
import CodeLift.Proofs.X86.Items
import CodeLift.Proofs.X86.Portions
import CodeLift.Proofs.X86.PrefixCode
import CodeLift.Proofs.X86.PushPop
import CodeLift.Proofs.X86.References
import CodeLift.Proofs.X86.RegisterConstants
import CodeLift.Proofs.X86.Relocation
import CodeLift.Proofs.X86.Rewriter
import CodeLift.Proofs.X86.Stack
import CodeLift.Proofs.X86.StackDepth
import CodeLift.Proofs.X86.StackPointer
import CodeLift.Proofs.X86.StackSlots
import CodeLift.Proofs.X86.Statements
import CodeLift.Proofs.X86.Steps
import CodeLift.Proofs.X86.TrackedStack
import CodeLift.Proofs.X86.WellTyped
import CodeLift.Register
import CodeLift.Register.Table
import CodeLift.Registry
import CodeLift.Rtl.Expr
import CodeLift.Rtl.Fold
import CodeLift.Rtl.Machine
import CodeLift.Rtl.Stmt
import CodeLift.Rtl.Tree
import CodeLift.Saved
import CodeLift.Scan
import CodeLift.Signature
import CodeLift.State
import CodeLift.Storage
import CodeLift.Store
import CodeLift.Text.Blank
import CodeLift.Text.Folding
import CodeLift.Text.Hex
import CodeLift.Text.Numeral
import CodeLift.Text.Printable
import CodeLift.Text.Quoted
import CodeLift.Text.Unassigned
import CodeLift.Width
import CodeLift.X86.Cursor
import CodeLift.X86.Decoder
import CodeLift.X86.Feed
import CodeLift.X86.Form
import CodeLift.X86.ModRM
import CodeLift.X86.Mode
import CodeLift.X86.Prefixes
import CodeLift.X86.Progress
import CodeLift.X86.Reference
import CodeLift.X86.Registers
import CodeLift.X86.Rewriter
import CodeLift.X86.Run
import CodeLift.X86.Translation
