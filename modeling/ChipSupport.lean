import ChipSupport.Arm.Generate
import ChipSupport.Arm.Header
import ChipSupport.Arm.Memory
import ChipSupport.Arm.Script
import ChipSupport.Arm.ScriptText
import ChipSupport.Bits
import ChipSupport.Calendar
import ChipSupport.CommandLine
import ChipSupport.CommandLine.Switch
import ChipSupport.Comment
import ChipSupport.Data
import ChipSupport.Data.Members
import ChipSupport.Data.Schema
import ChipSupport.Decimal.Nearest
import ChipSupport.Decimal.Read
import ChipSupport.Decimal.Shortest
import ChipSupport.Decimal.Writing
import ChipSupport.Device
import ChipSupport.Device.Config
import ChipSupport.Device.Interrupt
import ChipSupport.Device.Peripheral
import ChipSupport.Document
import ChipSupport.Document.Group
import ChipSupport.Document.Listing
import ChipSupport.Document.Node
import ChipSupport.Fault
import ChipSupport.Files
import ChipSupport.Files.Path
import ChipSupport.Generation
import ChipSupport.Header.Addresses
import ChipSupport.Header.ConfigSettings
import ChipSupport.Header.GroupStruct
import ChipSupport.Header.Instances
import ChipSupport.Header.Pins
import ChipSupport.Header.RegisterBlock
import ChipSupport.Header.VectorTable
import ChipSupport.Layouts
import ChipSupport.License
import ChipSupport.Line
import ChipSupport.Main
import ChipSupport.Markup
import ChipSupport.Markup.Character
import ChipSupport.Markup.Content
import ChipSupport.Markup.Declaration
import ChipSupport.Markup.Mark
import ChipSupport.Markup.Name
import ChipSupport.Markup.Node
import ChipSupport.Markup.Prolog
import ChipSupport.Markup.Reference
import ChipSupport.Mips.Description
import ChipSupport.Mips.Device
import ChipSupport.Mips.Generate
import ChipSupport.Mips.Header
import ChipSupport.Mips.Memory
import ChipSupport.Mips.Script
import ChipSupport.Mips.ScriptText
import ChipSupport.Mode
import ChipSupport.Naming
import ChipSupport.Note
import ChipSupport.Note.Log
import ChipSupport.Program
import ChipSupport.Register
import ChipSupport.Register.Field
import ChipSupport.Register.Layout
import ChipSupport.Register.Vector
import ChipSupport.Script.Region
import ChipSupport.Script.Text
import ChipSupport.Style
import ChipSupport.Style.Settings
import ChipSupport.Text.Base64
import ChipSupport.Text.Blank
import ChipSupport.Text.Column
import ChipSupport.Text.Digit
import ChipSupport.Text.LetterCase
import ChipSupport.Text.Lines
import ChipSupport.Text.Numeral
import ChipSupport.Text.Numeral.Parse
import ChipSupport.Text.Printable
import ChipSupport.Text.Quoted
import ChipSupport.Text.Split
import ChipSupport.Text.Template
import ChipSupport.Text.Wrap
import ChipSupport.Yaml
import ChipSupport.Yaml.Block
import ChipSupport.Yaml.Builder
import ChipSupport.Yaml.Cursor
import ChipSupport.Yaml.Graph
import ChipSupport.Yaml.Kind
import ChipSupport.Yaml.Lexer
import ChipSupport.Yaml.Node
import ChipSupport.Yaml.Plain
import ChipSupport.Yaml.Quoted
import ChipSupport.Yaml.Scalar
import ChipSupport.Yaml.Stamp
import ChipSupport.Yaml.Token
import ChipSupport.Proofs.Steps
import ChipSupport.Proofs.Struct.Members
import ChipSupport.Proofs.Struct.Nest
import ChipSupport.Proofs.Struct.Addresses
import ChipSupport.Proofs.Struct.Overlay
import ChipSupport.Proofs.Bits
import ChipSupport.Proofs.Register.Layout
import ChipSupport.Proofs.Register.Vector
import ChipSupport.Proofs.RegisterBlock.Duplicates
import ChipSupport.Proofs.Document.Group
import ChipSupport.Proofs.Document.Peripheral
import ChipSupport.Proofs.Layouts
import ChipSupport.Proofs.Layouts.Types
import ChipSupport.Proofs.RegisterBlock.SelfContained
import ChipSupport.Proofs.Struct.Types
import ChipSupport.Proofs.ComponentHeader.Unions
import ChipSupport.Proofs.Text.LetterCase
import ChipSupport.Proofs.Struct.References
import ChipSupport.Proofs.Register.Caption
import ChipSupport.Proofs.Register.ModeTable
import ChipSupport.Proofs.RegisterBlock.ClosedForm
import ChipSupport.Proofs.RegisterBlock.Captions
import ChipSupport.Proofs.RegisterBlock.SameAs
import ChipSupport.Proofs.Interrupt.Slots
import ChipSupport.Proofs.Files.Write
import ChipSupport.Proofs.Generation.Plan
import ChipSupport.Proofs.ArmHeader.Plan
import ChipSupport.Proofs.ArmHeader.Places
import ChipSupport.Proofs.ArmHeader.Cache
import ChipSupport.Proofs.ArmHeader.Shared
import ChipSupport.Proofs.ArmHeader.Order
import ChipSupport.Proofs.Sorting
import ChipSupport.Proofs.Mips.MemoryPlan
import ChipSupport.Proofs.Bits.Block
import ChipSupport.Proofs.Device.Config
import ChipSupport.Proofs.Mips.FieldStruct
import ChipSupport.Proofs.Text.Numeral
import ChipSupport.Proofs.ConfigSettings.Expression
import ChipSupport.Proofs.ConfigSettings.Compose
import ChipSupport.Proofs.Text.Lacks
import ChipSupport.Proofs.Naming
import ChipSupport.Proofs.Conditional.Nest
import ChipSupport.Proofs.Conditional.Unbroken
import ChipSupport.Proofs.Conditional.Spelling
import ChipSupport.Proofs.Conditional.Registers
import ChipSupport.Proofs.Conditional.Blocks
import ChipSupport.Proofs.Conditional.Documents
import ChipSupport.Proofs.Conditional.Headers
import ChipSupport.Proofs.Conditional.Mips
import ChipSupport.Proofs.Generation.Texts
import ChipSupport.Proofs.Conditional.Runs
import ChipSupport.Proofs.Formula
import ChipSupport.Proofs.Script.Section
import ChipSupport.Proofs.Script.Region
import ChipSupport.Proofs.Mips.Trampolines
import ChipSupport.Proofs.Data.Schema
import ChipSupport.Proofs.Mips.Description
import ChipSupport.Proofs.Mips.Placements
import ChipSupport.Proofs.Mips.RegionLengths
import ChipSupport.Proofs.Bits.Union
import ChipSupport.Proofs.Register.VectorBits
import ChipSupport.Proofs.RegisterBlock.Setters
import ChipSupport.Proofs.Struct.Offsets
import ChipSupport.Proofs.Mode.Fixpoint
import ChipSupport.Proofs.Register.VectorRuns
import ChipSupport.Proofs.Register.Tiling
import ChipSupport.Proofs.Register.ModeMasks
import ChipSupport.Proofs.RegisterBlock.ModeLookup
import ChipSupport.Proofs.Struct.Coverage
import ChipSupport.Proofs.Text.Numbering
import ChipSupport.Proofs.Struct.Visits
import ChipSupport.Proofs.Struct.AddressNames
import ChipSupport.Proofs.Register.VectorNames
import ChipSupport.Proofs.RegisterBlock.PlaceMacros
import ChipSupport.Proofs.Interrupt.Completeness
import ChipSupport.Proofs.Text.Integer
import ChipSupport.Proofs.Document.Pins
import ChipSupport.Proofs.Arm.MemoryPlan
import ChipSupport.Proofs.Decimal.Whole
import ChipSupport.Proofs.Data.Keys
import ChipSupport.Proofs.Document.Cache
import ChipSupport.Proofs.Text.Wrap
import ChipSupport.Proofs.Comment
import ChipSupport.Proofs.Document.Number
import ChipSupport.Proofs.ArmHeader.Version
import ChipSupport.Proofs.Bits.Extent
import ChipSupport.Proofs.Register.Extent
import ChipSupport.Proofs.Text.Column
import ChipSupport.Proofs.Line
