import StackRisc.Arithmetic
import StackRisc.Assembly.Draft
import StackRisc.Assembly.Error
import StackRisc.Assembly.Expansion
import StackRisc.Assembly.Scope
import StackRisc.CommandLine.Completion
import StackRisc.CommandLine.Number
import StackRisc.CommandLine.Parse
import StackRisc.CommandLine.Style
import StackRisc.CommandLine.Tree
import StackRisc.CommandLine.Usage
import StackRisc.CommandLine.Words
import StackRisc.Computer.Action
import StackRisc.Computer.Run
import StackRisc.Computer.Service
import StackRisc.Computer.State
import StackRisc.Computer.Step
import StackRisc.Cpu
import StackRisc.Debugger.Argument
import StackRisc.Debugger.Command
import StackRisc.Debugger.Prompt
import StackRisc.Debugger.Session
import StackRisc.Debugger.View
import StackRisc.Decimal.Shortest
import StackRisc.Display.Frame
import StackRisc.Display.Link
import StackRisc.Event
import StackRisc.Fault
import StackRisc.FileSystem
import StackRisc.Host.Disk
import StackRisc.Host.Path
import StackRisc.Instruction
import StackRisc.Json.Error
import StackRisc.Json.Number
import StackRisc.Json.Text
import StackRisc.Json.Value
import StackRisc.Listing
import StackRisc.Literal
import StackRisc.Main
import StackRisc.Memory.Block
import StackRisc.Memory.Map
import StackRisc.Memory.Region
import StackRisc.NameTable
import StackRisc.Opcode
import StackRisc.Proofs.Assembly.Disassembly
import StackRisc.Proofs.Assembly.FirstPass
import StackRisc.Proofs.Assembly.Loading
import StackRisc.Proofs.Assembly.Meaning
import StackRisc.Proofs.Assembly.OneScope
import StackRisc.Proofs.Assembly.Program
import StackRisc.Proofs.Assembly.Reassembly
import StackRisc.Proofs.Assembly.Resolution
import StackRisc.Proofs.Assembly.SecondPass
import StackRisc.Proofs.Encoding
import StackRisc.Proofs.Except
import StackRisc.Proofs.Listing
import StackRisc.Proofs.Memory.Rom
import StackRisc.Proofs.NameTable
import StackRisc.Proofs.Source.Reading
import StackRisc.Proofs.Text.Digits
import StackRisc.Source.Line
import StackRisc.Source.Statement
import StackRisc.Stack
import StackRisc.Symbols
import StackRisc.Symbols.Json
import StackRisc.Syscall
import StackRisc.Text.Backspace
import StackRisc.Text.Blank
import StackRisc.Text.Cluster
import StackRisc.Text.ClusterClass
import StackRisc.Text.CodePoints
import StackRisc.Text.Cursor
import StackRisc.Text.Integer
import StackRisc.Text.Letter
import StackRisc.Text.Numeral
import StackRisc.Text.Quoted
import StackRisc.Text.Visible
import StackRisc.Tool.Assemble
import StackRisc.Tool.Command
import StackRisc.Tool.Debug
import StackRisc.Tool.Dump
import StackRisc.Tool.Error
import StackRisc.Tool.FrameSink
import StackRisc.Tool.Host
import StackRisc.Tool.Request
import StackRisc.Tool.Run
import StackRisc.Tool.World
import StackRisc.Word
import StackRisc.Proofs.Memory.Owner
import StackRisc.Proofs.Memory.Access
import StackRisc.Proofs.Memory.ReadBack
import StackRisc.Proofs.Memory.Containment
import StackRisc.Proofs.Computer.Action
import StackRisc.Proofs.Computer.FileChunk
import StackRisc.Proofs.Computer.Execution
import StackRisc.Proofs.Computer.Guest
import StackRisc.Proofs.Computer.Faults
import StackRisc.Proofs.Computer.AddressMap
import StackRisc.Proofs.Computer.Start
import StackRisc.Proofs.Computer.Surroundings
import StackRisc.Proofs.Computer.Progress
import StackRisc.Proofs.Debugger.Advance
import StackRisc.Proofs.Debugger.Session
import StackRisc.Proofs.Tool.World
import StackRisc.Proofs.Tool.Debug
import StackRisc.Proofs.Computer.Control
import StackRisc.Proofs.Computer.Limit
import StackRisc.Proofs.Display.Schedule
import StackRisc.Proofs.Display.Handoff
import StackRisc.Proofs.Display.Ending
import StackRisc.Proofs.Display.Picture
import StackRisc.Proofs.Computer.Decoding
import StackRisc.Proofs.Text.Literal
import StackRisc.Proofs.Assembly.Values
import StackRisc.Proofs.Debugger.Naming
import StackRisc.Proofs.CommandLine.Words
import StackRisc.Proofs.CommandLine.TypedWord
import StackRisc.Proofs.CommandLine.Completion
import StackRisc.Proofs.Debugger.Typing
import StackRisc.Proofs.Assembly.Labels
import StackRisc.Proofs.Host.Path
import StackRisc.Proofs.Host.Walk
import StackRisc.Proofs.Json.Reading
import StackRisc.Proofs.Symbols.RoundTrip
import StackRisc.Proofs.Computer.PositionIndependence
import StackRisc.Proofs.Text.Blank
import StackRisc.Proofs.Source.Places
import StackRisc.Proofs.Source.Layout
import StackRisc.Proofs.Assembly.Chains
import StackRisc.Proofs.Assembly.SymbolTable
import StackRisc.Proofs.Assembly.Reports
import StackRisc.Proofs.Assembly.Placeless
import StackRisc.Proofs.Text.Numeral
import StackRisc.Proofs.Source.Words
import StackRisc.Proofs.Source.Grammar
import StackRisc.Proofs.Assembly.Operands
import StackRisc.Proofs.Coverage
import StackRisc.Proofs.Arithmetic
import StackRisc.Proofs.Computer.Arithmetic
import StackRisc.Proofs.Computer.Processor
import StackRisc.Proofs.Computer.Widths
import StackRisc.Proofs.Computer.Nesting
import StackRisc.Proofs.Computer.FileCopy
import StackRisc.Proofs.Computer.MacroStore
import StackRisc.Proofs.Assembly.Storing
import StackRisc.Proofs.Memory.Partition
import StackRisc.Proofs.Memory.StackView
import StackRisc.Proofs.Display.Pixels
import StackRisc.Proofs.Debugger.Listing
import StackRisc.Proofs.Debugger.MemoryRows
import StackRisc.Proofs.Host.Disk
import StackRisc.Proofs.Tool.Refusal
import StackRisc.Proofs.Tool.Assemble
import StackRisc.Proofs.Computer.Buffers
import StackRisc.Proofs.Computer.Carry
