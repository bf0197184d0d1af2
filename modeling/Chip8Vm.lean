import Chip8Vm.Text.Numeral
import Chip8Vm.Word
import Chip8Vm.Memory
import Chip8Vm.Glyph
import Chip8Vm.Registers
import Chip8Vm.Screen
import Chip8Vm.Screen.Sprite
import Chip8Vm.CallStack
import Chip8Vm.Keypad
import Chip8Vm.Timers
import Chip8Vm.RandomStream
import Chip8Vm.Instruction.Basic
import Chip8Vm.Instruction.Encoding
import Chip8Vm.Instruction.Mnemonic
import Chip8Vm.Failure
import Chip8Vm.Machine.Basic
import Chip8Vm.Machine.Execution
import Chip8Vm.Instruction.Listing
import Chip8Vm.Log
import Chip8Vm.Machine.Cycle
import Chip8Vm.ByteSource
import Chip8Vm.Machine.Program
import Chip8Vm.Machine.Operation
import Chip8Vm.Host.Keyboard
import Chip8Vm.Host.Picture
import Chip8Vm.Host.Action
import Chip8Vm.Host.Device
import Chip8Vm.Host.Session
import Chip8Vm.Host.CommandLine
import Chip8Vm.Main
import Chip8Vm.Proofs.Instruction.Spelling
import Chip8Vm.Proofs.Machine.Footprint
import Chip8Vm.Proofs.Machine.Run
import Chip8Vm.Proofs.Machine.Demand
import Chip8Vm.Proofs.Machine.Bounds
import Chip8Vm.Proofs.Machine.CycleContract
import Chip8Vm.Proofs.Machine.PendingCalls
import Chip8Vm.Proofs.Machine.Viewer
import Chip8Vm.Proofs.Machine.Devices
import Chip8Vm.Proofs.Machine.Interleaving
import Chip8Vm.Proofs.ByteSource
import Chip8Vm.Proofs.Machine.Effects
import Chip8Vm.Proofs.Machine.Provenance
import Chip8Vm.Proofs.Machine.RandomDraws
import Chip8Vm.Proofs.Machine.RunPair
import Chip8Vm.Proofs.Machine.Congruence
import Chip8Vm.Proofs.Machine.KeyTiming
import Chip8Vm.Proofs.Host.Timeline
import Chip8Vm.Proofs.Host.Window
import Chip8Vm.Proofs.Machine.Standstill
import Chip8Vm.Proofs.Machine.Countdown
import Chip8Vm.Proofs.Machine.Outputs
import Chip8Vm.Proofs.Host.Live
import Chip8Vm.Proofs.Host.Refusal
import Chip8Vm.Proofs.Host.Finish
import Chip8Vm.Proofs.Screen
import Chip8Vm.Proofs.Machine.Drawing
import Chip8Vm.Proofs.Machine.Loading
import Chip8Vm.Proofs.Machine.RegisterDump
import Chip8Vm.Proofs.Machine.FlagArithmetic
import Chip8Vm.Proofs.Machine.ExecutionEnds
import Chip8Vm.Proofs.Machine.WriteFootprint
import Chip8Vm.Proofs.Machine.DecimalDigits
import Chip8Vm.Proofs.Machine.ReadFootprint
import Chip8Vm.Proofs.Host.HeldKeys
import Chip8Vm.Proofs.Host.Picture
import Chip8Vm.Proofs.Text.Numeral
import Chip8Vm.Proofs.Instruction.Assembly
import Chip8Vm.Proofs.Text.Column
import Chip8Vm.Proofs.Machine.TraceLines
