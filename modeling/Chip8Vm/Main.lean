import Chip8Vm.Host.CommandLine

/-!
# The program

Carries out the actions of a session: pictures go to standard output, the log
to standard error, and each line of standard input is one poll.
-/

namespace Chip8Vm

namespace Host

def report (record : LogRecord) : IO Unit := do
  match record.severity with
  | .trace | .debug => pure ()
  | .info | .warn | .error => IO.eprintln record.line

/-- Carries out actions and gives back the picture written last. -/
def carryOutAll (scale : UInt32) (written : Picture) : List Action → IO Picture
  | [] => pure written
  | .writeTexture picture :: rest => carryOutAll scale picture rest
  | .present :: rest => do
      let output ← IO.getStdout
      output.putStr (Picture.pixmapHeader scale.toNat)
      output.write (ByteArray.mk (written.pixmapBytes scale.toNat).toArray)
      output.flush
      carryOutAll scale written rest
  | .log record :: rest => do
      report record
      carryOutAll scale written rest
  | _ :: rest => carryOutAll scale written rest

def nanosecondsPerTick : Nat :=
  1000000000 / Timers.ticksPerSecond

/-- The program file as it could be opened. -/
def openFile (name : String) : IO (Except String ByteSource) := do
  match ← (IO.FS.readBinFile name).toBaseIO with
  | .ok bytes => pure (.ok (.ofBytes bytes.toList))
  | .error (.noFileOrDirectory _ _ _) => pure (.error noSuchFile)
  | .error problem => pure (.error (toString problem))

/-- Carries out a stretch and then takes turns until the session ends. -/
partial def goOn (scale : UInt32) (stretch : Stretch) (written : Picture)
    (lastTick : Nat) : IO Ending := do
  let written ← carryOutAll scale written stretch.actions
  match stretch.ending with
  | some ending => pure ending
  | none =>
      let line ← (← IO.getStdin).getLine
      let events := if line.isEmpty then [.quit] else eventsOfLine line
      let ticks := ((← IO.monoNanosNow) - lastTick) / nanosecondsPerTick
      IO.sleep (UInt32.ofNat (Machine.nanosecondsPerCycle / 1000000))
      goOn scale (takeTurn stretch.machine { events := events, ticks := ticks }) written
        (lastTick + ticks * nanosecondsPerTick)

def playFile (arguments : Arguments) : IO Ending := do
  let start ← IO.rand 0 0xFFFFFFFF
  let step ← IO.rand 0 0xFFFFFFFF
  let random := RandomStream.progression (UInt64.ofNat start) (UInt64.ofNat step)
  let file ← openFile arguments.rom
  goOn arguments.scale
    (prepare arguments.rom file arguments.scale (.powerOn random)) [] (← IO.monoNanosNow)

end Host

end Chip8Vm

/-- Plays the program file named on the command line. -/
def main (arguments : List String) : IO UInt32 := do
  match Chip8Vm.Host.Arguments.parse? arguments with
  | none =>
      IO.eprintln Chip8Vm.Host.Arguments.usage
      pure 2
  | some arguments =>
      match (← Chip8Vm.Host.playFile arguments).causes with
      | [] => pure 0
      | cause :: causes =>
          IO.eprintln ("Error: " ++ cause)
          causes.forM fun cause => IO.eprintln ("Caused by: " ++ cause)
          pure 1
