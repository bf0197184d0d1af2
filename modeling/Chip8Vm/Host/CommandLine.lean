import Chip8Vm.Host.Session

/-!
# The command line

A program file and a scale are given as arguments.  The window is a stream:
each line read is one poll, its words the events, and each picture presented
is written as a pixmap.
-/

namespace Chip8Vm

namespace Host

/-- What the command line asks for. -/
structure Arguments where
  rom : String
  scale : UInt32

namespace Arguments

def usage : String := "usage: chip8 ROM [--scale SIZE]"

def scale? (text : String) : Option UInt32 :=
  match text.toNat? with
  | some value => if value < UInt32.size then some (UInt32.ofNat value) else none
  | none => none

/-- Reads the arguments that remain; the program file may stand anywhere. -/
def read? (rom : Option String) (scale : UInt32) : List String → Option Arguments
  | [] => rom.map fun rom => { rom := rom, scale := scale }
  | "--scale" :: size :: rest | "-s" :: size :: rest =>
      (scale? size).bind fun scale => read? rom scale rest
  | argument :: rest =>
      if rom.isSome || argument.startsWith "-" then
        none
      else
        read? (some argument) scale rest

def parse? (arguments : List String) : Option Arguments :=
  read? none defaultScale arguments

end Arguments

def keyNamed? (name : String) : Option Key :=
  match name.toList with
  | [character] =>
      if character.isDigit then some (.digit (character.toNat - '0'.toNat))
      else if character.isAlpha then some (.letter character.toUpper)
      else none
  | _ => if name = "escape" then some .escape else none

/-- The event that a word names: `+` and `-` stand for a key that goes down or
comes up. -/
def eventNamed (word : String) : Event :=
  match word.toList with
  | '+' :: name => .keyDown (keyNamed? (String.ofList name))
  | '-' :: name => .keyUp (keyNamed? (String.ofList name))
  | _ => if word = "quit" then .quit else .other

def eventsOfLine (line : String) : List Event :=
  ((line.trimAscii.toString.splitOn " ").filter fun word => !word.isEmpty).map eventNamed

namespace Picture

/-- The rows of a picture, three bytes for each of 64 pixels. -/
def rows (picture : Picture) : List (List UInt8) :=
  (List.range Screen.height).map fun row =>
    (picture.drop (row * (3 * Screen.width))).take (3 * Screen.width)

def widened (scale : Nat) (row : List UInt8) : List UInt8 :=
  (List.range Screen.width).flatMap fun column =>
    (List.replicate scale ((row.drop (3 * column)).take 3)).flatten

/-- The header of a binary pixmap of the screen's size times a scale. -/
def pixmapHeader (scale : Nat) : String :=
  "P6 " ++ Numeral.decimal (Screen.width * scale)
    ++ " " ++ Numeral.decimal (Screen.height * scale) ++ " 255\n"

def pixmapBytes (scale : Nat) (picture : Picture) : List UInt8 :=
  picture.rows.flatMap fun row => (List.replicate scale (widened scale row)).flatten

end Picture

end Host

end Chip8Vm
