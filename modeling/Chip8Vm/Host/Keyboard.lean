import Chip8Vm.Keypad

/-!
# The host's keyboard

The keypad stands on the four leftmost columns of the keyboard:

    1 2 3 C        1 2 3 4
    4 5 6 D        Q W E R
    7 8 9 E        A S D F
    A 0 B F        Z X C V
-/

namespace Chip8Vm

namespace Host

inductive Key where
  | letter (letter : Char)
  | digit (digit : Nat)
  | numpad (digit : Nat)
  | function (number : Nat)
  | space
  | escape
  | enter
  | tab
  | backspace
  | delete
  | left
  | right
  | up
  | down
  | leftShift
  | rightShift
  | leftControl
  | leftAlt
  | comma
  | period
  | slash
  deriving DecidableEq

/-- The keyboard's key for each key of the keypad. -/
def layout : Vector Key 16 :=
  #v[.letter 'X', .digit 1, .digit 2, .digit 3,
    .letter 'Q', .letter 'W', .letter 'E', .letter 'A',
    .letter 'S', .letter 'D', .letter 'Z', .letter 'C',
    .digit 4, .letter 'R', .letter 'F', .letter 'V']

/-- The key of the keypad that a key of the keyboard stands for. -/
def padKey? (key : Key) : Option (Fin 16) :=
  (List.finRange 16).find? fun padKey => layout.get padKey = key

/-- Something that happened to the window or the keyboard.  The keyboard may
report a key that it cannot name. -/
inductive Event where
  | quit
  | keyDown (key : Option Key)
  | keyUp (key : Option Key)
  | other
  deriving DecidableEq

def Event.closes (event : Event) : Bool :=
  event = .quit || event = .keyDown (some .escape)

end Host

end Chip8Vm
