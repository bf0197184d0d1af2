/-!
# The keypad

Sixteen keys, `0` to `F`, each held down or not.  A key is named by a byte of
which only the low nibble counts.
-/

namespace Chip8Vm

/-- Which keys are held down. -/
abbrev Keypad := Vector Bool 16

namespace Keypad

def count : Nat := 16

def released : Keypad :=
  Vector.replicate 16 false

/-- The key that a byte names. -/
def key (name : UInt8) : Fin 16 :=
  ⟨name.toNat % 16, Nat.mod_lt _ (by decide)⟩

def isDown (keypad : Keypad) (name : UInt8) : Bool :=
  keypad[key name]

def press (keypad : Keypad) (name : UInt8) : Keypad :=
  keypad.set (key name) true

def release (keypad : Keypad) (name : UInt8) : Keypad :=
  keypad.set (key name) false

def lowest? (keypad : Keypad) : Option (Fin 16) :=
  (List.finRange 16).find? fun key => keypad[key]

theorem isDown_press (keypad : Keypad) (pressed name : UInt8) :
    (keypad.press pressed).isDown name =
      if key pressed = key name then true else keypad.isDown name := by
  simp [isDown, press, Vector.getElem_set, Fin.ext_iff]

theorem isDown_release (keypad : Keypad) (released name : UInt8) :
    (keypad.release released).isDown name =
      if key released = key name then false else keypad.isDown name := by
  simp [isDown, release, Vector.getElem_set, Fin.ext_iff]

theorem lowest?_eq_none_iff (keypad : Keypad) :
    keypad.lowest? = none ↔ ∀ key : Fin 16, keypad[key] = false := by
  simp [lowest?]

theorem lowest?_eq_some_iff {keypad : Keypad} {key : Fin 16} :
    keypad.lowest? = some key ↔
      keypad[key] = true ∧ ∀ lower : Fin 16, lower < key → keypad[lower] = false := by
  rw [lowest?, List.find?_eq_some_iff_getElem]
  constructor
  · rintro ⟨down, position, inside, rfl, before⟩
    refine ⟨down, ?_⟩
    intro lower below
    have up := before lower.val (by simpa [Fin.lt_def] using below)
    simpa using up
  · rintro ⟨down, before⟩
    refine ⟨down, key.val, by simp, by simp, ?_⟩
    intro position below
    have up := before ⟨position, Nat.lt_trans below key.isLt⟩ below
    simpa using up

theorem exists_lowest {keypad : Keypad} (down : ∃ key : Fin 16, keypad[key] = true) :
    ∃ key, keypad.lowest? = some key := by
  cases lowest : keypad.lowest? with
  | some key => exact ⟨key, rfl⟩
  | none =>
      obtain ⟨key, held⟩ := down
      cases ((keypad.lowest?_eq_none_iff).mp lowest key).symm.trans held

theorem eq_released {keypad : Keypad} (up : ∀ key : Fin 16, keypad[key] = false) :
    keypad = released := by
  apply Vector.ext
  intro position inside
  rw [released, Vector.getElem_replicate]
  exact up ⟨position, inside⟩

theorem release_released (name : UInt8) : released.release name = released := by
  apply Vector.ext
  intro position inside
  simp [release, released]

end Keypad

end Chip8Vm
