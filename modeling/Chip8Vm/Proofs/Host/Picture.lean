import Chip8Vm.Host.Session

/-!
# The bytes of a picture

A picture lays the rows of the screen one after the other and gives every pixel
three bytes, so each byte belongs to one pixel and its place is known from the
row, the column and the channel.  A picture therefore fills the texture that it
is written to, and it can be told from every other screen's picture.
-/

namespace Chip8Vm

/-! ## Lists of equally long blocks -/

section Blocks

variable {α β : Type} {block : α → List β} {width : Nat}

theorem length_flatMap_blocks (uniform : ∀ item, (block item).length = width)
    (items : List α) : (items.flatMap block).length = width * items.length := by
  induction items with
  | nil => rfl
  | cons item rest ih =>
      rw [List.flatMap_cons, List.length_append, uniform, ih, List.length_cons, Nat.mul_succ,
        Nat.add_comm]

/-- The place of an item's block is the place of the item times the width. -/
theorem getElem?_flatMap_blocks (uniform : ∀ item, (block item).length = width)
    (items : List α) (position : Nat) {offset : Nat} (inside : offset < width) :
    (items.flatMap block)[width * position + offset]? =
      items[position]?.bind fun item => (block item)[offset]? := by
  induction items generalizing position with
  | nil => rfl
  | cons item rest ih =>
      rw [List.flatMap_cons]
      cases position with
      | zero =>
          rw [List.getElem?_append_left (by rw [uniform]; omega)]
          simp
      | succ position =>
          have later : width * (position + 1) + offset =
              (block item).length + (width * position + offset) := by
            rw [uniform, Nat.mul_succ]
            omega
          rw [later, List.getElem?_append_right (Nat.le_add_right _ _), Nat.add_sub_cancel_left,
            ih]
          simp

end Blocks

namespace Host

namespace Picture

theorem length_pixel (lit : Bool) : (pixel lit).length = 3 :=
  List.length_replicate

/-- The bytes of one row of the screen. -/
def ofRow (row : Vector Bool 64) : List UInt8 :=
  row.toList.flatMap pixel

theorem length_ofRow (row : Vector Bool 64) : (ofRow row).length = 192 := by
  rw [ofRow, length_flatMap_blocks length_pixel, Vector.length_toList]

theorem ofScreen_eq (screen : Screen) : ofScreen screen = screen.toList.flatMap ofRow := rfl

theorem length_ofScreen (screen : Screen) : (ofScreen screen).length = 6144 := by
  rw [ofScreen_eq, length_flatMap_blocks length_ofRow, Vector.length_toList]

theorem getElem?_pixel (lit : Bool) (channel : Fin 3) :
    (pixel lit)[channel.val]? = some (if lit then 255 else 0) :=
  List.getElem?_replicate_of_lt channel.isLt

theorem getElem?_ofRow (row : Vector Bool 64) (column : Fin 64) (channel : Fin 3) :
    (ofRow row)[3 * column.val + channel.val]? = some (if row[column] then 255 else 0) := by
  have found : row.toList[column.val]? = some row[column] := by simp
  rw [ofRow, getElem?_flatMap_blocks length_pixel _ _ channel.isLt, found]
  exact getElem?_pixel row[column] channel

/-- All three bytes of a pixel say whether it is lit. -/
theorem getElem?_ofScreen (screen : Screen) (row : Fin 32) (column : Fin 64)
    (channel : Fin 3) :
    (ofScreen screen)[3 * (64 * row.val + column.val) + channel.val]? =
      some (if screen.lit ⟨row, column⟩ then 255 else 0) := by
  have found : screen.toList[row.val]? = some screen[row] := by simp
  have place : 3 * (64 * row.val + column.val) + channel.val =
      192 * row.val + (3 * column.val + channel.val) := by
    omega
  have inside : 3 * column.val + channel.val < 192 := by
    omega
  rw [ofScreen_eq, place, getElem?_flatMap_blocks length_ofRow _ _ inside, found]
  exact getElem?_ofRow screen[row] column channel

theorem ofScreen_injective {first second : Screen} (same : ofScreen first = ofScreen second) :
    first = second := by
  apply Screen.eq_of_lit
  intro cell
  have byte := getElem?_ofScreen first cell.row cell.column 0
  rw [same, getElem?_ofScreen second cell.row cell.column 0] at byte
  cases litFirst : first.lit cell with
  | true =>
      cases litSecond : second.lit cell with
      | true => rfl
      | false => simp [litFirst, litSecond] at byte
  | false =>
      cases litSecond : second.lit cell with
      | true => simp [litFirst, litSecond] at byte
      | false => rfl

/-- What is written when the screen is shown fills the texture made for it. -/
theorem written_fits_texture {screen : Screen} {earlier later : List Action}
    {picture : Picture} (split : showing screen = earlier ++ .writeTexture picture :: later) :
    ∃ width height, Action.texture? earlier = some (width, height) ∧
      picture.length = height * width * 3 := by
  unfold showing at split
  cases earlier with
  | nil => cases split
  | cons first rest =>
      cases rest with
      | nil =>
          cases split
          exact ⟨Screen.width, Screen.height, rfl, length_ofScreen screen⟩
      | cons second rest =>
          -- The picture is written once; only the copy and the presentation follow.
          obtain ⟨-, -, remaining⟩ : _ ∧ _ ∧ [.copyTexture, .present] =
              rest ++ .writeTexture picture :: later := by simpa using split
          have member : Action.writeTexture picture ∈ [Action.copyTexture, .present] := by
            rw [remaining]
            exact List.mem_append_right rest List.mem_cons_self
          simp at member

/-- A picture has three bytes for each of the 64 times 32 pixels, as many as the
texture holds that it is written to when the screen is shown.  The bytes of a
pixel stand behind those of all pixels above it and to its left, and each of them
is full exactly if the pixel is lit; so different screens have different
pictures. -/
theorem picture_tells_every_pixel (screen : Screen) :
    (ofScreen screen).length = 32 * 64 * 3 ∧
      (∀ earlier picture later, showing screen = earlier ++ .writeTexture picture :: later →
        ∃ width height, Action.texture? earlier = some (width, height) ∧
          picture.length = height * width * 3) ∧
      (∀ (row : Fin 32) (column : Fin 64) (channel : Fin 3),
        (ofScreen screen)[3 * (64 * row.val + column.val) + channel.val]? =
          some (if screen.lit ⟨row, column⟩ then 255 else 0)) ∧
      ∀ other : Screen, ofScreen screen = ofScreen other ↔ screen = other := by
  refine ⟨length_ofScreen screen, ?_, getElem?_ofScreen screen, ?_⟩
  · intro earlier picture later split
    exact written_fits_texture split
  · intro other
    constructor
    · exact ofScreen_injective
    · intro same
      rw [same]

end Picture

end Host

end Chip8Vm
