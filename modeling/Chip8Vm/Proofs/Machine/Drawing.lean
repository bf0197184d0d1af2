import Chip8Vm.Proofs.Machine.Demand
import Chip8Vm.Proofs.Memory
import Chip8Vm.Proofs.Screen

/-!
# Drawing sprites

Drawing is a loop that flips one pixel after the other and notes a collision on
the way.  Here it is described pixel by pixel: the bit of the sprite over a pixel
decides whether it is flipped, and the flag says whether a flipped pixel was lit
before.  Several drawings whose corners do not depend on the flag can be exchanged,
and drawing everything again takes it all away.
-/

namespace Chip8Vm

namespace Machine

/-- Whether the sprite of `rows` bytes at the index has a set bit over a pixel.  Its
corner is given by two registers, its leftmost column by the highest bits. -/
def spriteBit (machine : Machine) (x y : Register) (rows : UInt8) (cell : Screen.Cell) : Bool :=
  let row := Sprite.rowOver (machine.registers.read y).toNat cell
  let column := Sprite.columnOver (machine.registers.read x).toNat cell
  decide (row < rows.toNat) && decide (column < 8) &&
    (machine.memory.byteAt (machine.index.toNat + row)).toNat.testBit (7 - column)

theorem spriteBit_iff (machine : Machine) (x y : Register) (rows : UInt8) (cell : Screen.Cell) :
    machine.spriteBit x y rows cell = true ↔
      Sprite.rowOver (machine.registers.read y).toNat cell < rows.toNat ∧
        Sprite.columnOver (machine.registers.read x).toNat cell < 8 ∧
        (machine.memory.byteAt (machine.index.toNat +
          Sprite.rowOver (machine.registers.read y).toNat cell)).toNat.testBit
            (7 - Sprite.columnOver (machine.registers.read x).toNat cell) = true := by
  simp only [spriteBit, Bool.and_eq_true, decide_eq_true_eq, and_assoc]

theorem length_sprite (machine : Machine) {rows : UInt8} (low : rows.toNat ≤ 32) :
    (machine.memory.readAll machine.index rows.toNat).length ≤ 32 := by
  rwa [Memory.length_readAll]

theorem mem_spriteCells (machine : Machine) (x y : Register) {rows : UInt8}
    (low : rows.toNat ≤ 32) (cell : Screen.Cell) :
    cell ∈ machine.spriteCells x y rows ↔ machine.spriteBit x y rows cell = true := by
  rw [spriteCells, Sprite.mem_cells (machine.length_sprite low), Memory.getElem?_readAll,
    spriteBit_iff]
  by_cases inside : Sprite.rowOver (machine.registers.read y).toNat cell < rows.toNat
  · simp [inside]
  · simp [inside]

theorem nodup_spriteCells (machine : Machine) (x y : Register) {rows : UInt8}
    (low : rows.toNat ≤ 32) : (machine.spriteCells x y rows).Nodup :=
  Sprite.nodup_cells _ _ (machine.length_sprite low)

theorem execute_draw (machine : Machine) (x y : Register) (rows : UInt8) :
    machine.execute (.draw x y rows) =
      .ok (machine.flipCells (machine.spriteCells x y rows)) := by
  simp only [execute, register_of_lt x.isLt, register_of_lt y.isLt]
  rfl

theorem read_flipCells (machine : Machine) (cells : List Screen.Cell) (register : Register) :
    (machine.flipCells cells).registers.read register =
      if Registers.flag = register then (machine.screen.collides cells).toUInt8
      else machine.registers.read register :=
  machine.registers.read_write _ _ _

theorem read_flag_flipCells_eq_one_iff (machine : Machine) (cells : List Screen.Cell) :
    (machine.flipCells cells).registers.read Registers.flag = 1 ↔
      machine.screen.collides cells = true := by
  rw [read_flipCells, if_pos rfl]
  cases machine.screen.collides cells <;> decide

theorem read_flag_flipCells_eq_zero_iff (machine : Machine) (cells : List Screen.Cell) :
    (machine.flipCells cells).registers.read Registers.flag = 0 ↔
      ¬(machine.flipCells cells).registers.read Registers.flag = 1 := by
  rw [read_flipCells, if_pos rfl]
  cases machine.screen.collides cells <;> decide

theorem read_flag_sprite_iff (machine : Machine) (x y : Register) {rows : UInt8}
    (low : rows.toNat ≤ 32) :
    (machine.flipCells (machine.spriteCells x y rows)).registers.read Registers.flag = 1 ↔
      ∃ cell, machine.spriteBit x y rows cell = true ∧ machine.screen.lit cell = true := by
  have distinct := machine.nodup_spriteCells x y low
  rw [read_flag_flipCells_eq_one_iff, machine.screen.collides_iff_of_nodup distinct]
  exact exists_congr fun cell => and_congr_left' (machine.mem_spriteCells x y low cell)

/-- Drawing a sprite of up to 32 rows, pixel by pixel.  The corner is that of the
machine before, also where one of its registers is the flag. -/
theorem draw_flips_sprite_bits (machine : Machine) (x y : Register) {rows : UInt8}
    (low : rows.toNat ≤ 32) :
    ∃ next, machine.execute (.draw x y rows) = .ok next ∧
      (∀ cell, next.screen.lit cell =
        (machine.screen.lit cell ^^ machine.spriteBit x y rows cell)) ∧
      (next.registers.read Registers.flag = 1 ↔
        ∃ cell, machine.spriteBit x y rows cell = true ∧ machine.screen.lit cell = true) ∧
      (next.registers.read Registers.flag = 0 ↔
        ¬∃ cell, machine.spriteBit x y rows cell = true ∧ machine.screen.lit cell = true) ∧
      (∀ register, register ≠ Registers.flag →
        next.registers.read register = machine.registers.read register) ∧
      next.redraw = true ∧
      next.pc.toNat = (machine.pc.toNat + 2) % 0x1000 ∧
      next =
        { machine with
          screen := next.screen, registers := next.registers, redraw := next.redraw,
          pc := next.pc } := by
  have collision := machine.read_flag_sprite_iff x y low
  refine ⟨_, machine.execute_draw x y rows, ?_, collision, ?_, ?_, rfl,
    toNat_following machine.pc, rfl⟩
  · intro cell
    have distinct := machine.nodup_spriteCells x y low
    refine (machine.screen.lit_flipAll_of_nodup distinct cell).trans ?_
    simp only [machine.mem_spriteCells x y low, Bool.decide_eq_true]
  · rw [read_flag_flipCells_eq_zero_iff, collision]
  · intro register other
    rw [read_flipCells, if_neg other.symm]

/-- The glyph of zero drawn with its corner in the flag register reaches over two
edges of the screen. -/
theorem glyph_drawn_over_edges :
    let machine := { powerOn (.progression 0 0) with
      index := 0x050, registers := Vector.replicate 16 62 }
    ∃ next, machine.execute (.draw 15 15 5) = .ok next ∧
      next.screen.lit ⟨30, 0⟩ = true ∧ next.screen.lit ⟨1, 63⟩ = false ∧
      next.registers.read Registers.flag = 0 := by
  intro machine
  obtain ⟨next, executed, pixels, -, clear, -⟩ :=
    @draw_flips_sprite_bits machine 15 15 5 (by decide)
  refine ⟨next, executed, ?_, ?_, ?_⟩
  · rw [pixels]
    decide +kernel
  · rw [pixels]
    decide +kernel
  · rw [clear]
    rintro ⟨cell, -, lit⟩
    cases (Screen.lit_blank cell).symm.trans lit

end Machine

/-! ## Several drawings -/

/-- A sprite to be drawn: where its bytes begin, which registers hold its corner and
how many rows it has.  The registers are `V0` to `VE`, so that no drawing moves the
corner of another one through the flag. -/
structure Drawing where
  index : Word
  x : Fin 15
  y : Fin 15
  rows : UInt8

namespace Machine

/-- The machine with its index where the bytes of a sprite begin. -/
def aimedAt (machine : Machine) (drawing : Drawing) : Machine :=
  { machine with index := drawing.index }

def draw (machine : Machine) (drawing : Drawing) : Except Stop Machine :=
  (machine.aimedAt drawing).execute (.draw drawing.x.val drawing.y.val drawing.rows)

/-- Executes drawings one after the other. -/
def drawAll (machine : Machine) (drawings : List Drawing) : Except Stop Machine :=
  drawings.foldlM draw machine

/-- Whether the bytes of a sprite have a set bit. -/
def HasSetBit (machine : Machine) (drawing : Drawing) : Prop :=
  ∃ row bit, row < drawing.rows.toNat ∧ bit < 8 ∧
    (machine.memory.byteAt (drawing.index.toNat + row)).toNat.testBit bit = true

/-- Whether a drawing has a set bit over a pixel. -/
def drawingBit (machine : Machine) (drawing : Drawing) (cell : Screen.Cell) : Bool :=
  (machine.aimedAt drawing).spriteBit drawing.x.castSucc drawing.y.castSucc drawing.rows cell

/-- The pixels that a drawing flips, one after the other. -/
def drawingCells (machine : Machine) (drawing : Drawing) : List Screen.Cell :=
  (machine.aimedAt drawing).spriteCells drawing.x.castSucc drawing.y.castSucc drawing.rows

def drawn (machine : Machine) (drawing : Drawing) : Machine :=
  (machine.aimedAt drawing).flipCells (machine.drawingCells drawing)

theorem draw_eq (machine : Machine) (drawing : Drawing) :
    machine.draw drawing = .ok (machine.drawn drawing) :=
  (machine.aimedAt drawing).execute_draw drawing.x.castSucc drawing.y.castSucc drawing.rows

theorem castSucc_ne_flag (register : Fin 15) : Registers.flag ≠ register.castSucc := by
  intro same
  have number : 15 = register.val := congrArg Fin.val same
  omega

/-- A drawing changes neither the corner of another one nor its bytes. -/
theorem drawingCells_drawn (machine : Machine) (earlier later : Drawing) :
    (machine.drawn earlier).drawingCells later = machine.drawingCells later := by
  have kept : ∀ register : Fin 15,
      (machine.drawn earlier).registers.read register.castSucc =
        machine.registers.read register.castSucc := by
    intro register
    exact (read_flipCells _ _ _).trans (if_neg (castSucc_ne_flag register))
  change Sprite.cells ((machine.drawn earlier).registers.read later.y.castSucc).toNat
    ((machine.drawn earlier).registers.read later.x.castSucc).toNat _ = _
  rw [kept, kept]
  rfl

theorem drawAll_screen (machine : Machine) (drawings : List Drawing) :
    ∃ next, machine.drawAll drawings = .ok next ∧
      next.screen = machine.screen.flipAll (drawings.flatMap machine.drawingCells) := by
  induction drawings generalizing machine with
  | nil => exact ⟨machine, rfl, rfl⟩
  | cons drawing rest ih =>
      obtain ⟨next, finished, screen⟩ := ih (machine.drawn drawing)
      refine ⟨next, ?_, ?_⟩
      · rw [drawAll, List.foldlM_cons, draw_eq]
        exact finished
      · have same : (machine.drawn drawing).drawingCells = machine.drawingCells :=
          funext (machine.drawingCells_drawn drawing)
        rw [screen, same, List.flatMap_cons, Screen.flipAll_append]
        rfl

/-! ## Drawing twice -/

theorem exists_drawingBit_iff (machine : Machine) {drawing : Drawing}
    (low : drawing.rows.toNat ≤ 32) :
    (∃ cell, machine.drawingBit drawing cell = true) ↔ machine.HasSetBit drawing := by
  simp only [drawingBit, spriteBit_iff]
  constructor
  · rintro ⟨cell, inside, narrow, set⟩
    exact ⟨_, _, inside, by omega, set⟩
  · rintro ⟨row, bit, inside, narrow, set⟩
    -- The pixel under that bit: the highest bit stands in the leftmost column.
    refine ⟨Screen.cellAt ((machine.registers.read drawing.y.castSucc).toNat + row)
      ((machine.registers.read drawing.x.castSucc).toNat + (7 - bit)), ?_⟩
    have column : 7 - (7 - bit) = bit := by omega
    simp only [aimedAt]
    rw [Sprite.rowOver_cellAt _ _ (by omega), Sprite.columnOver_cellAt _ _ (by omega), column]
    exact ⟨inside, by omega, set⟩

theorem read_flag_drawn_iff (machine : Machine) {drawing : Drawing}
    (low : drawing.rows.toNat ≤ 32) :
    (machine.drawn drawing).registers.read Registers.flag = 1 ↔
      ∃ cell, machine.drawingBit drawing cell = true ∧ machine.screen.lit cell = true :=
  (machine.aimedAt drawing).read_flag_sprite_iff drawing.x.castSucc drawing.y.castSucc low

theorem read_flag_drawn_twice_iff (machine : Machine) {drawing : Drawing}
    (low : drawing.rows.toNat ≤ 32) :
    ((machine.drawn drawing).drawn drawing).registers.read Registers.flag = 1 ↔
      ∃ cell, machine.drawingBit drawing cell = true ∧ machine.screen.lit cell = false := by
  have distinct : (machine.drawingCells drawing).Nodup := nodup_spriteCells _ _ _ low
  rw [drawn, read_flag_flipCells_eq_one_iff, drawingCells_drawn]
  refine (machine.screen.collides_flipAll_iff_of_nodup distinct).trans ?_
  exact exists_congr fun cell => and_congr_left' (mem_spriteCells _ _ _ low cell)

/-- Drawings act on the screen by exclusive or: their order does not matter, and
drawing them all once more in any order takes them away.  Of two drawings in a row
of the same sprite of up to 32 rows one collides exactly when the sprite has a set
bit; where nothing was lit under it, that is the second one. -/
theorem drawings_act_by_xor (machine : Machine) :
    (∀ drawings other : List Drawing, drawings.Perm other →
      ∃ first second restored,
        machine.drawAll drawings = .ok first ∧
        machine.drawAll other = .ok second ∧
        first.screen = second.screen ∧
        machine.drawAll (drawings ++ other) = .ok restored ∧
        restored.screen = machine.screen) ∧
      ∀ drawing : Drawing, drawing.rows.toNat ≤ 32 →
        ∃ once twice,
          machine.draw drawing = .ok once ∧
          once.draw drawing = .ok twice ∧
          (once.registers.read Registers.flag = 1 ∨ twice.registers.read Registers.flag = 1 ↔
            machine.HasSetBit drawing) ∧
          ((∀ cell, machine.drawingBit drawing cell = true → machine.screen.lit cell = false) →
            once.registers.read Registers.flag = 0 ∧
              (twice.registers.read Registers.flag = 1 ↔ machine.HasSetBit drawing)) := by
  constructor
  · intro drawings other mixed
    have cells := mixed.flatMap_right machine.drawingCells
    obtain ⟨first, firstDrawn, firstScreen⟩ := machine.drawAll_screen drawings
    obtain ⟨second, secondDrawn, secondScreen⟩ := machine.drawAll_screen other
    obtain ⟨restored, restoredDrawn, restoredScreen⟩ := machine.drawAll_screen (drawings ++ other)
    refine ⟨first, second, restored, firstDrawn, secondDrawn, ?_, restoredDrawn, ?_⟩
    · rw [firstScreen, secondScreen, machine.screen.flipAll_perm cells]
    · rw [restoredScreen, List.flatMap_append, machine.screen.flipAll_append_perm cells]
  · intro drawing low
    have once := machine.read_flag_drawn_iff low
    have twice := machine.read_flag_drawn_twice_iff low
    have bits := machine.exists_drawingBit_iff low
    refine ⟨_, _, machine.draw_eq drawing, draw_eq _ drawing, ?_, ?_⟩
    · rw [once, twice, ← bits, ← exists_or]
      refine exists_congr fun cell => ?_
      rw [← and_or_left]
      exact and_iff_left (by cases machine.screen.lit cell <;> simp)
    · intro dark
      constructor
      · apply (read_flag_flipCells_eq_zero_iff _ _).mpr
        intro collided
        obtain ⟨cell, bit, lit⟩ := once.mp collided
        cases (dark cell bit).symm.trans lit
      · rw [twice, ← bits]
        exact exists_congr fun cell => and_iff_left_of_imp (dark cell)

/-- The glyph of zero and a sprite of 40 rows, drawn over the edges of the screen. -/
theorem glyph_and_tall_sprite_exchanged :
    let machine := { powerOn (.progression 0 0) with registers := Vector.replicate 16 62 }
    let glyph : Drawing := { index := 0x050, x := 0, y := 1, rows := 5 }
    let tall : Drawing := { index := 0x055, x := 2, y := 0, rows := 40 }
    (∃ first second restored,
        machine.drawAll [glyph, tall] = .ok first ∧
        machine.drawAll [tall, glyph] = .ok second ∧
        first.screen = second.screen ∧
        machine.drawAll ([glyph, tall] ++ [tall, glyph]) = .ok restored ∧
        restored.screen = machine.screen) ∧
      ∃ once twice,
        machine.draw glyph = .ok once ∧
        once.draw glyph = .ok twice ∧
        once.registers.read Registers.flag = 0 ∧
        twice.registers.read Registers.flag = 1 := by
  intro machine glyph tall
  obtain ⟨exchange, again⟩ := machine.drawings_act_by_xor
  refine ⟨exchange _ _ (.swap tall glyph []), ?_⟩
  obtain ⟨once, twice, first, second, -, collision⟩ := again glyph (by decide)
  obtain ⟨clear, collides⟩ := collision fun cell _ => Screen.lit_blank cell
  refine ⟨once, twice, first, second, clear, collides.mpr ?_⟩
  exact ⟨0, 7, by decide, by decide, by decide +kernel⟩

end Machine

end Chip8Vm
