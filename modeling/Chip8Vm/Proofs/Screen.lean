import Chip8Vm.Screen.Sprite

/-!
# Flipping pixels

A pixel stays what it was when it is flipped an even number of times, whatever
happens in between, so the order of flips does not matter.  Where no pixel is
flipped twice, a collision is a pixel that was lit from the start.  A sprite of
up to 32 rows flips no pixel twice, and the bit over a pixel decides whether it
is flipped.
-/

namespace Chip8Vm

namespace Screen

theorem flipAll_append (screen : Screen) (first second : List Cell) :
    screen.flipAll (first ++ second) = (screen.flipAll first).flipAll second :=
  List.foldl_append

theorem lit_flipAll (screen : Screen) (cells : List Cell) (cell : Cell) :
    (screen.flipAll cells).lit cell =
      (screen.lit cell ^^ decide (cells.count cell % 2 = 1)) := by
  induction cells generalizing screen with
  | nil => simp [flipAll]
  | cons flipped rest ih =>
      have later : screen.flipAll (flipped :: rest) = (screen.flip flipped).flipAll rest := rfl
      rw [later, ih, lit_flip, List.count_cons]
      by_cases here : flipped = cell
      · have parity : decide ((rest.count cell + 1) % 2 = 1) =
            !decide (rest.count cell % 2 = 1) := by
          rw [← decide_not]
          exact decide_eq_decide.mpr (by omega)
        simp [here, parity]
      · simp [here]

theorem flipAll_perm (screen : Screen) {first second : List Cell}
    (mixed : first.Perm second) : screen.flipAll first = screen.flipAll second := by
  apply eq_of_lit
  intro cell
  rw [lit_flipAll, lit_flipAll, mixed.count_eq]

/-- Flips made once more, in any order, undo themselves. -/
theorem flipAll_append_perm (screen : Screen) {first second : List Cell}
    (mixed : first.Perm second) : screen.flipAll (first ++ second) = screen := by
  apply eq_of_lit
  intro cell
  have even : (first.count cell + second.count cell) % 2 = 0 := by
    rw [mixed.count_eq]
    omega
  rw [lit_flipAll, List.count_append, even]
  simp

theorem lit_flipAll_of_nodup (screen : Screen) {cells : List Cell} (distinct : cells.Nodup)
    (cell : Cell) :
    (screen.flipAll cells).lit cell = (screen.lit cell ^^ decide (cell ∈ cells)) := by
  rw [lit_flipAll, distinct.count]
  by_cases member : cell ∈ cells <;> simp [member]

theorem collides_iff_of_nodup (screen : Screen) {cells : List Cell}
    (distinct : cells.Nodup) :
    screen.collides cells = true ↔ ∃ cell ∈ cells, screen.lit cell = true := by
  induction cells generalizing screen with
  | nil => simp [collides]
  | cons flipped rest ih =>
      obtain ⟨fresh, distinct⟩ := List.nodup_cons.mp distinct
      simp only [collides, Bool.or_eq_true, ih _ distinct, List.mem_cons, exists_eq_or_imp]
      -- The flip just made does not show among the pixels that follow.
      have unchanged : ∀ cell ∈ rest, (screen.flip flipped).lit cell = screen.lit cell := by
        intro cell member
        rw [lit_flip, if_neg]
        rintro rfl
        exact fresh member
      constructor
      · rintro (lit | ⟨cell, member, lit⟩)
        · exact .inl lit
        · exact .inr ⟨cell, member, unchanged cell member ▸ lit⟩
      · rintro (lit | ⟨cell, member, lit⟩)
        · exact .inl lit
        · exact .inr ⟨cell, member, (unchanged cell member).trans lit⟩

/-- Flipping the same pixels once more meets those that were dark before. -/
theorem collides_flipAll_iff_of_nodup (screen : Screen) {cells : List Cell}
    (distinct : cells.Nodup) :
    (screen.flipAll cells).collides cells = true ↔
      ∃ cell ∈ cells, screen.lit cell = false := by
  rw [collides_iff_of_nodup _ distinct]
  refine exists_congr fun cell => and_congr_right fun member => ?_
  rw [lit_flipAll_of_nodup _ distinct, decide_eq_true member, Bool.xor_true, Bool.not_eq_true']

end Screen

namespace Sprite

/-- The row of a sprite over a pixel: how far the pixel lies below the row of the
corner, around the screen. -/
def rowOver (down : Nat) (cell : Screen.Cell) : Nat :=
  (((cell.row.val : Int) - down) % 32).toNat

/-- The column of a sprite over a pixel: how far the pixel lies right of the
column of the corner, around the screen. -/
def columnOver (right : Nat) (cell : Screen.Cell) : Nat :=
  (((cell.column.val : Int) - right) % 64).toNat

theorem rowOver_cellAt (down right : Nat) {row : Nat} (low : row < 32) :
    rowOver down (Screen.cellAt (down + row) right) = row := by
  simp only [rowOver, Screen.cellAt]
  omega

theorem columnOver_cellAt (down right : Nat) {column : Nat} (narrow : column < 64) :
    columnOver right (Screen.cellAt down (right + column)) = column := by
  simp only [columnOver, Screen.cellAt]
  omega

/-- A pixel lies as far from the corner as its row and column over it say. -/
theorem cellAt_over (down right : Nat) (cell : Screen.Cell) :
    Screen.cellAt (down + rowOver down cell) (right + columnOver right cell) = cell := by
  obtain ⟨⟨row, low⟩, ⟨column, narrow⟩⟩ := cell
  simp only [rowOver, columnOver, Screen.cellAt, Screen.Cell.mk.injEq, Fin.mk.injEq]
  omega

theorem mem_rowCells {down right : Nat} {row : UInt8} {cell : Screen.Cell} :
    cell ∈ rowCells down right row ↔
      rowOver down cell = 0 ∧ columnOver right cell < 8 ∧
        row.toNat.testBit (7 - columnOver right cell) = true := by
  simp only [rowCells, columns, List.mem_map, List.mem_filter, List.mem_range]
  constructor
  · rintro ⟨column, ⟨inside, bit⟩, rfl⟩
    have top : rowOver down (Screen.cellAt (down + 0) (right + column)) = 0 :=
      rowOver_cellAt down _ (by decide)
    rw [columnOver_cellAt _ _ (by omega)]
    exact ⟨top, inside, bit⟩
  · rintro ⟨top, inside, bit⟩
    refine ⟨columnOver right cell, ⟨inside, bit⟩, ?_⟩
    have place := cellAt_over down right cell
    rwa [top] at place

theorem nodup_rowCells (down right : Nat) (row : UInt8) : (rowCells down right row).Nodup := by
  have distinct : (columns row).Nodup := List.nodup_range.sublist List.filter_sublist
  rw [rowCells, List.nodup_iff_pairwise_ne, List.pairwise_map]
  refine (List.nodup_iff_pairwise_ne.mp distinct).imp_of_mem ?_
  intro first second firstMember secondMember different same
  have firstInside : first < 8 := List.mem_range.mp (List.mem_filter.mp firstMember).1
  have secondInside : second < 8 := List.mem_range.mp (List.mem_filter.mp secondMember).1
  have column : (right + first) % 64 = (right + second) % 64 :=
    congrArg (fun cell => cell.column.val) same
  omega

/-- Up to 32 rows do not reach around the screen to where they began, so the bit
over a pixel decides whether it is flipped. -/
theorem mem_cells {down right : Nat} {rows : List UInt8} (low : rows.length ≤ 32)
    {cell : Screen.Cell} :
    cell ∈ cells down right rows ↔
      columnOver right cell < 8 ∧
        ∃ row, rows[rowOver down cell]? = some row ∧
          row.toNat.testBit (7 - columnOver right cell) = true := by
  induction rows generalizing down with
  | nil => simp [cells]
  | cons row rest ih =>
      simp only [List.length_cons] at low
      rw [cells, List.mem_append, mem_rowCells, ih (by omega)]
      rcases Nat.eq_zero_or_pos (rowOver down cell) with top | below
      · -- Seen from the second row, the pixel lies 31 rows further down.
        have far : rowOver (down + 1) cell = 31 := by
          unfold rowOver at top ⊢
          omega
        rw [far, List.getElem?_eq_none (by omega), top]
        simp
      · have next : rowOver down cell = rowOver (down + 1) cell + 1 := by
          unfold rowOver at below ⊢
          omega
        rw [next]
        simp

theorem nodup_cells (down right : Nat) {rows : List UInt8} (low : rows.length ≤ 32) :
    (cells down right rows).Nodup := by
  induction rows generalizing down with
  | nil => exact List.nodup_nil
  | cons row rest ih =>
      simp only [List.length_cons] at low
      have short : rest.length ≤ 32 := by omega
      refine List.nodup_append.mpr ⟨nodup_rowCells down right row, ih (down + 1) short, ?_⟩
      rintro cell top _ below rfl
      obtain ⟨highest, -⟩ := mem_rowCells.mp top
      obtain ⟨-, byte, within, -⟩ := (mem_cells short).mp below
      have inside := (List.getElem?_eq_some_iff.mp within).1
      unfold rowOver at highest inside
      omega

end Sprite

end Chip8Vm
