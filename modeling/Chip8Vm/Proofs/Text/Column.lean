import Chip8Vm.Text.Numeral
import Mathlib.Algebra.GroupWithZero.Nat

/-!
# Columns of a line

A line put together from pieces shows each piece at a place that depends only on
the lengths of the pieces before it.  Where these lengths are fixed, so is the
place, and the piece can be cut out of the line again.
-/

namespace Chip8Vm

/-- A text from a place on. -/
def textFrom (text : String) (start : Nat) : String :=
  String.ofList (text.toList.drop start)

/-- So many characters of a text, from a place on. -/
def column (text : String) (start width : Nat) : String :=
  String.ofList ((text.toList.drop start).take width)

theorem textFrom_zero (text : String) : textFrom text 0 = text := by
  rw [textFrom, List.drop_zero, String.ofList_toList]

theorem textFrom_append (first second : String) (start : Nat) :
    textFrom (first ++ second) (first.length + start) = textFrom second start := by
  rw [textFrom, String.toList_append, ← String.length_toList, List.drop_length_add_append]
  rfl

theorem column_eq_textFrom (text : String) (start width : Nat) :
    column text start width = column (textFrom text start) 0 width := by
  rw [column, column, textFrom, String.toList_ofList, List.drop_zero]

theorem column_append_right (first second : String) (start width : Nat) :
    column (first ++ second) (first.length + start) width = column second start width := by
  rw [column_eq_textFrom, textFrom_append, ← column_eq_textFrom]

theorem column_append_left (first second : String) :
    column (first ++ second) 0 first.length = first := by
  rw [column, String.toList_append, List.drop_zero, ← String.length_toList, List.take_left,
    String.ofList_toList]

theorem column_whole (text : String) : column text 0 text.length = text := by
  have whole := column_append_left text ""
  rwa [String.append_empty] at whole

/-- A column of a column is a column of the whole text. -/
theorem column_column (text : String) {start width offset size : Nat}
    (inside : offset + size ≤ width) :
    column (column text start width) offset size = column text (start + offset) size := by
  simp only [column, String.toList_ofList, List.drop_take, List.drop_drop, List.take_take]
  rw [Nat.min_eq_left (by omega)]

/-! ## Lines of pieces -/

section Pieces

variable {pieces : List String} {widths : List Nat}
  (measured : pieces.map String.length = widths) (rest : String)

include measured

theorem textFrom_join_append (count : Nat) :
    textFrom (String.join pieces ++ rest) (widths.take count).sum =
      String.join (pieces.drop count) ++ rest := by
  subst measured
  induction pieces generalizing count with
  | nil =>
      rw [List.map_nil, List.take_nil, List.drop_nil]
      exact textFrom_zero _
  | cons piece pieces ih =>
      cases count with
      | zero => exact textFrom_zero _
      | succ count =>
          rw [List.map_cons, List.take_succ_cons, List.sum_cons, String.join_cons,
            String.append_assoc, textFrom_append, ih, List.drop_succ_cons]

variable (count : Nat) {start : Nat} (place : (widths.take count).sum = start)

include place

/-- A piece is found behind the pieces before it. -/
theorem column_join {width : Nat} {piece : String} (found : pieces[count]? = some piece)
    (wide : widths[count]? = some width) :
    column (String.join pieces ++ rest) start width = piece := by
  have cut := textFrom_join_append measured rest count
  rw [List.drop_eq_getElem?_toList_append, found, Option.toList_some, List.singleton_append,
    String.join_cons, String.append_assoc, place] at cut
  rw [← measured, List.getElem?_map, found, Option.map_some, Option.some.injEq] at wide
  rw [column_eq_textFrom, cut, ← wide, column_append_left]

/-- What follows the pieces is found behind all of them. -/
theorem textFrom_join (all : pieces.drop count = []) :
    textFrom (String.join pieces ++ rest) start = rest := by
  rw [← place, textFrom_join_append measured, all, String.join_nil, String.empty_append]

end Pieces

/-! ## Separated texts of one length -/

section Separated

variable (separator : String) {width : Nat}

theorem length_intercalate (texts : List String)
    (uniform : ∀ text, text ∈ texts → text.length = width) (nonempty : texts ≠ []) :
    (separator.intercalate texts).length + separator.length =
      (width + separator.length) * texts.length := by
  induction texts with
  | nil => exact absurd rfl nonempty
  | cons first rest ih =>
      have firstWidth := uniform first List.mem_cons_self
      cases rest with
      | nil =>
          rw [String.intercalate_singleton, firstWidth, List.length_singleton, Nat.mul_one]
      | cons second rest =>
          have later := ih (fun text member => uniform text (List.mem_cons_of_mem first member))
            (List.cons_ne_nil second rest)
          rw [String.intercalate_cons_cons, String.length_append, String.length_append, firstWidth,
            Nat.add_assoc, later, List.length_cons (a := first), Nat.mul_succ, Nat.add_comm]

/-- Texts of one length stand at equal distances. -/
theorem column_intercalate {texts : List String}
    (uniform : ∀ text, text ∈ texts → text.length = width) {position : Nat} {text : String}
    (found : texts[position]? = some text) :
    column (separator.intercalate texts) ((width + separator.length) * position) width = text := by
  induction texts generalizing position with
  | nil => simp at found
  | cons first rest ih =>
      have firstWidth := uniform first List.mem_cons_self
      have later : ∀ text, text ∈ rest → text.length = width :=
        fun text member => uniform text (List.mem_cons_of_mem first member)
      cases position with
      | zero =>
          rw [List.getElem?_cons_zero, Option.some.injEq] at found
          subst found
          rw [Nat.mul_zero, ← firstWidth]
          cases rest with
          | nil => rw [String.intercalate_singleton, column_whole]
          | cons second rest =>
              rw [String.intercalate_cons_cons, String.append_assoc, column_append_left]
      | succ position =>
          rw [List.getElem?_cons_succ] at found
          cases rest with
          | nil => simp at found
          | cons second rest =>
              have place : (width + separator.length) * (position + 1) =
                  first.length + (separator.length + (width + separator.length) * position) := by
                rw [Nat.mul_succ, firstWidth]
                omega
              rw [place, String.intercalate_cons_cons, String.append_assoc, column_append_right,
                column_append_right]
              exact ih later found

end Separated

end Chip8Vm
