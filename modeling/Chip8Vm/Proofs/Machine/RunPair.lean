import Chip8Vm.Proofs.Machine.Run

/-!
# Two runs side by side

Two runs that have some operations in common, the shown ones, and perform others
on their own in between.  What the machines of both runs keep in common holds at
every two places that have the same shown operations behind them.
-/

namespace Chip8Vm

namespace Machine

/-- Two lists of operations that have the shown ones in common; the others
stand in each list on their own. -/
inductive Alongside (shown : Operation → Bool) :
    List Operation → List Operation → Prop where
  | nil : Alongside shown [] []
  | left {operation : Operation} {first second : List Operation}
      (hidden : shown operation = false) :
      Alongside shown first second → Alongside shown (operation :: first) second
  | right {operation : Operation} {first second : List Operation}
      (hidden : shown operation = false) :
      Alongside shown first second → Alongside shown first (operation :: second)
  | both {operation : Operation} {first second : List Operation}
      (visible : shown operation = true) :
      Alongside shown first second →
      Alongside shown (operation :: first) (operation :: second)

theorem alongside_of_filter {shown : Operation → Bool} {first second : List Operation}
    (same : first.filter shown = second.filter shown) : Alongside shown first second := by
  induction first generalizing second with
  | nil =>
      induction second with
      | nil => exact .nil
      | cons operation second ih =>
          cases visible : shown operation with
          | true => simp [visible] at same
          | false => exact .right visible (ih (by simpa [visible] using same))
  | cons operation first ih =>
      cases visible : shown operation with
      | false => exact .left visible (ih (by simpa [visible] using same))
      | true =>
          induction second with
          | nil => simp [visible] at same
          | cons other second ihSecond =>
              cases otherVisible : shown other with
              | false =>
                  exact .right otherVisible (ihSecond (by simpa [otherVisible] using same))
              | true =>
                  rw [List.filter_cons_of_pos visible,
                    List.filter_cons_of_pos otherVisible] at same
                  obtain ⟨rfl, rest⟩ := List.cons.inj same
                  exact .both visible (ih rest)

/-- The shown operation at `position` of the first list is the one at
`counterpart` of the second: both lists have the same shown operations before. -/
structure Counterparts (shown : Operation → Bool) (first second : List Operation)
    (position counterpart : Nat) (operation : Operation) : Prop where
  visible : shown operation = true
  left : first[position]? = some operation
  right : second[counterpart]? = some operation
  passed : (first.take position).filter shown = (second.take counterpart).filter shown

theorem getElem?_of_take {operations : List Operation} {operation : Operation}
    {position stop : Nat} (found : (operations.take stop)[position]? = some operation) :
    operations[position]? = some operation ∧
      (operations.take stop).take position = operations.take position := by
  rw [List.getElem?_take] at found
  split at found
  · rename_i before
    refine ⟨found, ?_⟩
    rw [List.take_take, Nat.min_eq_left (Nat.le_of_lt before)]
  · cases found

namespace Counterparts

variable {shown : Operation → Bool} {first second : List Operation}
  {position counterpart : Nat} {operation other : Operation}

theorem consLeft (hidden : shown other = false)
    (pair : Counterparts shown first second position counterpart operation) :
    Counterparts shown (other :: first) second (position + 1) counterpart operation :=
  ⟨pair.visible, pair.left, pair.right, by simpa [hidden] using pair.passed⟩

theorem consRight (hidden : shown other = false)
    (pair : Counterparts shown first second position counterpart operation) :
    Counterparts shown first (other :: second) position (counterpart + 1) operation :=
  ⟨pair.visible, pair.left, pair.right, by simpa [hidden] using pair.passed⟩

theorem consBoth (pair : Counterparts shown first second position counterpart operation) :
    Counterparts shown (other :: first) (other :: second) (position + 1) (counterpart + 1)
      operation := by
  refine ⟨pair.visible, pair.left, pair.right, ?_⟩
  simp only [List.take_succ_cons, List.filter_cons, pair.passed]

theorem of_take {stop counterstop : Nat}
    (pair : Counterparts shown (first.take stop) (second.take counterstop)
      position counterpart operation) :
    Counterparts shown first second position counterpart operation ∧
      (first.take stop).take position = first.take position ∧
      (second.take counterstop).take counterpart = second.take counterpart := by
  obtain ⟨left, leftPassed⟩ := getElem?_of_take pair.left
  obtain ⟨right, rightPassed⟩ := getElem?_of_take pair.right
  have passed := pair.passed
  rw [leftPassed, rightPassed] at passed
  exact ⟨⟨pair.visible, left, right, passed⟩, leftPassed, rightPassed⟩

end Counterparts

theorem Alongside.counterpart {shown : Operation → Bool} {first second : List Operation}
    (alongside : Alongside shown first second) {position : Nat} {operation : Operation}
    (visible : shown operation = true) (found : first[position]? = some operation) :
    ∃ counterpart, Counterparts shown first second position counterpart operation := by
  induction alongside generalizing position with
  | nil => cases found
  | left hidden alongside ih =>
      cases position with
      | zero =>
          cases found
          cases hidden.symm.trans visible
      | succ position =>
          obtain ⟨counterpart, pair⟩ := ih found
          exact ⟨counterpart, pair.consLeft hidden⟩
  | right hidden alongside ih =>
      obtain ⟨counterpart, pair⟩ := ih found
      exact ⟨counterpart + 1, pair.consRight hidden⟩
  | both seen alongside ih =>
      cases position with
      | zero => exact ⟨0, visible, found, found, rfl⟩
      | succ position =>
          obtain ⟨counterpart, pair⟩ := ih found
          exact ⟨counterpart + 1, pair.consBoth⟩

/-- Two runs whose hidden operations differ stay related when a hidden
operation of either keeps the relation and a shown one that both perform keeps
it wherever the two machines agree on what it needs. -/
theorem after_related {shown : Operation → Bool} {Related : Machine → Machine → Prop}
    {Agree : Machine → Machine → Operation → Prop}
    (hiddenLeft : ∀ left right operation, shown operation = false → Related left right →
      Related (left.perform operation).machine right)
    (hiddenRight : ∀ left right operation, shown operation = false → Related left right →
      Related left (right.perform operation).machine)
    (together : ∀ left right operation, shown operation = true →
      Agree left right operation → Related left right →
      Related (left.perform operation).machine (right.perform operation).machine)
    {first second : List Operation} (alongside : Alongside shown first second)
    {left right : Machine} (related : Related left right)
    (agree : ∀ position counterpart operation,
      Counterparts shown first second position counterpart operation →
      Agree (left.after (first.take position)) (right.after (second.take counterpart))
        operation) :
    Related (left.after first) (right.after second) := by
  -- A pair of places in the rest of the two lists is a pair of the whole lists, one
  -- place further on the side that has moved.
  induction alongside generalizing left right with
  | nil => exact related
  | @left operation first second hidden alongside ih =>
      apply ih (hiddenLeft left right operation hidden related)
      intro position counterpart other pair
      exact agree (position + 1) counterpart other (pair.consLeft hidden)
  | @right operation first second hidden alongside ih =>
      apply ih (hiddenRight left right operation hidden related)
      intro position counterpart other pair
      exact agree position (counterpart + 1) other (pair.consRight hidden)
  | @both operation first second visible alongside ih =>
      have now := agree 0 0 operation ⟨visible, rfl, rfl, rfl⟩
      apply ih (together left right operation visible now related)
      intro position counterpart other pair
      exact agree (position + 1) (counterpart + 1) other pair.consBoth

end Machine

end Chip8Vm
