import Chip8Vm.Glyph

/-!
# Memory as the result of stores

A store puts a byte at an address.  After any number of stores an address
holds what was last put there, and what it held before if nothing was.  Bytes
written one after the other are stores at consecutive addresses, which go on
at zero past the end of memory.
-/

namespace Chip8Vm

namespace Memory

/-- A byte put at an address. -/
structure Store where
  address : Nat
  value : UInt8
  deriving DecidableEq

/-- The byte last put at an address. -/
def lastStored (stores : List Store) (address : Nat) : Option UInt8 :=
  (stores.reverse.find? fun store => store.address = address).map Store.value

/-- Bytes put at consecutive addresses of memory. -/
def consecutive (start : Nat) (values : List UInt8) : List Store :=
  values.mapIdx fun offset value =>
    { address := (start + offset) % 4096, value := value }

/-- The byte at an address when the machine is switched on. -/
def powerOnByte (address : Nat) : UInt8 :=
  if 0x050 ≤ address ∧ address < 0x0A0 then Glyph.sheet.getD (address - 0x050) 0 else 0

/-- Memory after stores, address by address. -/
def Receives (before : Memory) (stores : List Store) (after : Memory) : Prop :=
  ∀ address : Fin 4096,
    after.get address = (lastStored stores address).getD (before.get address)

theorem lastStored_append (earlier later : List Store) (address : Nat) :
    lastStored (earlier ++ later) address =
      (lastStored later address).or (lastStored earlier address) := by
  simp [lastStored, List.find?_append, Option.map_or]

theorem lastStored_cons (store : Store) (later : List Store) (address : Nat) :
    lastStored (store :: later) address =
      (lastStored later address).or
        (if store.address = address then some store.value else none) := by
  rw [← List.singleton_append, lastStored_append]
  congr 1
  by_cases here : store.address = address <;> simp [lastStored, here]

theorem consecutive_cons (start : Nat) (value : UInt8) (rest : List UInt8) :
    consecutive start (value :: rest) =
      { address := start % 4096, value := value } :: consecutive (start + 1) rest := by
  simp [consecutive, List.mapIdx_cons, Nat.add_assoc, Nat.add_comm 1]

theorem consecutive_congr {start other : Nat} (same : start % 4096 = other % 4096)
    (values : List UInt8) : consecutive start values = consecutive other values := by
  unfold consecutive
  congr 1
  funext offset value
  rw [Nat.add_mod, same, ← Nat.add_mod]

theorem lastStored_eq_none_iff {stores : List Store} {address : Nat} :
    lastStored stores address = none ↔ address ∉ stores.map Store.address := by
  simp [lastStored]

theorem addresses_consecutive (start : Nat) (values : List UInt8) :
    (consecutive start values).map Store.address =
      (List.range values.length).map fun offset => (start + offset) % 4096 := by
  apply List.ext_getElem
  · simp [consecutive]
  · intro offset _ _
    simp [consecutive]

/-! ## Memory that receives stores -/

theorem receives_nil (memory : Memory) : memory.Receives [] memory := by
  intro address
  rfl

theorem Receives.append {first second third : Memory} {earlier later : List Store}
    (before : first.Receives earlier second) (after : second.Receives later third) :
    first.Receives (earlier ++ later) third := by
  intro address
  rw [after address, before address, lastStored_append]
  cases lastStored later address with
  | none => rfl
  | some value => rfl

theorem receives_write (memory : Memory) (address : Word) (value : UInt8) :
    memory.Receives [{ address := address.toNat % 4096, value := value }]
      (memory.write address value) := by
  intro other
  change (memory.write address value)[other] = (lastStored _ other).getD memory[other]
  rw [lastStored_cons]
  have written : (cell address).val = address.toNat % 4096 := toNat_wrap address
  by_cases here : address.toNat % 4096 = other.val
  · simp [write, lastStored, here, written]
  · simp [write, lastStored, here, written, Vector.getElem_set_ne]

theorem receives_writeAll (memory : Memory) (start : Word) (values : List UInt8) :
    memory.Receives (consecutive start.toNat values) (memory.writeAll start values) := by
  induction values generalizing memory start with
  | nil => exact memory.receives_nil
  | cons value rest ih =>
      have next : (start + 1).toNat % 4096 = (start.toNat + 1) % 4096 := by
        simp [UInt16.toNat_add]
      rw [consecutive_cons, ← consecutive_congr next]
      exact (memory.receives_write start value).append (ih (memory.write start value) (start + 1))

theorem lastStored_consecutive_of_ne {start address : Nat} {values : List UInt8}
    (apart : ∀ offset, offset < values.length → (start + offset) % 4096 ≠ address) :
    lastStored (consecutive start values) address = none := by
  induction values generalizing start with
  | nil => rfl
  | cons value rest ih =>
      have first : start % 4096 ≠ address := apart 0 (Nat.succ_pos _)
      rw [consecutive_cons, lastStored_cons, if_neg first, Option.or_none]
      apply ih
      intro offset inside
      have next := apart (offset + 1) (Nat.succ_lt_succ inside)
      rwa [← Nat.add_assoc, Nat.add_right_comm] at next

/-- At most 4096 consecutive stores do not come around to where they began, so
each byte stays where it was put. -/
theorem lastStored_consecutive_at {start offset : Nat} {values : List UInt8}
    (fits : values.length ≤ 4096) (inside : offset < values.length) :
    lastStored (consecutive start values) ((start + offset) % 4096) =
      some (values.get ⟨offset, inside⟩) := by
  induction values generalizing start offset with
  | nil => cases inside
  | cons value rest ih =>
      simp only [List.length_cons] at fits inside
      rw [consecutive_cons, lastStored_cons]
      cases offset with
      | zero =>
          rw [lastStored_consecutive_of_ne]
          · simp
          · intro later inside
            omega
      | succ offset =>
          have shift : start + (offset + 1) = start + 1 + offset := by omega
          rw [shift, ih (by omega) (Nat.lt_of_succ_lt_succ inside)]
          rfl

/-- Without wrapping, consecutive stores put each byte at its own address. -/
theorem lastStored_consecutive {start : Nat} {values : List UInt8}
    (fits : start + values.length ≤ 4096) (address : Nat) :
    lastStored (consecutive start values) address =
      if start ≤ address then values[address - start]? else none := by
  by_cases inside : start ≤ address ∧ address - start < values.length
  · obtain ⟨past, inside⟩ := inside
    have stored := @lastStored_consecutive_at start (address - start) values (by omega) inside
    have place : (start + (address - start)) % 4096 = address := by omega
    rw [place] at stored
    rw [stored, if_pos past, List.getElem?_eq_getElem inside]
    rfl
  · rw [lastStored_consecutive_of_ne (by omega)]
    split
    · rw [List.getElem?_eq_none (by omega)]
    · rfl

/-! ## Bytes around the end of memory -/

/-- The byte at an address; the addresses go on at zero past the end of memory. -/
def byteAt (memory : Memory) (address : Nat) : UInt8 :=
  memory.get ⟨address % 4096, Nat.mod_lt _ (by decide)⟩

theorem read_add (memory : Memory) (start : Word) (offset : Nat) :
    memory.read (start + UInt16.ofNat offset) = memory.byteAt (start.toNat + offset) := by
  have same : (cell (start + UInt16.ofNat offset)).val = (start.toNat + offset) % 4096 := by
    simp only [cell, toNat_wrap, UInt16.toNat_add, UInt16.toNat_ofNat']
    omega
  exact congrArg memory.get (Fin.ext same)

theorem getElem?_readAll (memory : Memory) (start : Word) (count offset : Nat) :
    (memory.readAll start count)[offset]? =
      if offset < count then some (memory.byteAt (start.toNat + offset)) else none := by
  rw [readAll, List.getElem?_map]
  by_cases inside : offset < count
  · rw [List.getElem?_range inside, if_pos inside]
    exact congrArg some (memory.read_add start offset)
  · rw [List.getElem?_eq_none (by simpa using inside), if_neg inside]
    rfl

theorem byteAt_writeAll (memory : Memory) (start : Word) {values : List UInt8} {offset : Nat}
    (fits : values.length ≤ 4096) (inside : offset < values.length) :
    (memory.writeAll start values).byteAt (start.toNat + offset) =
      values.get ⟨offset, inside⟩ := by
  rw [byteAt, memory.receives_writeAll start values, lastStored_consecutive_at fits inside]
  rfl

theorem get_writeAll_of_ne (memory : Memory) {start : Word} {values : List UInt8}
    {address : Fin 4096}
    (apart : ∀ offset, offset < values.length → (start.toNat + offset) % 4096 ≠ address) :
    (memory.writeAll start values).get address = memory.get address := by
  rw [memory.receives_writeAll start values, lastStored_consecutive_of_ne apart]
  rfl

/-- Writing what is there already changes nothing. -/
theorem writeAll_of_held {memory : Memory} {start : Word} {values : List UInt8}
    (held : ∀ offset : Fin values.length,
      memory.byteAt (start.toNat + offset) = values.get offset) :
    memory.writeAll start values = memory := by
  induction values generalizing start with
  | nil => rfl
  | cons value rest ih =>
      have first : memory.read start = value := by
        have here := held ⟨0, Nat.succ_pos _⟩
        rw [← read_add] at here
        simpa using here
      have kept : memory.write start value = memory := by
        rw [← first]
        exact Vector.set_getElem_self _
      rw [writeAll, kept]
      apply ih
      intro offset
      have later := held offset.succ
      rw [← read_add] at later ⊢
      rw [UInt16.add_assoc]
      simpa [UInt16.ofNat_add, UInt16.add_comm 1] using later

theorem get_writeAll_of_outside (memory : Memory) {start : Word} {values : List UInt8}
    (fits : start.toNat + values.length ≤ 4096) {address : Fin 4096}
    (outside : address.val < start.toNat ∨ start.toNat + values.length ≤ address.val) :
    (memory.writeAll start values).get address = memory.get address := by
  apply memory.get_writeAll_of_ne
  intro offset inside
  omega

theorem get_powerOn (address : Fin 4096) :
    Memory.powerOn.get address = powerOnByte address := by
  have stored := receives_writeAll (Vector.replicate 4096 0) Glyph.sheetStart Glyph.sheet address
  have zero : (Vector.replicate 4096 (0 : UInt8)).get address = 0 :=
    Vector.getElem_replicate address.isLt
  rw [lastStored_consecutive (by decide), zero] at stored
  rw [Memory.powerOn, stored, powerOnByte]
  have start : Glyph.sheetStart.toNat = 0x050 := rfl
  by_cases low : 0x050 ≤ address.val
  · by_cases high : address.val < 0x0A0
    · simp [start, low, high]
    · have past : Glyph.sheet.length ≤ address.val - 0x050 := by
        have size : Glyph.sheet.length = 80 := rfl
        omega
      simp [start, low, high, List.getElem?_eq_none past]
  · simp [start, low]

end Memory

end Chip8Vm
