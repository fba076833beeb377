import Mathlib.Data.List.TakeWhile
import WordTape.Proofs.Device.Accounts
import WordTape.Proofs.Device.Extension
import WordTape.Proofs.Device.Faults
import WordTape.Proofs.Tape.Bounds

/-!
# Strings and lines

A string is stored in successive cells as far as the tape goes, and the byte that finds no
cell stops it. To read a line is to store its bytes in the same way: both leave the same
tape and are stopped by the same fault. The line is consumed up to its end, or up to the byte
that found no cell.
-/

set_option autoImplicit false

namespace WordTape

theorem Outcome.andThen_assoc {State : Type} (outcome : Outcome State)
    (first second : State → Outcome State) :
    (outcome.andThen first).andThen second =
      outcome.andThen fun state => (first state).andThen second := by
  cases outcome <;> rfl

/-! ## Strings -/

namespace Tape

variable {tape : Tape} {start : Nat}

private theorem setString_append (first second : Bytes) (tape : Tape) :
    tape.setString (first ++ second) = (tape.setString first).andThen (setString second) := by
  induction first generalizing tape with
  | nil => rfl
  | cons byte rest ih =>
      have onward : setString (rest ++ second) =
          fun next => (setString rest next).andThen (setString second) := funext ih
      rw [List.cons_append, setString, setString, Outcome.andThen_assoc, onward]

/-- A string that is longer than the rest of the tape fills it and stops behind it. -/
theorem setString_of_lt {bytes : Bytes} (starts : tape.pointer = start)
    (within : start ≤ tape.size) (long : tape.size - start < bytes.length) :
    tape.setString bytes =
      .stopped
        { cells := overwrite tape.cells start (bytes.take (tape.size - start))
          pointer := (tape.size : Nat) }
        (.fault (.noCellToStore tape.size)) := by
  have length : (bytes.take (tape.size - start)).length = tape.size - start := by
    rw [List.length_take]
    omega
  have filled : tape.setString (bytes.take (tape.size - start)) = _ :=
    setString_eq starts (by omega)
  have full : start + (bytes.take (tape.size - start)).length = tape.size := by omega
  rw [full] at filled
  obtain ⟨byte, rest, split⟩ : ∃ byte rest, bytes.drop (tape.size - start) = byte :: rest :=
    List.exists_cons_of_length_pos (by rw [List.length_drop]; omega)
  have offCell : ¬OnCell
      { cells := overwrite tape.cells start (bytes.take (tape.size - start))
        pointer := (tape.size : Nat) } := by
    apply not_onCell_at_size
    simp only [size, size_overwrite]
  conv => lhs; rw [← List.take_append_drop (tape.size - start) bytes]
  rw [setString_append, filled, split, Outcome.andThen, setString, storeNext_of_not_onCell offCell]
  rfl

/-- What storing a string leaves, whether or not there is room for all of it. -/
theorem state_setString (bytes : Bytes) (starts : tape.pointer = start)
    (within : start ≤ tape.size) :
    (tape.setString bytes).state =
      { cells := overwrite tape.cells start (bytes.take (tape.size - start))
        pointer := (start + min bytes.length (tape.size - start) : Nat) } := by
  rcases Nat.lt_or_ge (tape.size - start) bytes.length with long | fits
  · have reached : start + min bytes.length (tape.size - start) = tape.size := by omega
    rw [setString_of_lt starts within long, reached]
    rfl
  · rw [setString_eq starts (by omega), List.take_of_length_le fits, Nat.min_eq_left fits]
    rfl

private theorem getElem?_setString (bytes : Bytes) (starts : tape.pointer = start)
    (within : start ≤ tape.size) (index : Nat) :
    (tape.setString bytes).state.cells[index]? =
      if start ≤ index ∧ index < start + min bytes.length (tape.size - start) then
        bytes[index - start]?
      else tape.cells[index]? := by
  have length : (bytes.take (tape.size - start)).length = min bytes.length (tape.size - start) := by
    rw [List.length_take, Nat.min_comm]
  have room : start + (bytes.take (tape.size - start)).length ≤ tape.cells.size := by
    simp only [size] at within length ⊢
    omega
  rw [state_setString bytes starts within, getElem?_overwrite room, length]
  split
  · rw [List.getElem?_take_of_lt (by omega)]
  · rfl

private theorem cause?_setString (bytes : Bytes) (starts : tape.pointer = start)
    (within : start ≤ tape.size) :
    (tape.setString bytes).cause? =
      if tape.size - start < bytes.length then some (.fault (.noCellToStore tape.size))
      else none := by
  rcases Nat.lt_or_ge (tape.size - start) bytes.length with long | fits
  · rw [setString_of_lt starts within long, if_pos long]
    rfl
  · rw [setString_eq starts (by omega), if_neg (Nat.not_lt.mpr fits)]
    rfl

end Tape

/-! ## Lines -/

namespace Input

/-- The input after more requests and more bytes. -/
def past (requests bytes : Nat) (input : Input) : Input :=
  { input with requests := input.requests + requests, consumed := input.consumed + bytes }

/-- The bytes of a line come next, and then its end: a line feed, or the end of the input. -/
structure HasLine (text : Bytes) (ending : Reply) (input : Input) : Prop where
  bytes : ∀ index byte, text[index]? = some byte →
    input.reply (input.requests + index) = .byte byte
  inside : Bytes.lineFeed ∉ text
  ends : input.reply (input.requests + text.length) = ending
  ending : ending = .byte Bytes.lineFeed ∨ ending = .endOfInput

variable {byte : UInt8} {rest : Bytes} {ending : Reply} {input : Input}

theorem HasLine.read (line : input.HasLine (byte :: rest) ending) :
    input.read = (.byte byte, input.past 1 1) := by
  have first : input.reply input.requests = .byte byte := line.bytes 0 byte rfl
  simp only [Input.read, first, past]

theorem HasLine.tail (line : input.HasLine (byte :: rest) ending) :
    (input.past 1 1).HasLine rest ending where
  bytes := by
    intro index other found
    have answered := line.bytes (index + 1) other found
    rwa [Nat.add_comm index, ← Nat.add_assoc] at answered
  inside := fun member => line.inside (List.mem_cons_of_mem byte member)
  ends := by
    have ends := line.ends
    rwa [List.length_cons, Nat.add_comm rest.length, ← Nat.add_assoc] at ends
  ending := line.ending

theorem HasLine.read_end (line : input.HasLine [] ending) :
    input.read = (ending, input.past 1 (if ending.isByte then 1 else 0)) := by
  have ends : input.reply input.requests = ending := line.ends
  rcases line.ending with rfl | rfl
  · simp only [Input.read, ends, past, Reply.isByte, ↓reduceIte]
  · simp only [Input.read, ends, past, Reply.isByte, Bool.false_eq_true, ↓reduceIte]

/-- The input after a line was read onto so many cells: behind its end, or behind the byte that
finds no cell. -/
def afterLine (room : Nat) (line : Bytes) (ending : Reply) (input : Input) : Input :=
  if room < line.length then input.past (room + 1) (room + 1)
  else input.past (line.length + 1) (line.length + if ending.isByte then 1 else 0)

private theorem consumed_afterLine (room : Nat) (line : Bytes) (ending : Reply) (input : Input) :
    (input.afterLine room line ending).consumed = input.consumed +
      if room < line.length then room + 1
      else line.length + if ending.isByte then 1 else 0 := by
  unfold afterLine
  split <;> rfl

private theorem past_past (input : Input) (requests bytes more later : Nat) :
    (input.past requests bytes).past more later =
      input.past (requests + more) (bytes + later) := by
  simp only [past, Nat.add_assoc]

private theorem afterLine_cons (room : Nat) (byte : UInt8) (rest : Bytes) (ending : Reply)
    (input : Input) :
    (input.past 1 1).afterLine room rest ending =
      input.afterLine (room + 1) (byte :: rest) ending := by
  have further : room + 1 < (byte :: rest).length ↔ room < rest.length :=
    Nat.add_lt_add_iff_right
  unfold afterLine
  by_cases long : room < rest.length
  · rw [if_pos long, if_pos (further.mpr long), past_past, Nat.add_comm 1]
  · rw [if_neg long, if_neg (mt further.mp long), past_past, List.length_cons, Nat.add_comm 1,
      ← Nat.add_assoc 1, Nat.add_comm 1]

private theorem reply_ofBytes_past (data : Array UInt8) (passed index : Nat) :
    ((ofBytes data).past passed passed).reply (passed + index) =
      match (data.toList.drop passed)[index]? with
      | some byte => .byte byte
      | none => .endOfInput := by
  rw [List.getElem?_drop, Array.getElem?_toList]
  rfl

/-- What is left of a byte string begins with a line. -/
theorem exists_hasLine_ofBytes (data : Array UInt8) (passed : Nat) :
    ∃ ending, ((ofBytes data).past passed passed).HasLine
      ((data.toList.drop passed).takeWhile (· ≠ Bytes.lineFeed)) ending := by
  let left := data.toList.drop passed
  let text := left.takeWhile (· ≠ Bytes.lineFeed)
  let input := (ofBytes data).past passed passed
  have start : input.requests = passed := Nat.zero_add passed
  have inFront (index : Nat) (byte : UInt8) (found : text[index]? = some byte) :
      left[index]? = some byte := by
    obtain ⟨within, rfl⟩ := List.getElem?_eq_some_iff.mp found
    exact List.prefix_iff_getElem?.mp (List.takeWhile_prefix _) index within
  have behind : left[text.length]? = (left.dropWhile (· ≠ Bytes.lineFeed)).head? := by
    have split : text ++ left.dropWhile (· ≠ Bytes.lineFeed) = left :=
      List.takeWhile_append_dropWhile
    conv => lhs; rw [← split]
    rw [List.getElem?_append_right (Nat.le_refl _), Nat.sub_self, List.head?_eq_getElem?]
  refine ⟨input.reply (input.requests + text.length), ⟨?_, ?_, rfl, ?_⟩⟩
  · intro index byte found
    rw [start, reply_ofBytes_past, inFront index byte found]
  · intro member
    have other := List.mem_takeWhile_imp member
    simp at other
  · rw [start, reply_ofBytes_past, behind]
    have ends := List.head?_dropWhile_not (fun byte => decide (byte ≠ Bytes.lineFeed)) left
    cases next : (left.dropWhile (· ≠ Bytes.lineFeed)).head? with
    | none => exact .inr rfl
    | some byte =>
        rw [next] at ends
        left
        simpa using ends

end Input

namespace Device

theorem input_state_onTape (operation : Tape → Outcome Tape) (device : Device) :
    (device.onTape operation).state.input = device.input := by
  simp only [onTape]
  cases operation device.tape <;> rfl

theorem output_state_onTape (operation : Tape → Outcome Tape) (device : Device) :
    (device.onTape operation).state.output = device.output := by
  simp only [onTape]
  cases operation device.tape <;> rfl

variable {device : Device} {start : Nat} {text : Bytes} {ending : Reply}

/-- To read a line is to store it, with the input behind it. -/
private theorem readLine_eq_onTape (line : device.input.HasLine text ending)
    (starts : device.tape.pointer = start) (within : start ≤ device.tape.size) :
    device.readLine =
      onTape (Tape.setString text)
        { device with
          input := device.input.afterLine (device.tape.size - start) text ending } := by
  induction text generalizing device start with
  | nil =>
      rw [readLine_eq, line.read_end]
      rcases line.ending with rfl | rfl
      · rfl
      · rfl
  | cons byte rest ih =>
      have notLineFeed : byte ≠ Bytes.lineFeed := fun same =>
        line.inside (same ▸ List.mem_cons_self)
      rw [readLine_eq, line.read]
      simp only [notLineFeed, ↓reduceIte]
      rcases Nat.lt_or_eq_of_le within with before | rfl
      · have onCell := (Tape.onCell_iff_lt starts).mpr before
        let next : Tape := { device.tape.put byte with pointer := device.tape.pointer + 1 }
        have stored : device.tape.storeNext byte = .done next :=
          Tape.storeNext_of_onCell onCell byte
        have size : next.size = device.tape.size := Tape.size_put byte device.tape
        have advanced : next.pointer = (start + 1 : Nat) := by
          show device.tape.pointer + 1 = _
          omega
        have room : device.tape.size - start = device.tape.size - (start + 1) + 1 := by omega
        let later : Device := { device with tape := next, input := device.input.past 1 1 }
        have onward : later.readLine = _ := ih line.tail advanced (size ▸ before)
        simp only [onTape, stored, Outcome.andThen, Tape.setString] at onward ⊢
        rw [onward, size, room, Input.afterLine_cons]
      · have refused := Tape.storeNext_of_not_onCell (Tape.not_onCell_at_size starts) byte
        have long : 0 < (byte :: rest).length := Nat.succ_pos _
        simp only [onTape, refused, Outcome.andThen, Tape.setString, Nat.sub_self,
          Input.afterLine, long, ↓reduceIte]

end Device

/-- A string is stored in the cells from the pointer on as far as they go, with the pointer
behind its last byte that has a cell, and a fault of the index tells that it has more bytes
than there are cells. Reading a line leaves the same tape with the same fault as storing it
does. It consumes the line and the line feed that ends it, if one does, or all bytes up to the
first that has no cell. -/
theorem lines_are_stored_like_strings (device : Device) (start : Nat) (text : Bytes)
    (starts : device.tape.pointer = start) (within : start ≤ device.tape.size) :
    let room := device.tape.size - start
    let count := min text.length room
    let stored := device.tape.setString text
    (∀ index, stored.state.cells[index]? =
        if start ≤ index ∧ index < start + count then text[index - start]?
        else device.tape.cells[index]?) ∧
      stored.state.pointer = (start + count : Nat) ∧
      stored.FaultsIff .index (room < text.length) ∧
      ∀ ending, device.input.HasLine text ending →
        device.readLine.state.tape = stored.state ∧
        device.readLine.cause? = stored.cause? ∧
        device.readLine.state.output = device.output ∧
        device.readLine.state.input.consumed = device.input.consumed +
          if room < text.length then room + 1
          else text.length + if ending.isByte then 1 else 0 := by
  intro room count stored
  refine ⟨Tape.getElem?_setString text starts within, ?_,
    .of_cause? rfl (Tape.cause?_setString text starts within), ?_⟩
  · rw [Tape.state_setString text starts within]
  · intro ending line
    have read := Device.readLine_eq_onTape line starts within
    refine ⟨?_, ?_, ?_, ?_⟩
    · rw [read, Device.tape_state_onTape]
    · rw [read, Device.cause?_onTape]
    · rw [read, Device.output_state_onTape]
    · rw [read, Device.input_state_onTape, Input.consumed_afterLine]

/-- A line of three bytes is read onto two cells. Its third byte is consumed, and its end is
not. -/
theorem third_byte_finds_no_cell :
    let device : Device :=
      { tape := { cells := #[7, 8, 9], pointer := 1 }
        input := .ofBytes #[120, 121, 122, 10, 65]
        output := {} }
    device.tape.pointer = 1 ∧ 1 ≤ device.tape.size ∧
    (∃ ending, device.input.HasLine [120, 121, 122] ending) ∧
    device.readLine.state.tape = { cells := #[7, 120, 121], pointer := 3 } ∧
    device.readLine.cause? = some (.fault (.noCellToStore 3)) ∧
    device.readLine.state.input.consumed = 3 := by
  intro device
  have starts : device.tape.pointer = (1 : Nat) := rfl
  have within : 1 ≤ device.tape.size := by decide
  have hasLine : ∃ ending, device.input.HasLine [120, 121, 122] ending :=
    Input.exists_hasLine_ofBytes #[120, 121, 122, 10, 65] 0
  obtain ⟨ending, line⟩ := hasLine
  obtain ⟨_, _, _, reads⟩ :=
    lines_are_stored_like_strings device 1 [120, 121, 122] starts within
  obtain ⟨tape, cause, _, consumed⟩ := reads ending line
  exact ⟨starts, within, ⟨ending, line⟩, tape.trans rfl, cause.trans rfl, consumed⟩

end WordTape
