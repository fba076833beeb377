import Mathlib.Control.Monad.Basic
import WordTape.Proofs.Device.Operations
import WordTape.Proofs.StraightLine
import WordTape.Proofs.Tape.Numbers

/-!
# Typed write and typed set

The text that a typed write shows of some cells is a literal that a typed set of the same
type lays out as these cells again. What a typed set lays out for a literal is shown by a
typed write as the text of the number that the literal is read as.
-/

set_option autoImplicit false

namespace WordTape

namespace Device

variable {device : Device}

theorem onTape_done {operation : Tape → Outcome Tape} {tape : Tape}
    (done : operation device.tape = .done tape) :
    device.onTape operation = .done { device with tape } := by
  obtain ⟨before, input, output⟩ := device
  simp only at done
  simp only [onTape, done]

theorem writeAs_done {type : NumericType} {text : Bytes}
    (shown : device.tape.numberText type = .ok text)
    (accepted : device.output.refusal device.output.writes = none) :
    device.writeAs type = .done { device with output := device.output.accept text } := by
  rw [writeAs, shown]
  exact emit_accepted accepted text

end Device

/-- The device with a string stored from a place on and the pointer at another. -/
def Device.stored (start : Nat) (bytes : Bytes) (pointer : Nat) (device : Device) : Device where
  tape := { cells := overwrite device.tape.cells start bytes, pointer }
  input := device.input
  output := device.output

section

variable {type : NumericType} {value : type.Value} {bytes : Bytes} {device : Device}
  {start : Nat}

theorem act_setAs (starts : device.tape.pointer = start)
    (room : start + type.width ≤ device.tape.size) (encoded : type.encode value = .ok bytes)
    (length : bytes.length = type.width) :
    (Instruction.setAs type value).act device =
      .done (device.stored start bytes (start + type.width)) :=
  Device.onTape_done (Tape.setAs_eq starts room encoded length)

theorem act_moveBackward (start steps : Nat) :
    (Instruction.moveBackward steps).act (device.stored start bytes (start + steps)) =
      .done (device.stored start bytes start) := by
  have within : (steps : Int) ≤ (start + steps : Nat) := by omega
  have back : ((start + steps : Nat) : Int) - steps = start := by omega
  have moved : (device.stored start bytes (start + steps)).tape.moveBackward steps =
      .done (device.stored start bytes start).tape := by
    simp only [Tape.moveBackward, Device.stored, within, ↓reduceIte, back]
  exact Device.onTape_done moved

private theorem act_writeAs_stored (room : start + type.width ≤ device.tape.size)
    (decoded : type.decode bytes = .ok value)
    (accepts : device.output.refusal device.output.writes = none) :
    (Instruction.writeAs type).act (device.stored start bytes start) =
      .done { device.stored start bytes start with
        output := device.output.accept (type.text value) } := by
  have length := NumericType.length_of_decode decoded
  have span : (device.stored start bytes start).tape.span type.width = bytes := by
    rw [← length] at room ⊢
    exact extract_overwrite room
  have fits : start + type.width ≤ (device.stored start bytes start).tape.size := by
    rw [Tape.size, Device.stored, size_overwrite]
    exact room
  exact Device.writeAs_done (Tape.numberText_eq rfl fits (span.symm ▸ decoded)) accepts

end

private theorem spells_setAs {type : NumericType} {text : Bytes} {value : type.Value}
    (literal : type.IsLiteral text value) :
    SpellsAll [(Mnemonic.setAs type).word, text] [.setAs type value] :=
  SpellsAll.cons (.setAs literal) .nil

theorem spells_writeAs (type : NumericType) :
    SpellsAll [(Mnemonic.writeAs type).word] [.writeAs type] :=
  SpellsAll.cons (@Spells.bare (.writeAs type) rfl Instruction.noConfusion
    Instruction.noConfusion) .nil

private theorem isLiteral_width (type : NumericType) :
    NumericType.IsLiteral (.integer .u64) (Decimal.ofNat type.width) (type.width : Int) := by
  have holds : IntegerType.u64.Holds type.width := by
    rcases type with type | type <;> cases type <;> decide +kernel
  exact IntegerType.isLiteral_text holds

/-- The next write and the next flush are accepted. -/
structure Output.Ready (output : Output) : Prop where
  write : output.refusal output.writes = none
  flush : output.flushRefusal output.flushes = none

namespace Session

abbrev tape (session : Session) : Tape :=
  session.machine.device.tape

abbrev output (session : Session) : Output :=
  session.machine.device.output

section

variable {type : NumericType} {session : Session} {start : Nat} {value : type.Value}
  {bytes text : Bytes}

theorem completes_writeAs (starts : session.tape.pointer = start)
    (room : start + type.width ≤ session.tape.size) (ready : session.output.Ready)
    (decoded : type.decode (session.tape.span type.width) = .ok value) :
    session.Completes (.ofWords [(Mnemonic.writeAs type).word]) fun last =>
      last.tape = session.tape ∧ last.output.text = session.output.text ++ type.text value := by
  have written : (Instruction.writeAs type).act session.machine.device = .done _ :=
    Device.writeAs_done (Tape.numberText_eq starts room decoded) ready.write
  have completes := completes_of_spellsAll (spells_writeAs type)
    (Instruction.actAll_cons written []) ready.flush
  apply completes.imp
  intro last device
  rw [device]
  exact ⟨rfl, Output.text_accept _ _⟩

theorem completes_setAs (starts : session.tape.pointer = start)
    (room : start + type.width ≤ session.tape.size) (ready : session.output.Ready)
    (literal : type.IsLiteral text value) (encoded : type.encode value = .ok bytes)
    (length : bytes.length = type.width) :
    session.Completes (.ofWords [(Mnemonic.setAs type).word, text]) fun last =>
      last.tape.cells = overwrite session.tape.cells start bytes ∧
        last.tape.pointer = (start + type.width : Nat) := by
  have laid := act_setAs starts room encoded length
  have completes := completes_of_spellsAll (spells_setAs literal)
    (Instruction.actAll_cons laid []) ready.flush
  apply completes.imp
  intro last device
  rw [device]
  exact ⟨rfl, rfl⟩

theorem completes_setAs_writeAs (starts : session.tape.pointer = start)
    (room : start + type.width ≤ session.tape.size) (ready : session.output.Ready)
    (literal : type.IsLiteral text value) (encoded : type.encode value = .ok bytes)
    (decoded : type.decode bytes = .ok value) :
    session.Completes
      (.ofWords [(Mnemonic.setAs type).word, text,
        Mnemonic.moveBackward.word, Decimal.ofNat type.width, (Mnemonic.writeAs type).word])
      fun last =>
        last.tape.pointer = start ∧
          last.output.text = session.output.text ++ type.text value := by
  have length := NumericType.length_of_decode decoded
  have spells : SpellsAll [(Mnemonic.setAs type).word, text,
      Mnemonic.moveBackward.word, Decimal.ofNat type.width, (Mnemonic.writeAs type).word]
      [.setAs type value, .moveBackward type.width, .writeAs type] :=
    SpellsAll.cons (.setAs literal)
      (SpellsAll.cons (.moveBackward (isLiteral_width type)) (spells_writeAs type))
  have acted : Instruction.actAll [.setAs type value, .moveBackward type.width, .writeAs type]
      session.machine.device =
        .done { session.machine.device.stored start bytes start with
          output := session.output.accept (type.text value) } := by
    rw [Instruction.actAll_cons (act_setAs starts room encoded length),
      Instruction.actAll_cons (act_moveBackward start type.width),
      Instruction.actAll_cons (act_writeAs_stored room decoded ready.write)]
    rfl
  apply (completes_of_spellsAll spells acted ready.flush).imp
  intro last device
  rw [device]
  exact ⟨rfl, Output.text_accept _ _⟩

end

/-- What a typed write shows of the cells is one token, and a typed set of this token changes
no cell. What a typed set lays out for a literal, a typed write shows as the text of what the
literal is read as. -/
theorem typed_set_and_typed_write_are_inverse (type : NumericType) (session : Session) (start : Nat)
    (starts : session.tape.pointer = start) (room : start + type.width ≤ session.tape.size)
    (ready : session.output.Ready) :
    (∀ value, type.decode (session.tape.span type.width) = .ok value → type.HasLiteral value →
      ∃ token : Token,
        session.Completes (.ofWords [(Mnemonic.writeAs type).word]) (fun last =>
          last.tape = session.tape ∧
          last.output.text = session.output.text ++ token.value) ∧
        Lexer.tokenize token.value = #[token] ∧ token.kind = .number ∧
        session.Completes (.ofWords [(Mnemonic.setAs type).word, token.value]) (fun last =>
          last.tape.cells = session.tape.cells ∧
          last.tape.pointer = (start + type.width : Nat))) ∧
    (∀ source token value, token ∈ Lexer.tokenize source → token.kind = .number →
      type.parse token.value = .ok value →
      session.Completes
        (.ofWords [(Mnemonic.setAs type).word, token.value,
          Mnemonic.moveBackward.word, Decimal.ofNat type.width, (Mnemonic.writeAs type).word])
        (fun last =>
          last.tape.pointer = start ∧
          last.output.text = session.output.text ++ type.text value)) := by
  constructor
  · intro value decoded hasLiteral
    have length := NumericType.length_of_decode decoded
    have literal := NumericType.isLiteral_text (NumericType.holds_of_decode decoded) hasLiteral
    have encoded := NumericType.encode_of_decode decoded hasLiteral
    have span : session.tape.span type.width =
        (session.tape.cells.extract start (start + type.width)).toList := by
      simp only [Tape.span, starts, Int.toNat_natCast]
    have unchanged := overwrite_extract room
    rw [← span] at unchanged
    have laid := completes_setAs starts room ready literal encoded length
    rw [unchanged] at laid
    exact ⟨{ value := type.text value, position := .start, kind := _ },
      completes_writeAs starts room ready decoded, Lexer.tokenize_word literal.isWord,
      literal.number, laid⟩
  · intro source token value member number parsed
    obtain ⟨isWord, kind⟩ := Lexer.ofWord_of_mem_tokenize member
    have literal : type.IsLiteral token.value value := ⟨isWord, kind.symm.trans number, parsed⟩
    have holds := NumericType.holds_of_parse parsed
    obtain ⟨bytes, encoded, decoded⟩ := NumericType.encode_of_holds holds
    exact completes_setAs_writeAs starts room ready literal encoded decoded

/-- A blank tape of four cells holds the `f32` zero, and shows `-2.5` as it was set. -/
theorem typed_set_and_typed_write_of_f32 :
    let session := Session.start 4 (.ofBytes #[]) {}
    let type := NumericType.float .f32
    (∃ token : Token,
      session.Completes (.ofWords [(Mnemonic.writeAs type).word]) (fun last =>
        last.tape = session.tape ∧ last.output.text = token.value) ∧
      Lexer.tokenize token.value = #[token] ∧ token.kind = .number ∧
      session.Completes (.ofWords [(Mnemonic.setAs type).word, token.value]) (fun last =>
        last.tape.cells = #[0, 0, 0, 0] ∧ last.tape.pointer = 4)) ∧
    session.Completes
      (.ofWords [(Mnemonic.setAs type).word, Bytes.ofString "-2.5",
        Mnemonic.moveBackward.word, Decimal.ofNat 4, (Mnemonic.writeAs type).word])
      (fun last => last.tape.pointer = 0 ∧ last.output.text = Bytes.ofString "-2.5") := by
  intro session type
  have inverse := typed_set_and_typed_write_are_inverse type session 0 rfl (by decide) ⟨rfl, rfl⟩
  have zero : type.HasLiteral (Datum.zero : Datum .double) := by
    constructor
    · intro negative nan
      cases nan
    · intro infinite
      obtain ⟨bounded, same⟩ := infinite
      cases same
  have decoded : FloatType.f32.decode (session.tape.span 4) = .ok Datum.zero := by
    decide +kernel
  have member : { value := Bytes.ofString "-2.5", position := .start, kind := .number } ∈
      Lexer.tokenize (Bytes.ofString "-2.5") := by decide +kernel
  obtain ⟨datum, parsed, text⟩ : ∃ datum,
      FloatType.f32.parse (Bytes.ofString "-2.5") = .ok datum ∧
        FloatType.f32.text datum = Bytes.ofString "-2.5" :=
    ⟨.number true 4612811918334230528 (by decide), by decide +kernel, by decide +kernel⟩
  constructor
  · exact inverse.1 Datum.zero decoded zero
  · obtain ⟨bound, last, completed, pointer, output⟩ := inverse.2 _ _ datum member rfl parsed
    refine ⟨bound, last, completed, pointer, ?_⟩
    rw [← text]
    exact output

end Session

end WordTape
