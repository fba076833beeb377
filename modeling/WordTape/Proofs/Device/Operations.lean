import WordTape.Device

/-!
# Device operations that succeed

What an operation on the streams leaves when the stream answers it.
-/

set_option autoImplicit false

namespace WordTape

namespace Output

def accept (chunk : Bytes) (output : Output) : Output :=
  { output with writes := output.writes + 1, chunks := output.chunks.push chunk }

@[simp] theorem text_accept (chunk : Bytes) (output : Output) :
    (output.accept chunk).text = output.text ++ chunk := by
  simp [accept, text]

end Output

namespace Device

variable {device : Device}

theorem emit_accepted (accepted : device.output.refusal device.output.writes = none)
    (chunk : Bytes) :
    device.emit chunk = .done { device with output := device.output.accept chunk } := by
  obtain ⟨tape, input, output⟩ := device
  simp only at accepted
  simp only [emit, Output.write, accepted]
  rfl

theorem emit_refused {reason : Bytes}
    (refused : device.output.refusal device.output.writes = some reason) (chunk : Bytes) :
    device.emit chunk =
      .stopped { device with output.writes := device.output.writes + 1 }
        (.fault (.stream reason)) := by
  obtain ⟨tape, input, output⟩ := device
  simp only at refused
  simp only [emit, Output.write, refused]

theorem readByte_endOfInput
    (ended : device.input.reply device.input.requests = .endOfInput) :
    device.readByte =
      .done { device with input.requests := device.input.requests + 1 } := by
  obtain ⟨tape, input, output⟩ := device
  simp only at ended
  simp only [readByte, Input.read, ended]
  rfl

theorem readByte_byte {byte : UInt8} (onCell : device.tape.OnCell)
    (delivered : device.input.reply device.input.requests = .byte byte) :
    device.readByte =
      .done { device with
        tape := device.tape.put byte
        input.requests := device.input.requests + 1
        input.consumed := device.input.consumed + 1 } := by
  obtain ⟨tape, input, output⟩ := device
  simp only at onCell delivered
  simp only [readByte, Input.read, delivered, onTape, Tape.store, onCell, ↓reduceIte]

end Device

end WordTape
