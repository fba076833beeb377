import WordTape.Bytes

/-!
# Big-endian numbers

A natural number in base 256, most significant byte first. Writing a number on a
given count of bytes drops what does not fit, and reading inverts writing.
-/

set_option autoImplicit false

namespace WordTape.BigEndian

/-- The given number of bytes of a number, most significant first. -/
def ofNat : Nat → Nat → Bytes
  | 0, _ => []
  | width + 1, number => ofNat width (number / 256) ++ [UInt8.ofNat number]

def toNat (bytes : Bytes) : Nat :=
  bytes.foldl (fun total byte => 256 * total + byte.toNat) 0

@[simp] theorem length_ofNat (width number : Nat) : (ofNat width number).length = width := by
  induction width generalizing number with
  | zero => rfl
  | succ width ih => simp [ofNat, ih]

theorem toNat_append_singleton (bytes : Bytes) (byte : UInt8) :
    toNat (bytes ++ [byte]) = 256 * toNat bytes + byte.toNat := by
  simp [toNat]

/-- Reading gives back the part of the number that the bytes can hold. -/
theorem toNat_ofNat (width number : Nat) :
    toNat (ofNat width number) = number % Nat.pow 256 width := by
  induction width generalizing number with
  | zero => simp [ofNat, toNat, Nat.mod_one]
  | succ width ih =>
      have power : Nat.pow 256 (width + 1) = 256 * Nat.pow 256 width := Nat.mul_comm _ _
      have split := Nat.mod_mul (x := number) (a := 256) (b := Nat.pow 256 width)
      rw [ofNat, toNat_append_singleton, ih, UInt8.toNat_ofNat', power, split]
      exact Nat.add_comm _ _

end WordTape.BigEndian
