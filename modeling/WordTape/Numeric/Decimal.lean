import WordTape.Bytes

/-!
# Decimal numerals

Numbers are written in decimal without leading zeros, and a run of digits is read
by its positional value. Reading what was written gives the number back.
-/

set_option autoImplicit false

namespace WordTape.Decimal

def isDigit (byte : UInt8) : Bool :=
  48 ≤ byte && byte ≤ 57

/-- The digit of a number below ten. -/
def digit (value : Nat) : UInt8 :=
  48 + UInt8.ofNat value

def ofNat (number : Nat) : Bytes :=
  if number < 10 then [digit number]
  else ofNat (number / 10) ++ [digit (number % 10)]

def ofInt : Int → Bytes
  | .ofNat number => ofNat number
  | .negSucc predecessor => 45 :: ofNat (predecessor + 1)

def value (digits : Bytes) : Nat :=
  digits.foldl (fun total byte => 10 * total + (byte.toNat - 48)) 0

theorem value_append_singleton (digits : Bytes) (byte : UInt8) :
    value (digits ++ [byte]) = 10 * value digits + (byte.toNat - 48) := by
  simp [value]

theorem toNat_digit {number : Nat} (below : number < 10) : (digit number).toNat = 48 + number := by
  simp only [digit, UInt8.toNat_add, UInt8.toNat_ofNat']
  have : (48 : UInt8).toNat = 48 := rfl
  omega

theorem value_ofNat (number : Nat) : value (ofNat number) = number := by
  fun_induction ofNat number with
  | case1 number small =>
      simp [value, toNat_digit small]
  | case2 number large ih =>
      rw [value_append_singleton, ih, toNat_digit (Nat.mod_lt _ (by omega))]
      omega

theorem isDigit_of_mem_ofNat {number : Nat} {byte : UInt8} (member : byte ∈ ofNat number) :
    isDigit byte = true := by
  have digitIsDigit : ∀ value : Nat, value < 10 → isDigit (digit value) = true := by decide
  fun_induction ofNat number with
  | case1 number small =>
      simp only [List.mem_singleton] at member
      exact member ▸ digitIsDigit _ small
  | case2 number large ih =>
      rcases List.mem_append.mp member with inFront | last
      · exact ih inFront
      · simp only [List.mem_singleton] at last
        exact last ▸ digitIsDigit _ (Nat.mod_lt _ (by omega))

end WordTape.Decimal
