import Mathlib.Data.List.Induction
import Mathlib.Tactic.Ring
import WordTape.Numeric.Decimal

/-!
# Digits and their value

The value of digits in a row, with zeros in front of them or behind them, and the number
of digits of a numeral.
-/

set_option autoImplicit false

namespace WordTape.Decimal

theorem value_append (left right : Bytes) :
    value (left ++ right) = value left * 10 ^ right.length + value right := by
  induction right using List.reverseRecOn with
  | nil => simp [value]
  | append_singleton right byte ih =>
      rw [← List.append_assoc, value_append_singleton, ih, value_append_singleton,
        List.length_append, List.length_singleton]
      ring

theorem value_zeros (count : Nat) : value (List.replicate count 48) = 0 := by
  induction count with
  | zero => rfl
  | succ count ih =>
      rw [List.replicate_succ', value_append_singleton, ih]
      rfl

theorem value_append_zeros (digits : Bytes) (count : Nat) :
    value (digits ++ List.replicate count 48) = value digits * 10 ^ count := by
  rw [value_append, value_zeros, List.length_replicate, Nat.add_zero]

theorem value_padLeft (width : Nat) (digits : Bytes) :
    value (Bytes.padLeft width 48 digits) = value digits := by
  rw [Bytes.padLeft, value_append, value_zeros, Nat.zero_mul, Nat.zero_add]

theorem ofNat_ne_nil (number : Nat) : ofNat number ≠ [] := by
  rw [ofNat]
  split
  · exact List.cons_ne_nil _ _
  · exact List.append_ne_nil_of_right_ne_nil _ (List.cons_ne_nil _ _)

/-- A number below a power of ten has at most as many digits as the power has zeros. -/
theorem length_ofNat_le {count : Nat} (positive : 0 < count) {number : Nat}
    (below : number < 10 ^ count) : (ofNat number).length ≤ count := by
  induction count generalizing number with
  | zero => contradiction
  | succ count ih =>
      rw [ofNat]
      split
      · exact Nat.succ_le_succ (Nat.zero_le count)
      · rename_i large
        have several : 0 < count := by
          apply Nat.pos_of_ne_zero
          intro none
          subst none
          omega
        have fewer := ih several (Nat.div_lt_of_lt_mul (Nat.pow_succ' ▸ below))
        rw [List.length_append, List.length_singleton]
        omega

theorem all_isDigit_ofNat (number : Nat) : (ofNat number).all isDigit = true :=
  List.all_eq_true.mpr fun _ => isDigit_of_mem_ofNat

theorem all_isDigit_zeros (count : Nat) : (List.replicate count 48).all isDigit = true := by
  rw [List.all_eq_true]
  intro byte member
  rw [List.eq_of_mem_replicate member]
  rfl

end WordTape.Decimal
