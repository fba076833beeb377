import WordTape.Proofs.Tape.Bounds

/-!
# Cells that an operation goes over

An operation that stores or clears cell by cell changes only cells that the pointer goes over,
wherever it stops. What changes a single cell changes the one that the pointer is on.
-/

set_option autoImplicit false

namespace WordTape.Tape

variable {tape next later : Tape}

/-- From one tape to the other, the pointer goes forward, and no cell changes but those that it
goes over. -/
structure Sweeps (tape later : Tape) : Prop where
  forward : tape.pointer ≤ later.pointer
  outside : ∀ index : Nat, index < tape.pointer ∨ later.pointer ≤ index →
    later.cells[index]? = tape.cells[index]?

/-- From one tape to the other, the pointer goes forward, and no cell changes but those that it
goes over and the one that it was on. -/
structure Covers (tape later : Tape) : Prop where
  forward : tape.pointer ≤ later.pointer
  window : ∀ index : Nat, later.cells[index]? ≠ tape.cells[index]? →
    tape.pointer ≤ index ∧ index < max later.pointer (tape.pointer + 1)

theorem Sweeps.of_cells (forward : tape.pointer ≤ later.pointer)
    (cells : later.cells = tape.cells) : tape.Sweeps later :=
  ⟨forward, fun _ _ => cells ▸ rfl⟩

theorem Sweeps.refl (tape : Tape) : tape.Sweeps tape :=
  .of_cells (Int.le_refl _) rfl

theorem Sweeps.trans (first : tape.Sweeps next) (second : next.Sweeps later) :
    tape.Sweeps later where
  forward := Int.le_trans first.forward second.forward
  outside := by
    intro index outside
    have forward := first.forward
    have onward := second.forward
    rw [second.outside index (by omega), first.outside index (by omega)]

theorem Sweeps.covers (sweeps : tape.Sweeps later) : tape.Covers later where
  forward := sweeps.forward
  window := by
    intro index changed
    have inside : ¬(index < tape.pointer ∨ later.pointer ≤ index) :=
      fun outside => changed (sweeps.outside index outside)
    omega

theorem Covers.refl (tape : Tape) : tape.Covers tape :=
  (Sweeps.refl tape).covers

theorem getElem?_put_of_ne {index : Nat} (byte : UInt8) (other : tape.pointer.toNat ≠ index) :
    (tape.put byte).cells[index]? = tape.cells[index]? :=
  Array.getElem?_setIfInBounds_ne other

theorem put_covers (onCell : tape.OnCell) (byte : UInt8) : tape.Covers (tape.put byte) where
  forward := Int.le_refl _
  window := by
    intro index changed
    have nonneg := onCell.1
    have here : tape.pointer.toNat = index := by
      by_contra other
      exact changed (getElem?_put_of_ne byte other)
    rw [pointer_put]
    omega

/-! ## Single cells -/

theorem Adjusts.covers {outcome : Outcome Tape} (adjusts : tape.Adjusts outcome) :
    tape.Covers outcome.state := by
  cases adjusts with
  | done byte onCell => exact put_covers onCell byte
  | stopped cause => exact .refl tape

/-! ## Runs of cells -/

theorem storeNext_sweeps (byte : UInt8) (tape : Tape) :
    tape.Sweeps (tape.storeNext byte).state := by
  by_cases onCell : tape.OnCell
  · rw [storeNext_of_onCell onCell]
    have nonneg := onCell.1
    refine ⟨Int.le_add_one (Int.le_refl _), fun index outside => ?_⟩
    simp only [Outcome.state] at outside ⊢
    exact getElem?_put_of_ne byte (by omega)
  · rw [storeNext_of_not_onCell onCell]
    exact .refl tape

theorem setString_sweeps (text : Bytes) (tape : Tape) :
    tape.Sweeps (tape.setString text).state := by
  induction text generalizing tape with
  | nil => exact .refl tape
  | cons byte rest ih =>
      exact Outcome.state_andThen (storeNext_sweeps byte tape) fun next stored =>
        stored.trans (ih next)

theorem setAs_sweeps (type : NumericType) (value : type.Value) (tape : Tape) :
    tape.Sweeps (tape.setAs type value).state := by
  unfold setAs
  split
  · exact .refl tape
  · split
    · exact .refl tape
    · exact setString_sweeps _ tape

theorem clearRun_sweeps (tape : Tape) : tape.Sweeps tape.clearRun.state := by
  fun_induction clearRun tape with
  | case1 tape last cause stored =>
      have first := storeNext_sweeps 0 tape
      rwa [stored] at first
  | case2 tape next stored fault current =>
      have first := storeNext_sweeps 0 tape
      rwa [stored] at first
  | case3 tape next stored current =>
      have first := storeNext_sweeps 0 tape
      rwa [stored] at first
  | case4 tape next stored value current nonzero ih =>
      have first := storeNext_sweeps 0 tape
      rw [stored] at first
      exact first.trans ih

end WordTape.Tape
