import WordTape.Brainfuck.Node
import WordTape.Proofs.Brainfuck.Commands

/-!
# Repeated commands

An amount is written as one command for each of its units. Performing these one after
another comes to what the amount comes to at once. If that is too much, the fault comes
later, on the way, but the streams are as they were.
-/

set_option autoImplicit false

namespace WordTape.Brainfuck

def Command.isUnit : Command → Bool
  | right | left | increment | decrement => true
  | output | input | openBracket | closeBracket => false

namespace State

variable {size : Nat}

def performAll (command : Command) : (count : Nat) → State size →
    Except CommandFault (State size)
  | 0, state => .ok state
  | count + 1, state =>
      match state.perform command with
      | .ok next => performAll command count next
      | .error fault => .error fault

@[simp] theorem current_put (value : UInt8) (state : State size) :
    (state.put value).current = value := by
  simp [put, current]

@[simp] theorem put_put (first second : UInt8) (state : State size) :
    (state.put first).put second = state.put second := by
  simp [put]

@[simp] theorem put_current (state : State size) : state.put state.current = state := by
  simp [put, current]

theorem performAll_right (count : Nat) (state : State size) :
    state.performAll .right count =
      if inside : state.pointer + count < size then
        .ok { state with pointer := ⟨state.pointer + count, inside⟩ }
      else .error .offTape := by
  induction count generalizing state with
  | zero => simp [performAll]
  | succ count ih =>
      by_cases inside : state.pointer + 1 < size
      · simp only [performAll, perform, inside, ↓reduceDIte, ih, Nat.add_assoc, Nat.add_comm 1]
      · have outside : ¬state.pointer + (count + 1) < size := by omega
        simp only [performAll, perform, inside, outside, ↓reduceDIte]

theorem performAll_left (count : Nat) (state : State size) :
    state.performAll .left count =
      if count ≤ state.pointer.val then
        .ok { state with pointer := ⟨state.pointer - count, state.pointer_sub_lt count⟩ }
      else .error .offTape := by
  induction count generalizing state with
  | zero => simp [performAll]
  | succ count ih =>
      by_cases inside : 1 ≤ state.pointer.val
      · have same : count ≤ state.pointer - 1 ↔ count + 1 ≤ state.pointer := by omega
        simp only [performAll, perform, inside, ↓reduceIte, ih, same, Nat.sub_sub,
          Nat.add_comm 1]
      · have outside : ¬count + 1 ≤ state.pointer := by omega
        simp only [performAll, perform, inside, outside, ↓reduceIte]

theorem performAll_increment (count : Nat) (state : State size) :
    state.performAll .increment count =
      if state.current.toNat + count ≤ 255 then
        .ok (state.put (UInt8.ofNat (state.current.toNat + count)))
      else .error .cellRange := by
  induction count generalizing state with
  | zero =>
      have below := state.current.toNat_lt
      have inside : state.current.toNat ≤ 255 := by omega
      simp only [performAll, Nat.add_zero, inside, ↓reduceIte, UInt8.ofNat_toNat, put_current]
  | succ count ih =>
      by_cases inside : state.current.toNat + 1 ≤ 255
      · have next : (UInt8.ofNat (state.current.toNat + 1)).toNat = state.current.toNat + 1 :=
          UInt8.toNat_ofNat_of_lt' (by simp only [UInt8.size]; omega)
        simp only [performAll, perform, inside, ↓reduceIte, ih, current_put, put_put, next,
          Nat.add_assoc, Nat.add_comm 1]
      · have outside : ¬state.current.toNat + (count + 1) ≤ 255 := by omega
        simp only [performAll, perform, inside, outside, ↓reduceIte]

theorem performAll_decrement (count : Nat) (state : State size) :
    state.performAll .decrement count =
      if count ≤ state.current.toNat then
        .ok (state.put (UInt8.ofNat (state.current.toNat - count)))
      else .error .cellRange := by
  induction count generalizing state with
  | zero => simp only [performAll, Nat.zero_le, ↓reduceIte, Nat.sub_zero, UInt8.ofNat_toNat,
      put_current]
  | succ count ih =>
      by_cases inside : 1 ≤ state.current.toNat
      · have below := state.current.toNat_lt
        have next : (UInt8.ofNat (state.current.toNat - 1)).toNat = state.current.toNat - 1 :=
          UInt8.toNat_ofNat_of_lt' (by simp only [UInt8.size]; omega)
        have same : count ≤ state.current.toNat - 1 ↔ count + 1 ≤ state.current.toNat := by omega
        simp only [performAll, perform, inside, ↓reduceIte, ih, current_put, put_put, next, same,
          Nat.sub_sub, Nat.add_comm 1]
      · have outside : ¬count + 1 ≤ state.current.toNat := by omega
        simp only [performAll, perform, inside, outside, ↓reduceIte]

theorem perform_unit {command : Command} (unit : command.isUnit = true) {state next : State size}
    (performed : state.perform command = .ok next) :
    next.consumed = state.consumed ∧ next.written = state.written := by
  cases command with
  | output | input | openBracket | closeBracket => cases unit
  | _ =>
      simp only [perform] at performed
      split at performed
      · cases performed
        exact ⟨rfl, rfl⟩
      · cases performed

theorem step_command {command : Command} (notOpen : command ≠ .openBracket)
    (notClose : command ≠ .closeBracket) (passed ahead : Bytes) (state : State size) :
    step command.byte passed ahead state =
      (state.perform command).map fun next =>
        ({ passed := command.byte :: passed, ahead }, next) := by
  cases command with
  | openBracket | closeBracket => contradiction
  | _ => rfl

theorem runs_replicate {command : Command} (unit : command.isUnit = true) (count : Nat)
    (passed ahead : Bytes) (state : State size) :
    match state.performAll command count with
    | .ok next =>
        (runs size).Reaches
          ({ passed, ahead := List.replicate count command.byte ++ ahead }, state)
          ({ passed := (List.replicate count command.byte).reverse ++ passed, ahead }, next)
    | .error fault =>
        (runs size).Ends
          ({ passed, ahead := List.replicate count command.byte ++ ahead }, state)
          (.faulted (some fault) state.written state.consumed) := by
  have notOpen : command ≠ .openBracket := by
    intro same
    subst same
    cases unit
  have notClose : command ≠ .closeBracket := by
    intro same
    subst same
    cases unit
  induction count generalizing passed state with
  | zero => exact .refl
  | succ count ih =>
      have stepped := step_command notOpen notClose passed
        (List.replicate count command.byte ++ ahead) state
      simp only [List.replicate_succ, List.reverse_cons, List.append_assoc, List.cons_append,
        List.nil_append, performAll]
      cases performed : state.perform command with
      | error fault =>
          rw [performed] at stepped
          exact runs_ends_faulted stepped
      | ok next =>
          rw [performed] at stepped
          obtain ⟨consumed, written⟩ := perform_unit unit performed
          have reached := BoundedRun.Reaches.of_step (runs_step stepped)
          have later := ih (command.byte :: passed) next
          simp only
          cases performedAll : performAll command count next with
          | error fault =>
              rw [performedAll, consumed, written] at later
              exact reached.ends later
          | ok last =>
              rw [performedAll] at later
              exact reached.trans later

end State

end WordTape.Brainfuck
