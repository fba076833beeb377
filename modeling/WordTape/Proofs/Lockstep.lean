import WordTape.Proofs.Mirrored
import WordTape.Proofs.Placement
import WordTape.Proofs.Transition

/-!
# Machines in step

A machine walks over a program, and another in step with it over a longer program in
which this one is placed, on an image of its device. Both advance together, and they stop
for the same fault, unless it is one that the image is excused from.
-/

set_option autoImplicit false

namespace WordTape

def RunFault.Excused (excused : Interruption → Prop) : RunFault → Prop
  | interrupted _ cause => excused cause
  | notInstruction _ | noOpenLoop _ => False

/-- The second machine is on the image of the device of the first, and all its places lie
behind those of the first by the same distance. -/
structure Machine.InStep (image : Device → Device) (offset : Nat) (machine other : Machine) :
    Prop where
  device : other.device = image machine.device
  loops : other.loops = machine.loops.map (offset + ·)
  index : other.index = offset + machine.index

/-- The second run ends as the first, or an excused fault has stopped the first. -/
inductive Run.InStep (image : Device → Device) (excused : Interruption → Prop)
    (offset lines : Nat) : Run → Run → Prop where
  | suspended {position : Nat} {machine other : Machine} :
      machine.InStep image offset other →
      InStep image excused offset lines (.suspended position machine)
        (.suspended (offset + position) other)
  | finished {machine other : Machine} :
      machine.InStep image offset other →
      InStep image excused offset lines (.finished machine) (.finished other)
  | faulted {machine other : Machine} {fault : RunFault} :
      machine.InStep image offset other →
      InStep image excused offset lines (.faulted machine fault)
        (.faulted other (fault.below lines))
  | excused {machine : Machine} {fault : RunFault} {run : Run} :
      fault.Excused excused → InStep image excused offset lines (.faulted machine fault) run

namespace Machine

variable {image : Device → Device} {excused : Interruption → Prop} {tokens whole : Array Token}
  {offset lines position next : Nat} {machine later last other : Machine} {fault : RunFault}

section

variable (mirror : Device.Mirror image excused) (placed : Placed tokens whole offset lines)
  (inStep : machine.InStep image offset other)

include mirror placed inStep

theorem Advances.follow (advances : Advances tokens position machine next later) :
    ∃ follower, Advances whole (offset + position) other (offset + next) follower ∧
      later.InStep image offset follower := by
  obtain ⟨device, loops, index⟩ := inStep
  cases advances with
  | @act token instruction _ stands notOpen notClose acted =>
      have mirrored := mirror.act instruction machine.device
      rw [acted, ← device] at mirrored
      have follows := Advances.act (stands.placed placed) notOpen notClose mirrored.of_done
      rw [Nat.add_assoc] at follows
      exact ⟨_, follows, rfl, loops, rfl⟩
  | openLoop stands =>
      refine ⟨_, Advances.openLoop (stands.placed placed), device, ?_, rfl⟩
      simp only [loops, List.map_cons]
  | closeLoop stands top current =>
      have same := mirror.current _ _ current
      rw [← device] at same
      rw [top, List.map_cons] at loops
      exact ⟨_, Advances.closeLoop (stands.placed placed) loops same, device, rfl, rfl⟩
  | repeatLoop stands top current nonzero =>
      have same := mirror.current _ _ current
      rw [← device] at same
      have back := loops
      rw [top, List.map_cons] at back
      exact ⟨_, Advances.repeatLoop (stands.placed placed) back same nonzero, device, loops, rfl⟩

theorem Faults.follow (ended : whole.size = offset + tokens.size)
    (faults : Faults tokens position machine last fault) :
    fault.Excused excused ∨
      ∃ follower, Faults whole (offset + position) other follower (fault.below lines) ∧
        last.InStep image offset follower := by
  obtain ⟨device, loops, index⟩ := inStep
  cases faults with
  | notInstruction found unread =>
      have refused := placed.fetch_error ended unread
      exact .inr ⟨_, .notInstruction (placed _ _ found) refused, device, loops, rfl⟩
  | noOpenLoop stands empty =>
      have none : other.loops = [] := by rw [loops, empty, List.map_nil]
      exact .inr ⟨_, .noOpenLoop (stands.placed placed) none, device, loops, rfl⟩
  | test stands top current =>
      rcases mirror.test _ _ current with allowed | same
      · exact .inl allowed
      · rw [← device] at same
        have back := loops
        rw [top, List.map_cons] at back
        exact .inr ⟨_, .test (stands.placed placed) back same, device, loops, rfl⟩
  | @act token instruction left cause stands notOpen notClose acted =>
      have mirrored := mirror.act instruction machine.device
      rw [acted, ← device] at mirrored
      cases stopped : instruction.act other.device with
      | done state =>
          rw [stopped] at mirrored
          cases mirrored with
          | excused allowed => exact .inl allowed
      | stopped state otherCause =>
          rw [stopped] at mirrored
          cases mirrored with
          | excused allowed => exact .inl allowed
          | stopped =>
              have follows := Faults.act (stands.placed placed) notOpen notClose stopped
              exact .inr ⟨_, follows, rfl, loops, rfl⟩

end

/-- Two machines that start in step end in step. -/
theorem execute_inStep (mirror : Device.Mirror image excused)
    (placed : Placed tokens whole offset lines) (ended : whole.size = offset + tokens.size)
    (bound position : Nat) (inStep : machine.InStep image offset other) :
    Run.InStep image excused offset lines (execute tokens bound position machine)
      (execute whole bound (offset + position) other) := by
  induction bound generalizing position machine other with
  | zero =>
      have same := placed.getElem? ended position
      cases found : tokens[position]? with
      | none =>
          rw [found] at same
          rw [execute_end found, execute_end same]
          exact .finished inStep
      | some token =>
          rw [found] at same
          rw [execute_zero found, execute_zero same]
          exact .suspended inStep
  | succ bound ih =>
      have same := placed.getElem? ended position
      cases found : tokens[position]? with
      | none =>
          rw [found] at same
          rw [execute_end found, execute_end same]
          exact .finished inStep
      | some token =>
          rcases advances_or_faults found machine with
            ⟨next, later, advances⟩ | ⟨last, fault, faults⟩
          · obtain ⟨follower, follows, still⟩ := advances.follow mirror placed inStep
            rw [advances.execute, follows.execute]
            exact ih next still
          · rw [faults.execute]
            rcases faults.follow mirror placed inStep ended with
              allowed | ⟨follower, follows, still⟩
            · exact .excused allowed
            · rw [follows.execute]
              exact .faulted still

end Machine

end WordTape
