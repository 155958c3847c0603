import StackMachine.Proofs.Lockstep

/-!
The size of the stack. A program that does not address slots from the far end
cannot tell how large its stack is until it runs out of it: on a larger stack it
does the same, for as long as the smaller one suffices.
-/

namespace StackMachine

namespace Fault

def IsStackFull (fault : Fault) : Prop :=
  fault.message = "cannot push because stack is full"
    ∨ fault.message = "cannot call because stack is full"

instance (fault : Fault) : Decidable fault.IsStackFull :=
  inferInstanceAs (Decidable (_ ∨ _))

theorem isStackFull_full : (full "stack").IsStackFull :=
  .inl (by decide)

theorem isStackFull_noRoomForFrame : noRoomForFrame.IsStackFull :=
  .inr rfl

end Fault

def Program.Unaddressed (program : Program) : Prop :=
  ∀ instruction ∈ program.instructions,
    instruction.opcode ≠ .store ∧ instruction.opcode ≠ .fetch

namespace Machine

theorem matches_load (program : Program) {small large : Nat} (entry : Nat) (tracing : Bool)
    (le : small ≤ large) :
    Matches Fault.IsStackFull (load program ⟨small, entry, tracing⟩)
      (load program ⟨large, entry, tracing⟩) where
  program := rfl
  tracing := rfl
  core := {
    ip := rfl
    fp := rfl
    depth := rfl
    stack := {
      name := rfl
      height := rfl
      valid := Nat.zero_le _
      capacity := by
        show (Stack.empty "stack" small).capacity ≤ (Stack.empty "stack" large).capacity
        rwa [Stack.empty_capacity, Stack.empty_capacity]
      excuse := fun _ => ⟨Fault.isStackFull_full, Fault.isStackFull_noRoomForFrame⟩
      shown := nofun }
    globals := rfl }
  status := rfl
  waiting := rfl

theorem fetchesLive_of_unaddressed {m : Machine} (plain : m.program.Unaddressed) :
    m.FetchesLive := by
  intro _ instruction fetched i slot
  have other := (plain instruction (Array.mem_of_getElem? fetched)).2
  unfold Core.fetchedSlot? at slot
  split at slot
  · rename_i op
    exact absurd op other
  · cases slot

/-- A program that addresses no slot of the stack, on two stacks of different
size: unless the smaller one has been too small, both have had the same results
and outputs, and they differ in the room above the top only. -/
theorem larger_stack_changes_nothing (program : Program) (small large entry : Nat)
    (tracing : Bool) (steps : Nat) (le : small ≤ large) (plain : program.Unaddressed)
    (enough : ∀ k < steps, ∀ error,
      (next^[k] (load program ⟨small, entry, tracing⟩)).outcome = .error error →
        ¬ error.fault.IsStackFull) :
    let first := load program ⟨small, entry, tracing⟩
    let second := load program ⟨large, entry, tracing⟩
    (∀ k < steps, (next^[k] second).outcome = (next^[k] first).outcome)
      ∧ (next^[steps] second).waiting = (next^[steps] first).waiting
      ∧ (next^[steps] second).status = (next^[steps] first).status
      ∧ (next^[steps] second).core.ip = (next^[steps] first).core.ip
      ∧ (next^[steps] second).core.fp = (next^[steps] first).core.fp
      ∧ (next^[steps] second).core.depth = (next^[steps] first).core.depth
      ∧ (next^[steps] second).core.stack.live = (next^[steps] first).core.stack.live
      ∧ (next^[steps] second).core.globals = (next^[steps] first).core.globals := by
  intro first second
  have steady : ∀ k < steps, (next^[k] first).Steady Fault.IsStackFull := by
    intro k lt
    have plain : (next^[k] first).program.Unaddressed := by
      rw [iterate_load_program]
      exact plain
    refine ⟨fun instruction fetched addresses => ?_, fetchesLive_of_unaddressed plain, enough k lt⟩
    obtain ⟨store, fetch⟩ := plain instruction (Array.mem_of_getElem? fetched)
    exact absurd addresses (not_or.2 ⟨store, fetch⟩)
  obtain ⟨outcomes, matched⟩ := (matches_load program entry tracing le).iterate steady
  exact ⟨outcomes, matched.waiting, matched.status, matched.core.ip, matched.core.fp,
    matched.core.depth, matched.core.stack.live, matched.core.globals⟩

def endlessCalls : Program :=
  .ofInstructions #[⟨.const, [.ofNat 3]⟩, ⟨.print, []⟩, ⟨.call, [.ofNat 0, .ofNat 1]⟩]

/-- Two calls fit on the smaller stack, and then it is full. Up to there the larger
one shows the same. -/
theorem larger_stack_changes_nothing_of_endlessCalls :
    let first := load endlessCalls ⟨8, 0, true⟩
    let second := load endlessCalls ⟨100, 0, true⟩
    endlessCalls.Unaddressed
      ∧ (∀ k < 6, (next^[k] first).outcome.toOption = some true)
      ∧ (next^[7] first).status = .failed ∧ (next^[7] second).status = .running
      ∧ (∀ k < 6, (next^[k] second).outcome = (next^[k] first).outcome)
      ∧ (next^[6] second).waiting = (next^[6] first).waiting
      ∧ (next^[6] second).core.stack.live = (next^[6] first).core.stack.live := by
  intro first second
  have plain : endlessCalls.Unaddressed := by
    unfold Program.Unaddressed
    decide
  have fine : ∀ k < 6, (next^[k] first).outcome.toOption = some true := by decide +kernel
  obtain ⟨outcomes, waiting, -, -, -, -, live, -⟩ :=
    larger_stack_changes_nothing endlessCalls 8 100 0 true 6 (by decide) plain
      fun k lt error failed => by cases (fine k lt).symm.trans (congrArg Except.toOption failed)
  exact ⟨plain, fine, by decide +kernel, by decide +kernel, outcomes, waiting, live⟩

end Machine

end StackMachine
