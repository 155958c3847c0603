import StackMachine.Proofs.Failures
import StackMachine.Proofs.Stepping

/-!
The bounds that no program can break, whatever it does to its frames: the
arrays keep their sizes, the top stays inside the stack, the globals are never
pushed to, and the frame register is a count or a slot.
-/

namespace StackMachine

namespace Core

structure Bounded (stackSize : Nat) (core : Core) : Prop where
  capacity : core.stack.capacity = stackSize
  valid : core.stack.Valid
  globalsCapacity : core.globals.capacity = globalsSize
  globalsHeight : core.globals.height = 0
  frame : core.fp < Number.wholeLimit ∨ core.fp < stackSize

theorem bounded_start (stackSize entry : Nat) : (start stackSize entry).Bounded stackSize where
  capacity := Stack.empty_capacity _ _
  valid := Stack.empty_valid _ _
  globalsCapacity := Stack.empty_capacity _ _
  globalsHeight := rfl
  frame := .inl (Nat.two_pow_pos 53)

variable {stackSize : Nat} {core : Core}

theorem Bounded.withStack (bounded : core.Bounded stackSize) {stack : Stack}
    (capacity : stack.capacity = core.stack.capacity) (height : stack.height ≤ core.stack.capacity) :
    Bounded stackSize { core with stack := stack } where
  capacity := capacity.trans bounded.capacity
  valid := Nat.le_trans height (Nat.le_of_eq capacity.symm)
  globalsCapacity := bounded.globalsCapacity
  globalsHeight := bounded.globalsHeight
  frame := bounded.frame

theorem Bounded.pushed (bounded : core.Bounded stackSize) {value : Value}
    (room : core.stack.height < core.stack.capacity) :
    Bounded stackSize { core with stack := core.stack.pushed value } :=
  bounded.withStack (core.stack.pushed_capacity value) room

theorem Bounded.lowered (bounded : core.Bounded stackSize) {height : Nat}
    (lower : height ≤ core.stack.height) :
    Bounded stackSize { core with stack := core.stack.lowered height } :=
  bounded.withStack rfl (Nat.le_trans lower bounded.valid)

theorem Bounded.executes {after : Core} {instruction : Instruction} {effect : Effect}
    (bounded : core.Bounded stackSize) (h : Executes core instruction effect after) :
    after.Bounded stackSize := by
  have valid : core.stack.height ≤ core.stack.capacity := bounded.valid
  cases h with
  | halt op => exact bounded
  | const op operand room => exact bounded.pushed room
  | store op operand place top =>
    exact bounded.withStack (core.stack.stored_capacity _ _)
      (by simp only [Stack.stored_height]; omega)
  | fetch op operand content room => exact bounded.pushed room
  | @gstore address value slot op operand place top =>
    have lower := bounded.lowered (Nat.sub_le core.stack.height 1)
    have size : (core.globals.cells.setIfInBounds slot value).size = globalsSize := by
      rw [Array.size_setIfInBounds]
      exact bounded.globalsCapacity
    exact ⟨lower.capacity, lower.valid, size, bounded.globalsHeight, bounded.frame⟩
  | gfetch op operand content room => exact bounded.pushed room
  | pop op top => exact bounded.lowered (Nat.sub_le _ _)
  | binary op two top next applied =>
    refine bounded.withStack (Stack.pushed_capacity _ _) ?_
    simp only [Stack.pushed_height, Stack.lowered_height]
    omega
  | branch op operand whole two topmost second holds => exact bounded.lowered (Nat.sub_le _ _)
  | goto op operand whole => exact bounded
  | @call target count op goal arguments enough room =>
    have size := bounded.capacity
    exact {
      capacity := (core.called_capacity count).trans bounded.capacity
      valid := by
        show core.stack.height + 3 ≤ (core.called count).stack.capacity
        rw [called_capacity]
        exact room
      globalsCapacity := bounded.globalsCapacity
      globalsHeight := bounded.globalsHeight
      frame := .inr (by show core.stack.height + 2 < stackSize; omega) }
  | @ret result count caller site op deep above top siteSlot callerSlot countSlot enough =>
    exact {
      capacity := (core.returned_capacity result count caller).trans bounded.capacity
      valid := by
        show core.fp - 2 - count + 1 ≤ (core.returned result count caller).stack.capacity
        rw [returned_capacity]
        omega
      globalsCapacity := bounded.globalsCapacity
      globalsHeight := bounded.globalsHeight
      frame := .inl (Stack.count?_lt callerSlot) }
  | print op top => exact bounded

theorem Bounded.fails {after : Core} {instruction : Instruction} {fault : Fault}
    (bounded : core.Bounded stackSize) (h : Fails core instruction fault after) :
    after.Bounded stackSize := by
  cases h with
  | early inside => exact bounded
  | mismatch op two => exact bounded.lowered (Nat.sub_le _ _)
  | unwinding op opened inside lower => exact bounded.lowered (Nat.le_of_lt lower)

end Core

namespace Machine

theorem Moves.bounded {stackSize : Nat} {m after : Machine} (bounded : m.core.Bounded stackSize)
    (h : Moves m after) : after.core.Bounded stackSize := by
  cases h with
  | idle rest => exact bounded
  | ended running past => exact bounded
  | failed running fetched performed =>
    exact bounded.fails (Core.fails_of_perform bounded.valid performed)
  | done running fetched performed =>
    -- the address of the next instruction is no part of the bounds
    obtain ⟨capacity, valid, globalsCapacity, globalsHeight, frame⟩ :=
      bounded.executes (Core.executes_of_perform performed)
    exact ⟨capacity, valid, globalsCapacity, globalsHeight, frame⟩

theorem bounded_iterate (program : Program) (settings : Settings) (n : Nat) :
    (next^[n] (load program settings)).core.Bounded settings.stackSize := by
  induction n with
  | zero => exact Core.bounded_start settings.stackSize settings.entry
  | succ n ih =>
    rw [Function.iterate_succ_apply']
    exact (moves_next _).bounded ih

end Machine

end StackMachine
