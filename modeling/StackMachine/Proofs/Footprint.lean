import StackMachine.Proofs.Failures
import StackMachine.Proofs.Stepping

/-!
The footprint of an instruction on the stack: the slots it pops and the slots
it writes. An instruction pops from the height it starts at down to the lowest
height it reaches, and what it pushes goes into the slots above that height; a
store writes one slot more. No other slot changes.

A step respects its frame when, inside a call and unless it returns, all of its
footprint lies above the frame's header and a call takes its arguments from
there too.
-/

namespace StackMachine

namespace Opcode

def pushes : Opcode → Nat
  | .const | .fetch | .gfetch | .binary _ | .ret => 1
  | .call => 3
  | .halt | .store | .gstore | .pop | .branch _ | .goto | .print => 0

end Opcode

namespace Core

/-- The lowest height of the stack while the instruction is executed. -/
def lowest (core : Core) (instruction : Instruction) : Nat :=
  match perform instruction core with
  | .ok _ after => after.stack.height - instruction.opcode.pushes
  | .error _ after => after.stack.height

def popped (core : Core) (instruction : Instruction) : List Nat :=
  List.range' (core.lowest instruction) (core.stack.height - core.lowest instruction)

def stored? (core : Core) (instruction : Instruction) : Option Nat :=
  match instruction.opcode with
  | .store => (instruction.operand 0).toOption.bind fun address =>
      (core.stack.slot address).toOption
  | _ => none

def written (core : Core) (instruction : Instruction) : List Nat :=
  match perform instruction core with
  | .ok _ after =>
      List.range' (core.lowest instruction) (after.stack.height - core.lowest instruction)
        ++ (core.stored? instruction).toList
  | .error _ _ => []

def RespectsFrame (core : Core) (instruction : Instruction) : Prop :=
  0 < core.depth → instruction.opcode ≠ .ret →
    (∀ i ∈ core.popped instruction ++ core.written instruction, core.fp < i)
      ∧ (instruction.opcode = .call →
        ∀ count ∈ instruction.count? 1, (count : Int) ≤ core.stack.pointer - core.fp)

instance (core : Core) (instruction : Instruction) : Decidable (core.RespectsFrame instruction) :=
  inferInstanceAs (Decidable (_ → _ → _ ∧ _))

variable {core after : Core} {instruction : Instruction} {effect : Effect}

theorem lowest_of_ok (performed : perform instruction core = .ok effect after) :
    core.lowest instruction = after.stack.height - instruction.opcode.pushes := by
  simp only [lowest, performed]

theorem mem_popped {i : Nat} :
    i ∈ core.popped instruction ↔ core.lowest instruction ≤ i ∧ i < core.stack.height := by
  simp only [popped, List.mem_range'_1]
  omega

theorem mem_written (performed : perform instruction core = .ok effect after) {i : Nat} :
    i ∈ core.written instruction ↔
      (core.lowest instruction ≤ i ∧ i < after.stack.height)
        ∨ core.stored? instruction = some i := by
  have range : core.lowest instruction ≤ i ∧ i < core.lowest instruction
      + (after.stack.height - core.lowest instruction) ↔
      core.lowest instruction ≤ i ∧ i < after.stack.height := by omega
  simp only [written, performed, List.mem_append, List.mem_range'_1, Option.mem_toList, range]

theorem cells_of_not_mem_written (performed : perform instruction core = .ok effect after)
    {i : Nat} (outside : i ∉ core.written instruction) :
    after.stack.cells[i]? = core.stack.cells[i]? := by
  rw [mem_written performed, lowest_of_ok performed] at outside
  cases executes_of_perform performed with
  | halt op => rfl
  | const op operand room =>
    simp only [op, Opcode.pushes, Stack.pushed_height] at outside
    exact Stack.pushed_cells_of_ne _ (by omega)
  | @store address value slot op operand place top =>
    have found : core.stored? instruction = some slot := by
      simp only [stored?, op, operand, place, Except.toOption, Option.bind_some]
    simp only [found, Option.some.injEq] at outside
    exact Array.getElem?_setIfInBounds_ne (by omega)
  | fetch op operand content room =>
    simp only [op, Opcode.pushes, Stack.pushed_height] at outside
    exact Stack.pushed_cells_of_ne _ (by omega)
  | gstore op operand place top => rfl
  | gfetch op operand content room =>
    simp only [op, Opcode.pushes, Stack.pushed_height] at outside
    exact Stack.pushed_cells_of_ne _ (by omega)
  | pop op top => rfl
  | binary op two top next applied =>
    simp only [op, Opcode.pushes, Stack.pushed_height, Stack.lowered_height] at outside
    have other : i ≠ (core.stack.lowered (core.stack.height - 2)).height := by
      simp only [Stack.lowered_height]
      omega
    exact Stack.pushed_cells_of_ne _ other
  | branch op operand whole two topmost second holds => rfl
  | goto op operand whole => rfl
  | call op goal arguments enough room =>
    simp only [op, Opcode.pushes, called_height] at outside
    exact called_cells core _ (by omega)
  | ret op deep above top siteSlot callerSlot countSlot enough =>
    simp only [op, Opcode.pushes, returned_height] at outside
    exact returned_cells core _ _ _ (by omega)
  | print op top => rfl

theorem RespectsFrame.kept (respects : core.RespectsFrame instruction) (deep : 0 < core.depth)
    (stays : instruction.opcode ≠ .ret) (above : core.fp < core.stack.height)
    (performed : perform instruction core = .ok effect after) :
    (∀ i ≤ core.fp, after.stack.cells[i]? = core.stack.cells[i]?)
      ∧ core.fp < after.stack.height := by
  have outside := (respects deep stays).1
  simp only [List.mem_append] at outside
  have clear : core.fp < core.lowest instruction := by
    by_contra low
    have slot : core.fp ∈ core.popped instruction := mem_popped.2 ⟨by omega, above⟩
    exact Nat.lt_irrefl _ (outside _ (.inl slot))
  refine ⟨fun i le => ?_, ?_⟩
  · apply cells_of_not_mem_written performed
    intro slot
    have := outside i (.inr slot)
    omega
  · rw [lowest_of_ok performed] at clear
    omega

theorem RespectsFrame.kept_of_error {fault : Fault} (respects : core.RespectsFrame instruction)
    (deep : 0 < core.depth) (stays : instruction.opcode ≠ .ret)
    (above : core.fp < core.stack.height)
    (performed : perform instruction core = .error fault after) :
    core.fp < after.stack.height := by
  have outside := (respects deep stays).1
  have low : core.lowest instruction = after.stack.height := by simp only [lowest, performed]
  by_contra below
  have slot : core.fp ∈ core.popped instruction := mem_popped.2 ⟨by omega, above⟩
  exact Nat.lt_irrefl _ (outside _ (List.mem_append_left _ slot))

end Core

namespace Machine

def RespectsFrame (m : Machine) : Prop :=
  m.status = .running → ∀ instruction ∈ m.fetched?, m.core.RespectsFrame instruction

instance (m : Machine) : Decidable m.RespectsFrame :=
  inferInstanceAs (Decidable (_ → ∀ instruction ∈ m.fetched?, m.core.RespectsFrame instruction))

end Machine

end StackMachine
