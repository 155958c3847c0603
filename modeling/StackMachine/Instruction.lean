import StackMachine.Fault

/-!
Instructions: an opcode and the operands written after it. How many operands
an instruction carries is not tied to what its opcode takes; an operand that is
asked for and missing is a fault.
-/

namespace StackMachine

structure Instruction where
  opcode : Opcode
  operands : List Value
deriving DecidableEq

namespace Instruction

def operand (instruction : Instruction) (index : Nat) : Except Fault Value :=
  match instruction.operands[index]? with
  | some value => .ok value
  | none => .error (.missingOperand instruction.opcode)

theorem operand_eq_ok_iff {instruction : Instruction} {index : Nat} {value : Value} :
    instruction.operand index = .ok value ↔ instruction.operands[index]? = some value := by
  unfold operand
  cases instruction.operands[index]? <;> simp

def text (instruction : Instruction) : String :=
  instruction.opcode.mnemonic
    ++ String.join (instruction.operands.map fun value => " " ++ value.quoted)

end Instruction

end StackMachine
