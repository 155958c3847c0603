import StackMachine.Diagnostic

/-!
Faults of a source text, one constructor for each cause, and the fixed wording
of each. Every fault of a source belongs to the class of code errors.
-/

namespace StackMachine

inductive SourceFault where
  | invalidLabel (name : String)
  | reservedLabel (name : String)
  | duplicateLabel (name : String)
  | unknownInstruction (word : String)
  | expectedInstruction (found : Token)
  | unterminatedText
  | misplacedLabel (name : String)
  | operandCount (op : Opcode) (found : Nat)
  | unresolvedWord (word : String)
  | invalidOperand (found : Token)
deriving DecidableEq

namespace SourceFault

def message : SourceFault → String
  | .invalidLabel name => "invalid label '" ++ name ++ "'"
  | .reservedLabel name => "reserved word '" ++ name ++ "' used as label"
  | .duplicateLabel name => "duplicate label '" ++ name ++ "'"
  | .unknownInstruction word => "unknown instruction '" ++ word ++ "'"
  | .expectedInstruction found => "expected instruction, found '" ++ found.text ++ "'"
  | .unterminatedText => "unterminated string"
  | .misplacedLabel name => "unexpected label declaration '" ++ name ++ ":'"
  | .operandCount op found =>
      "wrong operand count; " ++ op.mnemonic ++ " expects " ++ toString op.arity
        ++ ", found " ++ toString found
  | .unresolvedWord word => "undefined label or invalid operand '" ++ word ++ "'"
  | .invalidOperand found => "invalid operand '" ++ found.text ++ "'"

end SourceFault

structure SourceError where
  fault : SourceFault
  line : Option Nat
  column : Span
deriving DecidableEq

namespace SourceError

def diagnostic (e : SourceError) : Diagnostic :=
  ⟨.code, e.fault.message, e.line, e.column, none⟩

end SourceError

end StackMachine
