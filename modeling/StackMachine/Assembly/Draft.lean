import StackMachine.Assembly.Fault

/-!
Drafts: programs whose operands are still tokens. A draft grows by declaring
labels, each at the address of the statement that comes next, and by adding
statements. Linking then resolves every operand against the finished table.
-/

namespace StackMachine

structure Statement where
  line : Option Nat
  opcode : Opcode
  operands : List Lexeme
deriving DecidableEq

structure Draft where
  symbols : Symbols
  statements : Array Statement
deriving DecidableEq

/-- Words that can never be labels: `nil` and, in any case of letters, every mnemonic. -/
def isReserved (name : String) : Bool :=
  name == "nil" || (Opcode.ofMnemonic? name).isSome

def Token.resolve (symbols : Symbols) : Token → Except SourceFault Value
  | .quoted text => .ok (.text text)
  | .word name =>
      match symbols.find? name with
      | some address => .ok (.ofNat address)
      | none =>
          if name = "nil" then .ok .nil
          else
            match Number.literal? name.toList with
            | some n => .ok (.number n)
            | none => .error (.unresolvedWord name)
  | token => .error (.invalidOperand token)

namespace Statement

def resolveOperand (symbols : Symbols) (line : Option Nat) (lexeme : Lexeme) :
    Except SourceError Value :=
  (lexeme.token.resolve symbols).mapError fun fault => ⟨fault, line, lexeme.span⟩

def link (symbols : Symbols) (statement : Statement) : Except SourceError Instruction := do
  let operands ← statement.operands.mapM (resolveOperand symbols statement.line)
  return ⟨statement.opcode, operands⟩

end Statement

namespace Draft

def empty : Draft :=
  ⟨.empty, #[]⟩

def nextAddress (draft : Draft) : Nat :=
  draft.statements.size

def address? (draft : Draft) (name : String) : Option Nat :=
  draft.symbols.find? name

def labelFault? (draft : Draft) (name : String) : Option SourceFault :=
  if !isIdentifier name then some (.invalidLabel name)
  else if isReserved name then some (.reservedLabel name)
  else if (draft.address? name).isSome then some (.duplicateLabel name)
  else none

def declare (draft : Draft) (name : String) (line : Option Nat) (column : Span) :
    Except SourceError Draft :=
  match draft.labelFault? name with
  | some fault => .error ⟨fault, line, column⟩
  | none => .ok { draft with symbols := draft.symbols.insert name draft.nextAddress }

def add (draft : Draft) (statement : Statement) : Draft :=
  { draft with statements := draft.statements.push statement }

def link (draft : Draft) : Except SourceError Program := do
  let instructions ← draft.statements.toList.mapM (Statement.link draft.symbols)
  return ⟨instructions.toArray, draft.symbols⟩

end Draft

end StackMachine
