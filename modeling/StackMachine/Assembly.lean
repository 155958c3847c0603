import StackMachine.Assembly.Draft
import StackMachine.Source.Line

/-!
Assembly of a source text. A line is any number of label declarations, followed
by nothing or by one statement: a mnemonic and as many operands as it takes.
Lines are read from the top, and only when all of them are in order are the
operands resolved, so a label may be used before its declaration.
-/

namespace StackMachine

def Token.opcode : Token → Except SourceFault Opcode
  | .word name =>
      match Opcode.ofMnemonic? name with
      | some op => .ok op
      | none => .error (.unknownInstruction name)
  | .unterminated _ => .error .unterminatedText
  | token => .error (.expectedInstruction token)

def Token.checkOperand : Token → Except SourceFault Unit
  | .label name => .error (.misplacedLabel name)
  | .unterminated _ => .error .unterminatedText
  | _ => .ok ()

namespace Statement

def read (line : Nat) : List Lexeme → Except SourceError (Option Statement)
  | [] => .ok none
  | head :: operands => do
      let op ← head.token.opcode.mapError fun fault => ⟨fault, some line, head.span⟩
      operands.forM fun lexeme =>
        lexeme.token.checkOperand.mapError fun fault => ⟨fault, some line, lexeme.span⟩
      if operands.length = op.arity then
        return some ⟨some line, op, operands⟩
      else
        throw ⟨.operandCount op operands.length, some line, head.span⟩

end Statement

namespace Draft

def takeLabels (line : Nat) (draft : Draft) :
    List Lexeme → Except SourceError (Draft × List Lexeme)
  | ⟨span, .label name⟩ :: rest => do
      let next ← draft.declare name (some line) span
      next.takeLabels line rest
  | lexemes => .ok (draft, lexemes)

def addLine (draft : Draft) (line : Line) : Except SourceError Draft := do
  let (labelled, rest) ← draft.takeLabels line.number line.lexemes
  match ← Statement.read line.number rest with
  | some statement => return labelled.add statement
  | none => return labelled

def ofLines (lines : List Line) : Except SourceError Draft :=
  lines.foldlM addLine .empty

end Draft

def assemble (source : String) : Except SourceError Program := do
  let draft ← Draft.ofLines (sourceLines source)
  draft.link

end StackMachine
