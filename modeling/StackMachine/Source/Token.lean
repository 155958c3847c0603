/-!
Lexical units of one source line, and the columns they stand in. Columns count
characters from zero, and the end of a span is the column after its last
character.
-/

namespace StackMachine

structure Span where
  start : Nat
  stop : Nat
deriving DecidableEq, Repr

inductive Token where
  /-- Text that opens with a quote which is never closed, that quote included. -/
  | unterminated (text : String)
  /-- A label declaration, without its colon. -/
  | label (name : String)
  | word (text : String)
  | quoted (text : String)
deriving DecidableEq, Repr

namespace Token

def characters : Token → List Char
  | .unterminated text => text.toList
  | .label name => name.toList ++ [':']
  | .word text => text.toList
  | .quoted text => '"' :: text.toList ++ ['"']

def text (token : Token) : String :=
  String.ofList token.characters

/-- A word of more than one character that ends in a colon declares a label. -/
def ofWord (cs : List Char) : Token :=
  if 1 < cs.length ∧ cs.getLast? = some ':' then
    .label (String.ofList cs.dropLast)
  else
    .word (String.ofList cs)

theorem characters_ofWord (cs : List Char) : (ofWord cs).characters = cs := by
  unfold ofWord
  split
  · rename_i h
    obtain ⟨name, rfl⟩ := List.getLast?_eq_some_iff.1 h.2
    simp only [characters, String.toList_ofList, List.dropLast_concat]
  · simp only [characters, String.toList_ofList]

end Token

structure Lexeme where
  span : Span
  token : Token
deriving DecidableEq, Repr

def isIdentifierStart (c : Char) : Bool :=
  c.isAlpha || c == '_'

def isIdentifierRest (c : Char) : Bool :=
  c.isAlphanum || c == '_'

def isIdentifier (s : String) : Bool :=
  match s.toList with
  | [] => false
  | c :: rest => isIdentifierStart c && rest.all isIdentifierRest

end StackMachine
