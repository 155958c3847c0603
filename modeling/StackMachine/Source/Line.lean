import StackMachine.Source.Scan

/-!
Source lines. A line ends at a newline, and one carriage return right before
that newline belongs to the ending. Text after the last newline is a line of
its own, unless it is empty. Lines are numbered from one.
-/

namespace StackMachine

structure Line where
  number : Nat
  lexemes : List Lexeme
deriving DecidableEq, Repr

namespace Line

def read (number : Nat) (text : List Char) : Line :=
  ⟨number, lex text⟩

def isEmpty (line : Line) : Bool :=
  line.lexemes.isEmpty

def text (line : Line) : String :=
  " ".intercalate (line.lexemes.map fun lexeme => lexeme.token.text)

end Line

def dropReturn : List Char → List Char
  | '\r' :: seen => seen
  | seen => seen

/-- The texts of the lines; `seen` holds the current line so far, last character first. -/
def linesFrom (seen : List Char) : List Char → List (List Char)
  | [] => if seen.isEmpty then [] else [seen.reverse]
  | c :: rest =>
      if c = '\n' then (dropReturn seen).reverse :: linesFrom [] rest
      else linesFrom (c :: seen) rest

theorem linesFrom_append {text : List Char} (h : ∀ c ∈ text, c ≠ '\n') (seen rest : List Char) :
    linesFrom seen (text ++ rest) = linesFrom (text.reverse ++ seen) rest := by
  induction text generalizing seen with
  | nil => rfl
  | cons c text ih =>
      simp only [List.cons_append, linesFrom, h c List.mem_cons_self, if_false]
      rw [ih fun d hd => h d (List.mem_cons_of_mem c hd)]
      simp only [List.reverse_cons, List.append_assoc, List.cons_append, List.nil_append]

def lineTexts (source : List Char) : List (List Char) :=
  linesFrom [] source

def readLines (first : Nat) : List (List Char) → List Line
  | [] => []
  | text :: rest => .read first text :: readLines (first + 1) rest

theorem readLines_append (first : Nat) (texts rest : List (List Char)) :
    readLines first (texts ++ rest) =
      readLines first texts ++ readLines (first + texts.length) rest := by
  induction texts generalizing first with
  | nil => rfl
  | cons text texts ih =>
      simp only [List.cons_append, readLines, ih, List.length_cons]
      rw [Nat.add_right_comm, Nat.add_assoc]

def sourceLines (source : String) : List Line :=
  (readLines 1 (lineTexts source.toList)).filter fun line => !line.isEmpty

end StackMachine
