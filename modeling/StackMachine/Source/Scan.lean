import StackMachine.Source.Token
import StackMachine.Text.Blank

/-!
Scanning one line into tokens. The scanner reads the line character by
character and is always in one of three states: between tokens, inside a word,
or inside quotes. A line whose first visible character is `#` is a comment and
has no tokens.
-/

namespace StackMachine

def isSeparator (c : Char) : Bool :=
  c == ' ' || c == '\t' || c == '\r' || c == '\n' || c == ','

/-- Where the scanner stands. Inside a token it keeps the column where the
token began and the characters read since, last one first; the opening quote is
not among them. -/
inductive ScanState where
  | between
  | inWord (start : Nat) (seen : List Char)
  | inQuotes (start : Nat) (seen : List Char)
deriving DecidableEq, Repr

def scan : ScanState → Nat → List Char → List Lexeme
  | .between, _, [] => []
  | .inWord start seen, column, [] => [⟨⟨start, column⟩, .ofWord seen.reverse⟩]
  | .inQuotes start seen, column, [] =>
      [⟨⟨start, column⟩, .unterminated (String.ofList ('"' :: seen.reverse))⟩]
  | .between, column, c :: rest =>
      if isSeparator c then scan .between (column + 1) rest
      else if c = '"' then scan (.inQuotes column []) (column + 1) rest
      else scan (.inWord column [c]) (column + 1) rest
  | .inWord start seen, column, c :: rest =>
      if isSeparator c then
        ⟨⟨start, column⟩, .ofWord seen.reverse⟩ :: scan .between (column + 1) rest
      else if c = '"' then
        ⟨⟨start, column⟩, .ofWord seen.reverse⟩ :: scan (.inQuotes column []) (column + 1) rest
      else scan (.inWord start (c :: seen)) (column + 1) rest
  | .inQuotes start seen, column, c :: rest =>
      if c = '"' then
        ⟨⟨start, column + 1⟩, .quoted (String.ofList seen.reverse)⟩
          :: scan .between (column + 1) rest
      else scan (.inQuotes start (c :: seen)) (column + 1) rest

def isWordCharacter (c : Char) : Bool :=
  !isSeparator c && c != '"'

theorem isSeparator_of_isWordCharacter {c : Char} (h : isWordCharacter c = true) :
    isSeparator c = false ∧ c ≠ '"' := by
  simpa [isWordCharacter] using h

theorem scan_inWord_append {word : List Char} (h : ∀ c ∈ word, isWordCharacter c = true)
    (start column : Nat) (seen rest : List Char) :
    scan (.inWord start seen) column (word ++ rest) =
      scan (.inWord start (word.reverse ++ seen)) (column + word.length) rest := by
  induction word generalizing column seen with
  | nil => rfl
  | cons c word ih =>
      obtain ⟨hsep, hquote⟩ := isSeparator_of_isWordCharacter (h c List.mem_cons_self)
      simp only [List.cons_append, scan, hsep, Bool.false_eq_true, if_false, hquote]
      rw [ih fun d hd => h d (List.mem_cons_of_mem c hd)]
      simp only [List.reverse_cons, List.append_assoc, List.cons_append, List.nil_append,
        List.length_cons]
      rw [Nat.add_right_comm, Nat.add_assoc]

theorem scan_inQuotes_append {text : List Char} (h : ∀ c ∈ text, c ≠ '"')
    (start column : Nat) (seen rest : List Char) :
    scan (.inQuotes start seen) column (text ++ rest) =
      scan (.inQuotes start (text.reverse ++ seen)) (column + text.length) rest := by
  induction text generalizing column seen with
  | nil => rfl
  | cons c text ih =>
      simp only [List.cons_append, scan, h c List.mem_cons_self, if_false]
      rw [ih fun d hd => h d (List.mem_cons_of_mem c hd)]
      simp only [List.reverse_cons, List.append_assoc, List.cons_append, List.nil_append,
        List.length_cons]
      rw [Nat.add_right_comm, Nat.add_assoc]

theorem scan_between_append {gap : List Char} (h : ∀ c ∈ gap, isSeparator c = true)
    (column : Nat) (rest : List Char) :
    scan .between column (gap ++ rest) = scan .between (column + gap.length) rest := by
  induction gap generalizing column with
  | nil => rfl
  | cons c gap ih =>
      simp only [List.cons_append, scan, h c List.mem_cons_self, if_true]
      rw [ih fun d hd => h d (List.mem_cons_of_mem c hd), List.length_cons,
        Nat.add_right_comm, Nat.add_assoc]

def isComment (line : List Char) : Bool :=
  (line.dropWhile isBlank).head? == some '#'

def lex (line : List Char) : List Lexeme :=
  if isComment line then [] else scan .between 0 line

theorem lex_of_isComment {line : List Char} (h : isComment line = true) : lex line = [] := by
  simp only [lex, h, if_true]

end StackMachine
