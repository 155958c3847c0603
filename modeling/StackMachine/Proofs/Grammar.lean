import Mathlib.Data.List.Forall2
import Mathlib.Data.List.Nodup
import StackMachine.Assembly

/-!
The grammar of source texts, said without the assembler: how a line is built,
which names a label may have, and what a word stands for as an operand. The
three classes of operand words (labels, `nil` and literals) exclude each other.
-/

namespace StackMachine

namespace Opcode

def Spells (op : Opcode) (word : String) : Prop :=
  foldCase word = foldCase op.mnemonic

theorem foldCase_mnemonic (op : Opcode) : foldCase op.mnemonic = op.mnemonic.toList := by
  have small : ∀ op ∈ all, foldCase op.mnemonic = op.mnemonic.toList := by decide
  exact small op (mem_all op)

theorem mnemonic_injective {op other : Opcode}
    (same : op.mnemonic.toList = other.mnemonic.toList) : op = other := by
  have distinct : (all.map fun op => op.mnemonic.toList).Nodup := by decide
  exact List.inj_on_of_nodup_map distinct (mem_all op) (mem_all other) same

theorem ofMnemonic?_eq_some {word : String} {op : Opcode} :
    ofMnemonic? word = some op ↔ op.Spells word := by
  have sound : ∀ other, ofMnemonic? word = some other → foldCase word = other.mnemonic.toList := by
    intro other found
    unfold ofMnemonic? at found
    have passed := List.find?_some found
    exact (beq_iff_eq.1 passed).symm
  rw [Spells, foldCase_mnemonic]
  refine ⟨sound op, fun spelt => ?_⟩
  cases found : ofMnemonic? word with
  | none =>
    have refused := List.find?_eq_none.1 found op (mem_all op)
    exact absurd (beq_iff_eq.2 spelt.symm) refused
  | some other => rw [mnemonic_injective ((sound other found).symm.trans spelt)]

theorem ofMnemonic?_eq_none {word : String} :
    ofMnemonic? word = none ↔ ∀ op : Opcode, ¬ op.Spells word := by
  rw [Option.eq_none_iff_forall_ne_some]
  exact forall_congr' fun op => not_congr ofMnemonic?_eq_some

theorem Spells.unique {op other : Opcode} {word : String} (first : op.Spells word)
    (second : other.Spells word) : op = other :=
  Option.some.inj ((ofMnemonic?_eq_some.2 first).symm.trans (ofMnemonic?_eq_some.2 second))

end Opcode

def IsLetter (c : Char) : Prop :=
  ('A' ≤ c ∧ c ≤ 'Z') ∨ ('a' ≤ c ∧ c ≤ 'z')

def IsDigit (c : Char) : Prop :=
  '0' ≤ c ∧ c ≤ '9'

instance (c : Char) : Decidable (IsLetter c) :=
  inferInstanceAs (Decidable (_ ∨ _))

instance (c : Char) : Decidable (IsDigit c) :=
  inferInstanceAs (Decidable (_ ∧ _))

/-- A letter or an underscore, then letters, digits and underscores. -/
def IsName (name : String) : Prop :=
  ∃ first rest, name.toList = first :: rest ∧ (IsLetter first ∨ first = '_')
    ∧ ∀ c ∈ rest, IsLetter c ∨ IsDigit c ∨ c = '_'

/-- A name that is neither `nil` nor, in any case of letters, a mnemonic. -/
structure IsLabelName (name : String) : Prop where
  isName : IsName name
  ne_nil : name ≠ "nil"
  unspelt : ∀ op : Opcode, ¬ op.Spells name

/-- At most one sign, then a digit or a point, and as a whole the text of a number. -/
def IsLiteral (word : String) (n : Number) : Prop :=
  ∃ sign first rest, word.toList = sign ++ first :: rest
    ∧ (sign = [] ∨ sign = ['-'] ∨ sign = ['+']) ∧ (IsDigit first ∨ first = '.')
    ∧ Number.parse? word = some n

theorem isUpper_iff {c : Char} : c.isUpper = true ↔ 'A' ≤ c ∧ c ≤ 'Z' :=
  decide_eq_true_iff

theorem isLower_iff {c : Char} : c.isLower = true ↔ 'a' ≤ c ∧ c ≤ 'z' :=
  Bool.and_eq_true_iff.trans (and_congr decide_eq_true_iff decide_eq_true_iff)

theorem isAlpha_iff {c : Char} : c.isAlpha = true ↔ IsLetter c :=
  Bool.or_eq_true_iff.trans (or_congr isUpper_iff isLower_iff)

theorem isDigit_iff {c : Char} : c.isDigit = true ↔ IsDigit c :=
  Bool.and_eq_true_iff.trans (and_congr decide_eq_true_iff decide_eq_true_iff)

theorem isIdentifier_iff {name : String} : isIdentifier name = true ↔ IsName name := by
  unfold isIdentifier IsName
  cases name.toList with
  | nil => simp
  | cons first rest =>
    simp [isIdentifierStart, isIdentifierRest, Char.isAlphanum, isAlpha_iff, isDigit_iff, or_assoc]

theorem isReserved_eq_false {name : String} :
    isReserved name = false ↔ name ≠ "nil" ∧ ∀ op : Opcode, ¬ op.Spells name := by
  rw [isReserved, Bool.or_eq_false_iff, beq_eq_false_iff_ne, Option.isSome_eq_false_iff,
    Option.isNone_iff_eq_none, Opcode.ofMnemonic?_eq_none]

theorem IsLetter.not_isDigit {c : Char} (letter : IsLetter c) : ¬ IsDigit c := by
  rintro ⟨-, small⟩
  rcases letter with ⟨large, -⟩ | ⟨large, -⟩
  · exact absurd (Char.le_trans large small) (by decide)
  · exact absurd (Char.le_trans large small) (by decide)

theorem splitSign_append {sign rest : List Char} {first : Char}
    (signs : sign = [] ∨ sign = ['-'] ∨ sign = ['+']) (body : IsDigit first ∨ first = '.') :
    (Number.splitSign (sign ++ first :: rest)).2 = first :: rest := by
  have minus : first ≠ '-' := by
    rintro rfl
    revert body
    decide
  have plus : first ≠ '+' := by
    rintro rfl
    revert body
    decide
  rcases signs with rfl | rfl | rfl
  · simp [Number.splitSign, minus, plus]
  · rfl
  · rfl

theorem splitSign_eq (text : List Char) :
    ∃ sign, text = sign ++ (Number.splitSign text).2 ∧ (sign = [] ∨ sign = ['-'] ∨ sign = ['+']) := by
  unfold Number.splitSign
  split
  · exact ⟨['-'], rfl, .inr (.inl rfl)⟩
  · exact ⟨['+'], rfl, .inr (.inr rfl)⟩
  · exact ⟨[], rfl, .inl rfl⟩

theorem literal?_eq_some {word : String} {n : Number} :
    Number.literal? word.toList = some n ↔ IsLiteral word n := by
  obtain ⟨sign, split, signs⟩ := splitSign_eq word.toList
  constructor
  · intro found
    unfold Number.literal? at found
    cases body : (Number.splitSign word.toList).2 with
    | nil => simp [body] at found
    | cons first rest =>
      rw [body] at found split
      simp only [Option.ite_none_right_eq_some, isDigit_iff] at found
      exact ⟨sign, first, rest, split, signs, found.1, found.2⟩
  · rintro ⟨sign, first, rest, split, signs, starts, parsed⟩
    unfold Number.literal?
    rw [split, splitSign_append signs starts, ← split]
    simp only [isDigit_iff, starts, if_true]
    exact parsed

theorem IsName.not_isLiteral {word : String} (name : IsName word) (n : Number) :
    ¬ IsLiteral word n := by
  rintro ⟨sign, first, rest, split, signs, starts, -⟩
  obtain ⟨head, tail, spelt, opening, -⟩ := name
  rw [spelt] at split
  rcases signs with rfl | rfl | rfl
  · obtain ⟨rfl, -⟩ := List.cons.inj split
    rcases opening with letter | rfl
    · rcases starts with digit | rfl
      · exact letter.not_isDigit digit
      · revert letter
        decide
    · revert starts
      decide
  · obtain ⟨rfl, -⟩ := List.cons.inj split
    revert opening
    decide
  · obtain ⟨rfl, -⟩ := List.cons.inj split
    revert opening
    decide

theorem isName_nil : IsName "nil" := by
  have tail : ∀ c ∈ ['i', 'l'], IsLetter c := by
    intro c mem
    rcases List.mem_pair.1 mem with rfl | rfl
    · decide
    · decide
  exact ⟨'n', ['i', 'l'], rfl, by decide, fun c mem => .inl (tail c mem)⟩

/-- What a token stands for as an operand, given the addresses of the labels. -/
inductive Denotes (addresses : String → Option Nat) : Token → Value → Prop where
  | text (text : String) : Denotes addresses (.quoted text) (.text text)
  | label {name : String} {address : Nat} (declared : addresses name = some address) :
      Denotes addresses (.word name) (.ofNat address)
  | nil : Denotes addresses (.word "nil") .nil
  | literal {word : String} {n : Number} (literal : IsLiteral word n) :
      Denotes addresses (.word word) (.number n)

theorem resolve_eq_ok {symbols : Symbols} {token : Token} {value : Value}
    (names : ∀ name address, symbols.find? name = some address → IsLabelName name) :
    token.resolve symbols = .ok value ↔ Denotes symbols.find? token value := by
  constructor
  · intro resolved
    cases token with
    | quoted text =>
      cases resolved
      exact .text text
    | word word =>
      simp only [Token.resolve] at resolved
      cases found : symbols.find? word with
      | some address =>
        simp only [found] at resolved
        cases resolved
        exact .label found
      | none =>
        simp only [found] at resolved
        split at resolved
        · rename_i same
          cases resolved
          rw [same]
          exact .nil
        · cases read : Number.literal? word.toList with
          | none => simp [read] at resolved
          | some n =>
            simp only [read] at resolved
            cases resolved
            exact .literal (literal?_eq_some.1 read)
    | label name => cases resolved
    | unterminated text => cases resolved
  · intro denotes
    -- labels are looked up first: no other class of words may have a label's name
    have undeclared : ∀ word, ¬ IsLabelName word → symbols.find? word = none := by
      intro word other
      rw [Option.eq_none_iff_forall_ne_some]
      exact fun address found => other (names word address found)
    cases denotes with
    | text text => rfl
    | label declared => simp only [Token.resolve, declared]
    | nil => simp [Token.resolve, undeclared "nil" fun name => name.ne_nil rfl]
    | @literal word n literal =>
      have unnamed : symbols.find? word = none :=
        undeclared word fun name => name.isName.not_isLiteral n literal
      have other : word ≠ "nil" := by
        rintro rfl
        exact isName_nil.not_isLiteral n literal
      simp [Token.resolve, unnamed, other, literal?_eq_some.2 literal]

namespace Token

def label? : Token → Option String
  | .label name => some name
  | _ => none

def isOperand : Token → Bool
  | .word _ | .quoted _ => true
  | .label _ | .unterminated _ => false

end Token

/-- How a line is built: label declarations, then nothing or a mnemonic with as
many words and quoted texts as it takes. The labels and the statement are listed. -/
inductive LineForm : List Lexeme → List String → Option (Opcode × List Lexeme) → Prop where
  | blank : LineForm [] [] none
  | statement {span : Span} {word : String} {op : Opcode} {operands : List Lexeme}
      (spells : op.Spells word) (count : operands.length = op.arity)
      (kinds : ∀ operand ∈ operands, operand.token.isOperand = true) :
      LineForm (⟨span, .word word⟩ :: operands) [] (some (op, operands))
  | label {span : Span} {name : String} {rest : List Lexeme} {names : List String}
      {statement : Option (Opcode × List Lexeme)} (form : LineForm rest names statement) :
      LineForm (⟨span, .label name⟩ :: rest) (name :: names) statement

namespace LineForm

variable {lexemes : List Lexeme} {names : List String} {statement : Option (Opcode × List Lexeme)}

theorem labels (form : LineForm lexemes names statement) :
    lexemes.filterMap (fun lexeme => lexeme.token.label?) = names := by
  induction form with
  | blank => rfl
  | @statement span word op operands spells count kinds =>
    rw [List.filterMap_cons_none rfl, List.filterMap_eq_nil_iff]
    intro operand mem
    have kind := kinds operand mem
    cases token : operand.token <;> simp_all [Token.isOperand, Token.label?]
  | @label span name rest names statement form ih =>
    rw [List.filterMap_cons, ih]
    rfl

theorem isSome_statement (form : LineForm lexemes names statement) :
    statement.isSome = lexemes.any fun lexeme => lexeme.token.label?.isNone := by
  induction form with
  | blank => rfl
  | statement spells count kinds => rfl
  | label form ih =>
    rw [ih, List.any_cons]
    rfl

theorem operands {op : Opcode} {operands : List Lexeme}
    (form : LineForm lexemes names (some (op, operands))) :
    operands.length = op.arity ∧ ∀ operand ∈ operands, operand.token.isOperand = true := by
  generalize found : some (op, operands) = statement at form
  induction form with
  | blank => cases found
  | statement spells count kinds =>
    cases found
    exact ⟨count, kinds⟩
  | label form ih => exact ih found

theorem unique (form : LineForm lexemes names statement) {names' : List String}
    {statement' : Option (Opcode × List Lexeme)} (other : LineForm lexemes names' statement') :
    statement' = statement := by
  induction form generalizing names' with
  | blank =>
    cases other
    rfl
  | statement spells count kinds =>
    cases other with
    | statement spells' => rw [spells.unique spells']
  | label form ih =>
    cases other with
    | label form' => exact ih form'

end LineForm

namespace Line

def labels (line : Line) : List String :=
  line.lexemes.filterMap fun lexeme => lexeme.token.label?

def hasStatement (line : Line) : Bool :=
  line.lexemes.any fun lexeme => lexeme.token.label?.isNone

end Line

def declared (source : String) : List String :=
  (sourceLines source).flatMap Line.labels

structure Grammatical (source : String) : Prop where
  lines : ∀ line ∈ sourceLines source, ∃ names statement, LineForm line.lexemes names statement
  distinct : (declared source).Nodup
  names : ∀ name ∈ declared source, IsLabelName name
  operands : ∀ line ∈ sourceLines source, ∀ names op operands,
    LineForm line.lexemes names (some (op, operands)) →
      ∀ operand ∈ operands, ∀ word, operand.token = .word word →
        word ∈ declared source ∨ word = "nil" ∨ ∃ n, IsLiteral word n

/-- The instruction of a line: its opcode, and operand by operand what its tokens stand for. -/
def Translates (addresses : String → Option Nat) (line : Line) (instruction : Instruction) : Prop :=
  ∃ names operands, LineForm line.lexemes names (some (instruction.opcode, operands))
    ∧ List.Forall₂ (fun operand value => Denotes addresses operand.token value) operands
      instruction.operands

end StackMachine
