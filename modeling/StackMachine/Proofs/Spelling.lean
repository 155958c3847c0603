import StackMachine.Number.ReadBack
import StackMachine.Proofs.Lines

/-!
Written forms, scanned again. An instruction is written as its mnemonic and, with
a space before each, its operands. Where no number is infinite and no character
of a text needs an escape, the scanner finds the mnemonic and one token for each
operand, and that token stands for the operand.
-/

namespace StackMachine

theorem isWordCharacter_iff {c : Char} :
    isWordCharacter c = true ↔
      c ≠ ' ' ∧ c ≠ '\t' ∧ c ≠ '\r' ∧ c ≠ '\n' ∧ c ≠ ',' ∧ c ≠ '"' := by
  simp [isWordCharacter, isSeparator, and_assoc]

theorem scan_opened {text : List Char} (inside : ∀ c ∈ text, c ≠ '"') (rest : List Char)
    (column : Nat) :
    scan .between column ('"' :: text ++ rest) =
      scan (.inQuotes column text.reverse) (column + 1 + text.length) rest := by
  have opening : isSeparator '"' = false := rfl
  rw [List.cons_append, scan, if_neg (by simp [opening]), if_pos rfl, scan_inQuotes_append inside,
    List.append_nil]

theorem scan_word {word rest : List Char} (nonempty : word ≠ [])
    (characters : ∀ c ∈ word, isWordCharacter c = true)
    (ends : ∀ c ∈ rest.head?, isSeparator c = true) (column : Nat) :
    scan .between column (word ++ rest) =
      ⟨⟨column, column + word.length⟩, .ofWord word⟩
        :: scan .between (column + word.length) rest := by
  obtain ⟨c, word, rfl⟩ := List.exists_cons_of_ne_nil nonempty
  obtain ⟨first, later⟩ := List.forall_mem_cons.1 characters
  obtain ⟨inside, quote⟩ := isSeparator_of_isWordCharacter first
  have length : column + (c :: word).length = column + 1 + word.length := by
    rw [List.length_cons]
    omega
  have reading : scan .between column (c :: (word ++ rest)) =
      scan (.inWord column (c :: word).reverse) (column + (c :: word).length) rest := by
    rw [scan, if_neg (by simp [inside]), if_neg quote, scan_inWord_append later, length,
      List.reverse_cons]
  rw [List.cons_append, reading]
  cases rest with
  | nil => simp [scan]
  | cons d rest => simp [scan, ends d rfl]

theorem scan_quoted {text : List Char} (inside : ∀ c ∈ text, c ≠ '"') (rest : List Char)
    (column : Nat) :
    ∃ span next, scan .between column ('"' :: text ++ '"' :: rest) =
      ⟨span, .quoted (String.ofList text)⟩ :: scan .between next rest := by
  have read : scan .between column ('"' :: text ++ '"' :: rest) =
      ⟨⟨column, column + 1 + text.length + 1⟩, .quoted (String.ofList text)⟩
        :: scan .between (column + 1 + text.length + 1) rest := by
    rw [scan_opened inside, scan, if_pos rfl, List.reverse_reverse]
  exact ⟨_, _, read⟩

namespace Token

theorem ofWord_of_last {word : List Char} (plain : ∀ c ∈ word, c ≠ ':') :
    ofWord word = .word (String.ofList word) := by
  rw [ofWord, if_neg]
  rintro ⟨-, last⟩
  exact plain ':' (List.mem_of_getLast? last) rfl

theorem ofWord_colon {word : List Char} (nonempty : word ≠ []) :
    ofWord (word ++ [':']) = .label (String.ofList word) := by
  have long : 1 < (word ++ [':']).length := by
    have pos := List.length_pos_of_ne_nil nonempty
    rw [List.length_append, List.length_singleton]
    omega
  rw [ofWord, if_pos ⟨long, List.getLast?_concat⟩, List.dropLast_concat]

end Token

def IsPlain (c : Char) : Prop :=
  IsLetter c ∨ IsDigit c ∨ c = '_' ∨ c = '.' ∨ c = '-'

instance (c : Char) : Decidable (IsPlain c) :=
  inferInstanceAs (Decidable (_ ∨ _))

theorem plain_of_all {text : List Char} (all : text.all (fun c => decide (IsPlain c)) = true) :
    ∀ c ∈ text, IsPlain c :=
  fun c mem => of_decide_eq_true (List.all_eq_true.1 all c mem)

namespace IsPlain

variable {c : Char}

theorem isWordCharacter (plain : IsPlain c) : isWordCharacter c = true := by
  rw [isWordCharacter_iff]
  refine ⟨?_, ?_, ?_, ?_, ?_, ?_⟩
  all_goals
    rintro rfl
    revert plain
    decide

theorem ne_colon (plain : IsPlain c) : c ≠ ':' := by
  rintro rfl
  revert plain
  decide

theorem isBlank (plain : IsPlain c) : isBlank c = false := by
  have within : ∀ low high : Char, '-' ≤ low → high ≤ 'z' → low ≤ c ∧ c ≤ high →
      '-' ≤ c ∧ c ≤ 'z' :=
    fun low high below above range =>
      ⟨Char.le_trans below range.1, Char.le_trans range.2 above⟩
  have bounds : '-' ≤ c ∧ c ≤ 'z' := by
    rcases plain with (upper | lower) | digit | rfl | rfl | rfl
    · exact within 'A' 'Z' (by decide) (by decide) upper
    · exact within 'a' 'z' (by decide) (by decide) lower
    · exact within '0' '9' (by decide) (by decide) digit
    · decide
    · decide
    · decide
  simp only [Char.le_def, UInt32.le_iff_toNat_le] at bounds
  have low : 45 ≤ c.toNat := bounds.1
  have high : c.toNat ≤ 122 := bounds.2
  simp only [StackMachine.isBlank, blankRanges, List.any_cons, List.any_nil, Bool.or_false,
    Bool.or_eq_false_iff, Bool.and_eq_false_iff, decide_eq_false_iff_not]
  omega

theorem inLine (plain : IsPlain c) : c ≠ '\n' ∧ c ≠ '\r' := by
  obtain ⟨-, -, back, newline, -, -⟩ := isWordCharacter_iff.1 plain.isWordCharacter
  exact ⟨newline, back⟩

theorem isComment (plain : IsPlain c) (rest : List Char) :
    isComment (c :: rest) = false := by
  have other : c ≠ '#' := by
    rintro rfl
    revert plain
    decide
  simp [StackMachine.isComment, plain.isBlank, other]

end IsPlain

theorem scan_plain {word rest : List Char} (nonempty : word ≠ []) (plain : ∀ c ∈ word, IsPlain c)
    (ends : ∀ c ∈ rest.head?, isSeparator c = true) (column : Nat) :
    ∃ span next, scan .between column (word ++ rest) =
      ⟨span, .word (String.ofList word)⟩ :: scan .between next rest := by
  have read := scan_word nonempty (fun c mem => (plain c mem).isWordCharacter) ends column
  rw [Token.ofWord_of_last fun c mem => (plain c mem).ne_colon] at read
  exact ⟨_, _, read⟩

theorem IsName.plain {name : String} (isName : IsName name) :
    ∃ first rest, name.toList = first :: rest ∧ ¬ IsDigit first
      ∧ ∀ c ∈ first :: rest, IsPlain c := by
  obtain ⟨first, rest, spelt, opening, later⟩ := isName
  refine ⟨first, rest, spelt, ?_, List.forall_mem_cons.2 ⟨?_, fun c mem => ?_⟩⟩
  · rcases opening with letter | rfl
    · exact letter.not_isDigit
    · decide
  · rcases opening with letter | rfl
    · exact .inl letter
    · decide
  · rcases later c mem with letter | digit | rfl
    · exact .inl letter
    · exact .inr (.inl digit)
    · decide

theorem Opcode.plain_mnemonic (op : Opcode) :
    ∃ first rest, op.mnemonic.toList = first :: rest ∧ ∀ c ∈ first :: rest, IsPlain c := by
  have named : ∀ op ∈ all, op.mnemonic.toList ≠ []
      ∧ op.mnemonic.toList.all (fun c => decide (IsPlain c)) = true := by decide
  obtain ⟨nonempty, plain⟩ := named op (mem_all op)
  obtain ⟨first, rest, spelt⟩ := List.exists_cons_of_ne_nil nonempty
  exact ⟨first, rest, spelt, spelt ▸ plain_of_all plain⟩

theorem Decimal.plain_layout {d : Decimal} {c : Char} (mem : c ∈ d.layout) : IsPlain c := by
  have digit : ∀ c : Char, c.isDigit = true → IsPlain c :=
    fun c digit => .inr (.inl (isDigit_iff.1 digit))
  by_cases places : d.places = 0
  · rw [layout_of_zero places] at mem
    exact digit c (isDigit_of_mem_toDigits mem)
  · rw [layout_of_pos places, List.mem_append, List.mem_cons] at mem
    rcases mem with whole | rfl | fraction
    · exact digit c (isDigit_of_mem_padded (List.mem_of_mem_take whole))
    · decide
    · exact digit c (isDigit_of_mem_padded (List.mem_of_mem_drop fraction))

namespace Number

def isFinite : Number → Bool
  | .finite _ _ _ => true
  | _ => false

variable {n : Number}

theorem characters_of_isFinite (finite : n.isFinite = true) :
    ∃ d : Decimal, n.characters = d.layout ∨ n.characters = '-' :: d.layout := by
  cases n with
  | nan => cases finite
  | infinite negative => cases finite
  | finite negative units fits =>
    refine ⟨shortest units, ?_⟩
    cases negative with
    | false => exact .inl rfl
    | true => exact .inr rfl

theorem plain_characters {c : Char} (mem : c ∈ n.characters) : IsPlain c := by
  cases n with
  | nan => exact plain_of_all (by decide) c mem
  | infinite negative => cases negative <;> exact plain_of_all (by decide) c mem
  | finite negative units fits =>
    cases negative with
    | false => exact Decimal.plain_layout mem
    | true =>
      rcases List.mem_cons.1 mem with rfl | mem
      · decide
      · exact Decimal.plain_layout mem

theorem isLiteral_text (finite : n.isFinite = true) : IsLiteral n.text n := by
  have spelt : n.text.toList = n.characters := String.toList_ofList
  obtain ⟨d, form⟩ := characters_of_isFinite finite
  obtain ⟨first, rest, layout, digit⟩ := d.head_layout
  rw [← spelt, layout] at form
  rcases form with form | form
  · exact ⟨[], first, rest, form, .inl rfl, .inl (isDigit_iff.1 digit), parse?_text n⟩
  · exact ⟨['-'], first, rest, form, .inr (.inl rfl), .inl (isDigit_iff.1 digit), parse?_text n⟩

end Number

namespace Quoted

theorem ne_quote_of_escape {c : Char} (same : escape c = [c]) : c ≠ '"' := by
  rintro rfl
  cases same

def shortEscapes : List (Char × Char) :=
  [('"', '"'), ('\\', '\\'), ('\n', 'n'), ('\r', 'r'), ('\t', 't'), ('\x00', '0')]

theorem escape_cases (c : Char) :
    (escape c = [c] ∧ c ∉ shortEscapes.map Prod.fst)
      ∨ (∃ sign, (c, sign) ∈ shortEscapes ∧ escape c = ['\\', sign])
      ∨ escape c = '\\' :: 'u' :: '\x7b' :: (Nat.toDigits 16 c.toNat ++ ['\x7d']) := by
  by_cases short : c ∈ shortEscapes.map Prod.fst
  · simp only [shortEscapes, List.map_cons, List.map_nil, List.mem_cons, List.not_mem_nil,
      or_false] at short
    rcases short with rfl | rfl | rfl | rfl | rfl | rfl
    all_goals exact .inr (.inl ⟨_, by decide, rfl⟩)
  · have other := short
    simp only [shortEscapes, List.map_cons, List.map_nil, List.mem_cons, List.not_mem_nil,
      or_false, not_or] at other
    simp only [escape, other, if_false]
    split
    · exact .inl ⟨rfl, short⟩
    · exact .inr (.inr rfl)

theorem mem_toDigits {n : Nat} {c : Char} (mem : c ∈ Nat.toDigits 16 n) :
    ∃ d < 16, c = Nat.digitChar d := by
  induction n using Nat.strongRecOn with
  | _ n ih =>
    rw [Nat.toDigits_eq_if (by decide)] at mem
    split at mem
    · rename_i small
      exact ⟨n, small, List.mem_singleton.1 mem⟩
    · rename_i large
      rcases List.mem_append.1 mem with high | low
      · exact ih (n / 16) (Nat.div_lt_self (by omega) (by decide)) high
      · exact ⟨n % 16, Nat.mod_lt _ (by decide), List.mem_singleton.1 low⟩

theorem inLine_escape {c d : Char} (mem : d ∈ escape c) : d ≠ '\n' ∧ d ≠ '\r' := by
  rcases escape_cases c with ⟨same, long⟩ | ⟨sign, short, same⟩ | same
  · rw [same, List.mem_singleton] at mem
    rw [← mem] at long
    refine ⟨?_, ?_⟩
    all_goals
      rintro rfl
      exact long (by decide)
  · have signs : ∀ pair ∈ shortEscapes, pair.2 ≠ '\n' ∧ pair.2 ≠ '\r' := by decide
    simp only [same, List.mem_cons, List.not_mem_nil, or_false] at mem
    rcases mem with rfl | rfl
    · decide
    · exact signs _ short
  · have digits : ∀ n < 16, Nat.digitChar n ≠ '\n' ∧ Nat.digitChar n ≠ '\r' := by decide
    simp only [same, List.mem_cons, List.mem_append, List.not_mem_nil, or_false] at mem
    rcases mem with rfl | rfl | rfl | digit | rfl
    · decide
    · decide
    · decide
    · obtain ⟨n, small, rfl⟩ := mem_toDigits digit
      exact digits n small
    · decide

end Quoted

namespace Value

/-- Values whose written form can be read again: numbers are finite, and texts
have no character that needs an escape. -/
def IsWritable : Value → Prop
  | .nil => True
  | .number n => n.isFinite = true
  | .text s => ∀ c ∈ s.toList, Quoted.escape c = [c]

instance : DecidablePred IsWritable
  | .nil => inferInstanceAs (Decidable True)
  | .number n => inferInstanceAs (Decidable (n.isFinite = true))
  | .text s => List.decidableBAll (fun c => Quoted.escape c = [c]) s.toList

def token : Value → Token
  | .nil => .word "nil"
  | .number n => .word n.text
  | .text s => .quoted s

variable {value : Value}

theorem isOperand_token (value : Value) : value.token.isOperand = true := by
  cases value <;> rfl

theorem denotes_token (writable : value.IsWritable) (addresses : String → Option Nat) :
    Denotes addresses value.token value := by
  cases value with
  | nil => exact .nil
  | number n => exact .literal (Number.isLiteral_text writable)
  | text s => exact .text s

theorem quoted_text {s : String} (writable : (text s).IsWritable) :
    (text s).quoted.toList = '"' :: s.toList ++ ['"'] := by
  rw [quoted, Quoted.text, String.toList_ofList, Quoted.characters,
    Quoted.flatMap_escape_eq writable]

theorem word_or_text (value : Value) :
    (value.quoted.toList ≠ [] ∧ (∀ c ∈ value.quoted.toList, IsPlain c)
        ∧ value.token = .word value.quoted) ∨ ∃ s, value = text s := by
  cases value with
  | nil => exact .inl ⟨List.cons_ne_nil _ _, plain_of_all (by decide), rfl⟩
  | number n =>
    have spelt : (number n).quoted.toList = n.characters := String.toList_ofList
    have nonempty : n.characters ≠ [] := by
      intro empty
      have read := Number.read_characters n
      rw [empty] at read
      cases read
    rw [spelt]
    exact .inl ⟨nonempty, fun c => Number.plain_characters, rfl⟩
  | text s => exact .inr ⟨s, rfl⟩

theorem scan_written {rest : List Char} (writable : value.IsWritable)
    (ends : ∀ c ∈ rest.head?, isSeparator c = true) (column : Nat) :
    ∃ span next, scan .between column (value.quoted.toList ++ rest) =
      ⟨span, value.token⟩ :: scan .between next rest := by
  rcases value.word_or_text with ⟨nonempty, plain, token⟩ | ⟨s, rfl⟩
  · obtain ⟨span, next, read⟩ := scan_plain nonempty plain ends column
    rw [String.ofList_toList, ← token] at read
    exact ⟨span, next, read⟩
  · have inside : ∀ c ∈ s.toList, c ≠ '"' := fun c mem => Quoted.ne_quote_of_escape (writable c mem)
    obtain ⟨span, next, read⟩ := scan_quoted inside rest column
    rw [String.ofList_toList] at read
    refine ⟨span, next, ?_⟩
    rw [quoted_text writable, List.append_assoc]
    exact read

def written (values : List Value) : List Char :=
  values.flatMap fun value => ' ' :: value.quoted.toList

theorem head?_written (values : List Value) :
    ∀ c ∈ (written values).head?, isSeparator c = true := by
  intro c head
  cases values with
  | nil => cases head
  | cons value values =>
    cases head
    rfl

theorem tokens_written {values : List Value} (writable : ∀ value ∈ values, value.IsWritable)
    (column : Nat) :
    (scan .between column (written values)).map Lexeme.token = values.map token := by
  induction values generalizing column with
  | nil => rfl
  | cons value values ih =>
    obtain ⟨first, later⟩ := List.forall_mem_cons.1 writable
    obtain ⟨span, next, read⟩ := scan_written first (head?_written values) (column + 1)
    rw [written, List.flatMap_cons, List.cons_append]
    have gap : isSeparator ' ' = true := rfl
    rw [scan, if_pos gap]
    refine (congrArg (List.map Lexeme.token) read).trans ?_
    rw [List.map_cons, ih later, List.map_cons]

theorem inLine_quoted {c : Char} (mem : c ∈ value.quoted.toList) : c ≠ '\n' ∧ c ≠ '\r' := by
  rcases value.word_or_text with ⟨-, plain, -⟩ | ⟨s, rfl⟩
  · exact (plain c mem).inLine
  · rw [quoted, Quoted.text, String.toList_ofList, Quoted.characters, List.mem_append,
      List.mem_cons, List.mem_singleton, List.mem_flatMap] at mem
    rcases mem with (rfl | ⟨d, -, mem⟩) | rfl
    · decide
    · exact Quoted.inLine_escape mem
    · decide

end Value

namespace Instruction

variable {instruction : Instruction}

theorem toList_text (instruction : Instruction) :
    instruction.text.toList =
      instruction.opcode.mnemonic.toList ++ Value.written instruction.operands := by
  rw [text, String.toList_append, String.toList_join, List.flatMap_map]
  simp only [String.toList_append]
  rfl

def IsWritable (instruction : Instruction) : Prop :=
  ∀ value ∈ instruction.operands, value.IsWritable

instance : DecidablePred IsWritable :=
  fun instruction => List.decidableBAll Value.IsWritable instruction.operands

def tokens (instruction : Instruction) : List Token :=
  .word instruction.opcode.mnemonic :: instruction.operands.map Value.token

theorem lex_text (writable : instruction.IsWritable) :
    (lex instruction.text.toList).map Lexeme.token = instruction.tokens := by
  obtain ⟨first, rest, spelt, plain⟩ := instruction.opcode.plain_mnemonic
  obtain ⟨span, next, read⟩ := scan_plain (List.cons_ne_nil first rest) plain
    (Value.head?_written instruction.operands) 0
  have code : isComment instruction.text.toList = false := by
    rw [toList_text, spelt]
    exact (plain first List.mem_cons_self).isComment _
  rw [lex, code, if_neg Bool.false_ne_true, toList_text, spelt, read, List.map_cons,
    Value.tokens_written writable, ← spelt, String.ofList_toList]
  rfl

theorem inLine_text {c : Char} (mem : c ∈ instruction.text.toList) : c ≠ '\n' ∧ c ≠ '\r' := by
  rw [toList_text, List.mem_append, Value.written, List.mem_flatMap] at mem
  rcases mem with mnemonic | ⟨value, -, mem⟩
  · obtain ⟨first, rest, spelt, plain⟩ := instruction.opcode.plain_mnemonic
    exact (plain c (spelt ▸ mnemonic)).inLine
  · rcases List.mem_cons.1 mem with rfl | mem
    · decide
    · exact Value.inLine_quoted mem

end Instruction

theorem lex_label {name : String} (isName : IsName name) :
    (lex (name ++ ":").toList).map Lexeme.token = [.label name] := by
  obtain ⟨first, rest, spelt, -, plain⟩ := isName.plain
  have colon : ":".toList = [':'] := rfl
  have code : isComment (name ++ ":").toList = false := by
    rw [String.toList_append, spelt]
    exact (plain first List.mem_cons_self).isComment _
  have word : ∀ c ∈ name.toList ++ [':'], isWordCharacter c = true := by
    rw [spelt, List.forall_mem_append]
    exact ⟨fun c mem => (plain c mem).isWordCharacter, List.forall_mem_singleton.2 rfl⟩
  have nonempty : name.toList ≠ [] := spelt ▸ List.cons_ne_nil first rest
  have read := @scan_word _ [] (by simp) word (by simp) 0
  rw [List.append_nil, Token.ofWord_colon nonempty, String.ofList_toList] at read
  rw [lex, code, if_neg Bool.false_ne_true, String.toList_append, colon, read]
  rfl

end StackMachine
