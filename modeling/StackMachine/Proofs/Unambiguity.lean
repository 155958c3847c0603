import StackMachine.Proofs.Listing

/-!
What a listing tells about a program. Every part of a listing can be cut off
from what follows it in one way only: a word ends before a separator, an escape
says itself how long it is, and no text closes before the first quote that is
not escaped. Label lines open with no digit and instruction lines do. So two
programs with one listing have the same instructions and the same labels, up to
the address behind the last instruction; labels further on are not listed.
-/

namespace StackMachine

theorem append_inj_of_forall {α : Type} {p : α → Prop} {first first' rest rest' : List α}
    (same : first ++ rest = first' ++ rest')
    (inside : ∀ a ∈ first, p a) (inside' : ∀ a ∈ first', p a)
    (outside : ∀ a ∈ rest.head?, ¬ p a) (outside' : ∀ a ∈ rest'.head?, ¬ p a) :
    first = first' ∧ rest = rest' := by
  induction first generalizing first' with
  | nil =>
    cases first' with
    | nil => exact ⟨rfl, same⟩
    | cons a first' =>
      have next : rest.head? = some a := congrArg List.head? same
      exact absurd (inside' a List.mem_cons_self) (outside a next)
  | cons a first ih =>
    obtain ⟨here, later⟩ := List.forall_mem_cons.1 inside
    cases first' with
    | nil =>
      have next : rest'.head? = some a := congrArg List.head? same.symm
      exact absurd here (outside' a next)
    | cons b first' =>
      obtain ⟨rfl, tails⟩ := List.cons.inj same
      obtain ⟨-, later'⟩ := List.forall_mem_cons.1 inside'
      obtain ⟨rfl, rests⟩ := ih tails later later'
      exact ⟨rfl, rests⟩

namespace Quoted

theorem digitChar_injective : ∀ d < 16, ∀ e < 16, Nat.digitChar d = Nat.digitChar e → d = e := by
  decide

theorem toDigits_injective {m n : Nat} (same : Nat.toDigits 16 m = Nat.toDigits 16 n) : m = n := by
  have high : ∀ n, Nat.toDigits 16 n =
      (if n < 16 then [] else Nat.toDigits 16 (n / 16)) ++ [Nat.digitChar (n % 16)] := by
    intro n
    rw [Nat.toDigits_eq_if (by decide)]
    split
    · rename_i small
      rw [Nat.mod_eq_of_lt small]
      rfl
    · rfl
  induction m using Nat.strongRecOn generalizing n with
  | _ m ih =>
    rw [high m, high n] at same
    obtain ⟨highs, lows⟩ := List.append_inj' same rfl
    have low : m % 16 = n % 16 := digitChar_injective _ (Nat.mod_lt _ (by decide)) _
      (Nat.mod_lt _ (by decide)) (List.singleton_inj.1 lows)
    split at highs <;> split at highs
    · omega
    · exact absurd highs.symm Nat.toDigits_ne_nil
    · exact absurd highs Nat.toDigits_ne_nil
    · have quotient := ih (m / 16) (Nat.div_lt_self (by omega) (by decide)) highs
      omega

theorem codePoint_append_inj {c d : Char} {rest other : List Char}
    (same : Nat.toDigits 16 c.toNat ++ '\x7d' :: rest =
      Nat.toDigits 16 d.toNat ++ '\x7d' :: other) : c = d ∧ rest = other := by
  have digits : ∀ n, ∀ c ∈ Nat.toDigits 16 n, c ≠ '\x7d' := by
    have distinct : ∀ d < 16, Nat.digitChar d ≠ '\x7d' := by decide
    intro n c mem
    obtain ⟨d, small, rfl⟩ := mem_toDigits mem
    exact distinct d small
  obtain ⟨points, rests⟩ := append_inj_of_forall same (digits _) (digits _) (by simp) (by simp)
  exact ⟨Char.toNat_inj.1 (toDigits_injective points), (List.cons.inj rests).2⟩

theorem escape_append_inj {c d : Char} {rest other : List Char}
    (same : escape c ++ rest = escape d ++ other) : c = d ∧ rest = other := by
  have bare : ∀ {c : Char}, c ∉ shortEscapes.map Prod.fst → c ≠ '\\' := by
    rintro c long rfl
    exact long (by decide)
  have unmarked : ∀ pair ∈ shortEscapes, pair.2 ≠ 'u' := by decide
  have distinct : ∀ pair ∈ shortEscapes, ∀ pair' ∈ shortEscapes,
      pair.2 = pair'.2 → pair.1 = pair'.1 := by decide
  -- two ways of writing part at the first or the second character, unless they are one
  rcases escape_cases c with ⟨shown, long⟩ | ⟨sign, short, shown⟩ | shown
  all_goals
    rcases escape_cases d with ⟨shown', long'⟩ | ⟨sign', short', shown'⟩ | shown'
    all_goals rw [shown, shown'] at same
  · obtain ⟨rfl, rests⟩ := List.cons.inj same
    exact ⟨rfl, rests⟩
  · exact absurd (List.cons.inj same).1 (bare long)
  · exact absurd (List.cons.inj same).1 (bare long)
  · exact absurd (List.cons.inj same).1.symm (bare long')
  · obtain ⟨signs, rests⟩ := List.cons.inj (List.cons.inj same).2
    exact ⟨distinct _ short _ short' signs, rests⟩
  · exact absurd (List.cons.inj (List.cons.inj same).2).1 (unmarked _ short)
  · exact absurd (List.cons.inj same).1.symm (bare long')
  · exact absurd (List.cons.inj (List.cons.inj same).2).1.symm (unmarked _ short')
  · simp only [List.cons_append, List.cons.injEq, true_and, List.append_assoc,
      List.nil_append] at same
    exact codePoint_append_inj same

theorem escape_ne_quote (c : Char) (rest other : List Char) :
    escape c ++ rest ≠ '"' :: other := by
  intro same
  rcases escape_cases c with ⟨shown, long⟩ | ⟨sign, short, shown⟩ | shown
  · rw [shown] at same
    rw [(List.cons.inj same).1] at long
    exact long (by decide)
  · rw [shown] at same
    cases same
  · rw [shown] at same
    cases same

theorem characters_append_inj {cs ds rest other : List Char}
    (same : characters cs ++ rest = characters ds ++ other) : cs = ds ∧ rest = other := by
  have inner : cs.flatMap escape ++ '"' :: rest = ds.flatMap escape ++ '"' :: other := by
    simpa [characters] using same
  clear same
  induction cs generalizing ds with
  | nil =>
    cases ds with
    | nil => exact ⟨rfl, (List.cons.inj inner).2⟩
    | cons d ds =>
      rw [List.flatMap_cons, List.append_assoc] at inner
      exact absurd inner.symm (escape_ne_quote d _ _)
  | cons c cs ih =>
    rw [List.flatMap_cons, List.append_assoc] at inner
    cases ds with
    | nil => exact absurd inner (escape_ne_quote c _ _)
    | cons d ds =>
      rw [List.flatMap_cons, List.append_assoc] at inner
      obtain ⟨rfl, later⟩ := escape_append_inj inner
      obtain ⟨rfl, rests⟩ := ih later
      exact ⟨rfl, rests⟩

end Quoted

theorem word_append_inj {word word' rest rest' : List Char}
    (same : word ++ rest = word' ++ rest')
    (plain : ∀ c ∈ word, IsPlain c) (plain' : ∀ c ∈ word', IsPlain c)
    (ends : ∀ c ∈ rest.head?, isSeparator c = true)
    (ends' : ∀ c ∈ rest'.head?, isSeparator c = true) : word = word' ∧ rest = rest' := by
  have outside : ∀ c, isSeparator c = true → ¬ isWordCharacter c = true := by
    intro c separator character
    rw [(isSeparator_of_isWordCharacter character).1] at separator
    cases separator
  exact append_inj_of_forall same (fun c mem => (plain c mem).isWordCharacter)
    (fun c mem => (plain' c mem).isWordCharacter) (fun c head => outside c (ends c head))
    (fun c head => outside c (ends' c head))

namespace Value

theorem token_injective {value value' : Value} (same : value.token = value'.token) :
    value = value' := by
  have unread : Number.parse? "nil" = none := by decide
  have other : ∀ n : Number, n.text ≠ "nil" := by
    intro n same
    have parsed := Number.parse?_text n
    rw [same, unread] at parsed
    cases parsed
  cases value <;> cases value' <;> simp only [token, Token.word.injEq, reduceCtorEq] at same
  · rfl
  · exact absurd same.symm (other _)
  · exact absurd same (other _)
  · exact congrArg number (Number.characters_injective (String.ofList_injective same))
  · exact congrArg text (Token.quoted.inj same)

theorem word_ne_text {word rest other : List Char} (nonempty : word ≠ [])
    (plain : ∀ c ∈ word, IsPlain c) (s : String) :
    word ++ rest ≠ (text s).quoted.toList ++ other := by
  intro same
  obtain ⟨first, word, rfl⟩ := List.exists_cons_of_ne_nil nonempty
  have quote : first = '"' := by
    rw [quoted, Quoted.text, String.toList_ofList] at same
    exact (List.cons.inj same).1
  have quoted : ¬ IsPlain '"' := by decide
  exact quoted (quote ▸ plain first List.mem_cons_self)

theorem quoted_append_inj {value other : Value} {rest rest' : List Char}
    (same : value.quoted.toList ++ rest = other.quoted.toList ++ rest')
    (ends : ∀ c ∈ rest.head?, isSeparator c = true)
    (ends' : ∀ c ∈ rest'.head?, isSeparator c = true) : value = other ∧ rest = rest' := by
  rcases value.word_or_text with ⟨nonempty, plain, token⟩ | ⟨s, rfl⟩
  · rcases other.word_or_text with ⟨-, plain', token'⟩ | ⟨t, rfl⟩
    · obtain ⟨words, rests⟩ := word_append_inj same plain plain' ends ends'
      rw [String.toList_inj] at words
      rw [words, ← token'] at token
      exact ⟨token_injective token, rests⟩
    · exact absurd same (word_ne_text nonempty plain t)
  · rcases other.word_or_text with ⟨nonempty', plain', -⟩ | ⟨t, rfl⟩
    · exact absurd same.symm (word_ne_text nonempty' plain' s)
    · simp only [quoted, Quoted.text, String.toList_ofList] at same
      obtain ⟨texts, rests⟩ := Quoted.characters_append_inj same
      rw [String.toList_inj] at texts
      exact ⟨congrArg text texts, rests⟩

theorem written_injective {values others : List Value} (same : written values = written others) :
    values = others := by
  induction values generalizing others with
  | nil =>
    cases others with
    | nil => rfl
    | cons other others => cases same
  | cons value values ih =>
    cases others with
    | nil => cases same
    | cons other others =>
      rw [written, List.flatMap_cons, written, List.flatMap_cons] at same
      obtain ⟨rfl, rests⟩ := quoted_append_inj (List.cons.inj same).2 (head?_written values)
        (head?_written others)
      rw [ih rests]

end Value

theorem Instruction.text_injective {instruction other : Instruction}
    (same : instruction.text = other.text) : instruction = other := by
  have mnemonic : ∀ op : Opcode, ∀ c ∈ op.mnemonic.toList, IsPlain c := by
    intro op
    obtain ⟨first, rest, spelt, plain⟩ := op.plain_mnemonic
    rwa [spelt]
  rw [← String.toList_inj, toList_text, toList_text] at same
  obtain ⟨words, operands⟩ := word_append_inj same (mnemonic _) (mnemonic _)
    (Value.head?_written _) (Value.head?_written _)
  obtain ⟨opcode, values⟩ := instruction
  obtain ⟨opcode', values'⟩ := other
  rw [Instruction.mk.injEq]
  exact ⟨Opcode.mnemonic_injective words, Value.written_injective operands⟩

namespace Program

def linesBehind (program : Program) (address : Nat) : List Instruction → List String
  | [] => []
  | instruction :: rest =>
      (addressText address ++ " " ++ instruction.text) :: program.linesFrom (address + 1) rest

theorem linesFrom_eq (program : Program) (address : Nat) (instructions : List Instruction) :
    program.linesFrom address instructions =
      program.labelLines address ++ program.linesBehind address instructions := by
  cases instructions with
  | nil => exact (List.append_nil _).symm
  | cons instruction rest => rfl

variable {program other : Program}

theorem opens_labelLines (names : ∀ name address, program.label? name = some address → IsName name)
    (address : Nat) :
    ∀ line ∈ program.labelLines address, ¬ line.toList.head?.any Char.isDigit = true := by
  intro line mem
  obtain ⟨name, listed, rfl⟩ := List.mem_map.1 mem
  exact opens_label (names name address (Symbols.mem_namesAt.1 listed))

theorem opens_linesBehind (program : Program) (address : Nat) (instructions : List Instruction) :
    ∀ line ∈ (program.linesBehind address instructions).head?,
      line.toList.head?.any Char.isDigit = true := by
  intro line head
  cases instructions with
  | nil => cases head
  | cons instruction rest =>
    cases head
    rw [toList_instructionLine]
    exact opens_address address _

theorem linesFrom_split {address : Nat} {instructions instructions' : List Instruction}
    (names : ∀ name address, program.label? name = some address → IsName name)
    (names' : ∀ name address, other.label? name = some address → IsName name)
    (same : program.linesFrom address instructions = other.linesFrom address instructions') :
    program.symbols.namesAt address = other.symbols.namesAt address
      ∧ program.linesBehind address instructions = other.linesBehind address instructions' := by
  rw [linesFrom_eq, linesFrom_eq] at same
  obtain ⟨lines, rests⟩ := append_inj_of_forall same (opens_labelLines names address)
    (opens_labelLines names' address)
    (fun line head => not_not.2 (opens_linesBehind program address _ line head))
    (fun line head => not_not.2 (opens_linesBehind other address _ line head))
  refine ⟨List.map_injective_iff.2 ?_ lines, rests⟩
  exact fun name name' => (String.append_left_inj ":").1

theorem linesFrom_inj {address : Nat} {instructions instructions' : List Instruction}
    (names : ∀ name address, program.label? name = some address → IsName name)
    (names' : ∀ name address, other.label? name = some address → IsName name)
    (same : program.linesFrom address instructions = other.linesFrom address instructions') :
    instructions = instructions'
      ∧ ∀ place, address ≤ place → place ≤ address + instructions.length →
        program.symbols.namesAt place = other.symbols.namesAt place := by
  induction instructions generalizing address instructions' with
  | nil =>
    obtain ⟨here, behind⟩ := linesFrom_split names names' same
    cases instructions' with
    | cons instruction' rest' => cases behind
    | nil =>
      refine ⟨rfl, fun place low high => ?_⟩
      rwa [Nat.le_antisymm high low]
  | cons instruction rest ih =>
    obtain ⟨here, behind⟩ := linesFrom_split names names' same
    cases instructions' with
    | nil => cases behind
    | cons instruction' rest' =>
      obtain ⟨line, later⟩ := List.cons.inj behind
      obtain ⟨rfl, places⟩ := ih later
      obtain rfl := Instruction.text_injective ((String.append_right_inj _).1 line)
      refine ⟨rfl, fun place low high => ?_⟩
      rw [List.length_cons] at high
      by_cases first : place = address
      · rwa [first]
      · exact places place (by omega) (by omega)

end Program

/-- Programs with one listing have the same instructions, each with its opcode and
all of its operands, and the same labels at every address up to the one behind
the last instruction, provided that all names of labels are identifiers. -/
theorem listing_determines_the_program {program other : Program}
    (names : ∀ name address, program.label? name = some address → IsName name)
    (names' : ∀ name address, other.label? name = some address → IsName name)
    (same : program.listing = other.listing) :
    program.instructions = other.instructions
      ∧ ∀ address ≤ program.size,
        program.symbols.namesAt address = other.symbols.namesAt address := by
  have texts : program.listingLines.map String.toList = other.listingLines.map String.toList := by
    rw [← Program.lineTexts_listing names, ← Program.lineTexts_listing names', same]
  have lines : program.listingLines = other.listingLines :=
    List.map_injective_iff.2 (fun s t => String.toList_inj.1) texts
  obtain ⟨instructions, labels⟩ := Program.linesFrom_inj names names' lines
  refine ⟨Array.toList_inj.1 instructions, fun address inside => ?_⟩
  rw [Program.size, ← Array.length_toList] at inside
  exact labels address (Nat.zero_le _) (by rwa [Nat.zero_add])

/-- Texts with quotes, spaces, a hidden character and, right behind it, the letters
of its escape; operands of any number. -/
def manyOperands (symbols : Symbols) : Program :=
  ⟨#[⟨.const, [.text "a\" nil\\", .text "\u200b\\u\x7b200b\x7d\n", .nil]⟩,
      ⟨.halt, [.number (.infinite true)]⟩, ⟨.goto, []⟩], symbols⟩

def listedLabels : Symbols :=
  (Symbols.empty.insert "end" 3).insert "_a1" 0

theorem listing_determines_the_program_of_manyOperands :
    (manyOperands listedLabels).listing =
        "_a1:\n0000 const \"a\\\" nil\\\\\" \"\\u\x7b200b\x7d\\\\u\x7b200b\x7d\\n\" nil\n"
          ++ "0001 halt -inf\n0002 goto\nend:\n"
      ∧ (manyOperands listedLabels).listing = (manyOperands (listedLabels.insert "far" 4)).listing
      ∧ listedLabels ≠ listedLabels.insert "far" 4
      ∧ (manyOperands listedLabels).instructions =
        (manyOperands (listedLabels.insert "far" 4)).instructions
      ∧ ∀ address ≤ (manyOperands listedLabels).size,
        listedLabels.namesAt address = (listedLabels.insert "far" 4).namesAt address := by
  have named : ∀ symbols : Symbols,
      symbols.entries.all (fun entry => isIdentifier entry.1) = true →
      ∀ name address, (manyOperands symbols).label? name = some address → IsName name := by
    intro symbols all name address found
    have mem := (Symbols.mem_iff_lookup symbols.ordered).2 found
    exact isIdentifier_iff.1 (List.all_eq_true.1 all _ mem)
  have same : (manyOperands listedLabels).listing =
      (manyOperands (listedLabels.insert "far" 4)).listing := by decide +kernel
  exact ⟨by decide +kernel, same, by decide +kernel,
    listing_determines_the_program (named _ (by decide +kernel)) (named _ (by decide +kernel)) same⟩

end StackMachine
