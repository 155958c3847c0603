import Mathlib.Data.List.Sort
import StackMachine.Proofs.Addresses
import StackMachine.Proofs.Arity
import StackMachine.Proofs.Spelling

/-!
Listings as sources. The listing of an assembled program shows addresses in
front of its instructions. Without them it is a source again: labels stand on
lines of their own above what they name, operands that were labels are numbers,
and assembling it gives the same instructions and the same table of labels.
-/

namespace StackMachine

namespace Symbols

variable {symbols : Symbols} {name : String} {address : Nat}

theorem mem_iff_lookup {entries : List (String × Nat)} (ordered : Ordered entries) :
    (name, address) ∈ entries ↔ entries.lookup name = some address := by
  induction entries with
  | nil => simp
  | cons entry entries ih =>
    obtain ⟨below, ordered⟩ := List.pairwise_cons.1 ordered
    rw [List.mem_cons, lookup_cons_if, ih ordered]
    by_cases same : name = entry.1
    · have later : entries.lookup name ≠ some address := by
        intro found
        have above := below _ ((ih ordered).2 found)
        rw [same] at above
        exact String.lt_irrefl _ above
      rw [if_pos same, or_iff_left later, Option.some.injEq, Prod.ext_iff, and_iff_right same]
      exact eq_comm
    · have other : (name, address) ≠ entry := fun whole => same (congrArg Prod.fst whole)
      rw [if_neg same, or_iff_right other]

theorem ext_find? {other : Symbols} (same : ∀ name, symbols.find? name = other.find? name) :
    symbols = other := by
  obtain ⟨entries, ordered⟩ := symbols
  obtain ⟨entries', ordered'⟩ := other
  have asymm : Std.Antisymm fun a b : String × Nat => a.1 < b.1 :=
    ⟨fun a b less greater => absurd (String.lt_trans less greater) (String.lt_irrefl _)⟩
  have irrefl : Std.Irrefl fun a b : String × Nat => a.1 < b.1 := ⟨fun a => String.lt_irrefl _⟩
  have equal : entries = entries' := by
    refine List.Pairwise.eq_of_mem_iff ordered ordered' fun entry => ?_
    obtain ⟨name, address⟩ := entry
    rw [mem_iff_lookup ordered, mem_iff_lookup ordered']
    exact iff_of_eq (congrArg (· = some address) (same name))
  subst equal
  rfl

theorem mem_namesAt : name ∈ symbols.namesAt address ↔ symbols.find? name = some address := by
  rw [find?, ← mem_iff_lookup symbols.ordered, namesAt, List.mem_map]
  refine ⟨fun listed => ?_, fun mem => ⟨(name, address), ?_, rfl⟩⟩
  · obtain ⟨⟨first, second⟩, listed, rfl⟩ := listed
    obtain ⟨mem, same⟩ := List.mem_filter.1 listed
    exact (beq_iff_eq.1 same) ▸ mem
  · exact List.mem_filter.2 ⟨mem, beq_self_eq_true address⟩

theorem nodup_namesAt (symbols : Symbols) (address : Nat) : (symbols.namesAt address).Nodup := by
  rw [namesAt, List.nodup_iff_pairwise_ne, List.pairwise_map]
  refine (symbols.ordered.filter _).imp fun {a b} less same => ?_
  rw [same] at less
  exact String.lt_irrefl _ less

end Symbols

/-- An instruction line without its address and the space behind it; other lines
open with no digit and stay. -/
def withoutAddress (line : List Char) : List Char :=
  if (line.head?.any Char.isDigit) then (line.dropWhile Char.isDigit).drop 1 else line

def withoutAddresses (listing : String) : String :=
  String.ofList ((lineTexts listing.toList).flatMap fun line => withoutAddress line ++ ['\n'])

theorem withoutAddress_sublist (line : List Char) : (withoutAddress line).Sublist line := by
  unfold withoutAddress
  split
  · exact (List.drop_sublist _ _).trans (List.dropWhile_sublist _)
  · exact List.Sublist.refl line

theorem isDigit_of_mem_addressText {address : Nat} {c : Char}
    (mem : c ∈ (addressText address).toList) : c.isDigit = true := by
  rw [addressText, String.toList_ofList, List.mem_append] at mem
  rcases mem with zero | digit
  · rw [List.eq_of_mem_replicate zero]
    rfl
  · exact Decimal.isDigit_of_mem_toDigits digit

theorem opens_address (address : Nat) (text : List Char) :
    ((addressText address).toList ++ ' ' :: text).head?.any Char.isDigit = true := by
  have nonempty : (addressText address).toList ≠ [] := by
    rw [addressText, String.toList_ofList]
    exact List.append_ne_nil_of_right_ne_nil _ Nat.toDigits_ne_nil
  obtain ⟨first, rest, shown⟩ := List.exists_cons_of_ne_nil nonempty
  rw [shown]
  exact isDigit_of_mem_addressText (shown ▸ List.mem_cons_self)

theorem opens_label {name : String} (isName : IsName name) :
    ¬ (name ++ ":").toList.head?.any Char.isDigit = true := by
  obtain ⟨first, rest, spelt, other, -⟩ := isName.plain
  rw [String.toList_append, spelt]
  exact mt isDigit_iff.1 other

theorem withoutAddress_address (address : Nat) (text : List Char) :
    withoutAddress ((addressText address).toList ++ ' ' :: text) = text := by
  have digits : ∀ c ∈ (addressText address).toList, c.isDigit = true :=
    fun c => isDigit_of_mem_addressText
  have space : ¬ ' '.isDigit = true := by decide
  rw [withoutAddress, if_pos (opens_address address text), List.dropWhile_append_of_pos digits,
    List.dropWhile_cons_of_neg space]
  rfl

theorem withoutAddress_label {name : String} (isName : IsName name) :
    withoutAddress (name ++ ":").toList = (name ++ ":").toList := by
  rw [withoutAddress, if_neg (opens_label isName)]

theorem lineTexts_flatMap {lines : List (List Char)}
    (inLine : ∀ line ∈ lines, ∀ c ∈ line, c ≠ '\n' ∧ c ≠ '\r') :
    lineTexts (lines.flatMap fun line => line ++ ['\n']) = lines := by
  induction lines with
  | nil => rfl
  | cons line lines ih =>
    obtain ⟨first, later⟩ := List.forall_mem_cons.1 inLine
    have ends : EndsLine (line ++ ['\n']) := .inr ⟨line, rfl⟩
    have single : '\n' ∉ line := fun mem => (first _ mem).1 rfl
    have whole : trimReturn line = line := by
      refine (trimReturn_eq line).resolve_right fun back => ?_
      have mem : '\r' ∈ line := by
        rw [back]
        exact List.mem_append_right _ List.mem_cons_self
      exact (first _ mem).2 rfl
    rw [List.flatMap_cons, lineTexts_append ends, lineTexts_newline single, ih later, whole]
    rfl

namespace Line

def tokens (line : Line) : List Token :=
  line.lexemes.map Lexeme.token

end Line

theorem tokens_tokenLines (first : Nat) (texts : List (List Char)) :
    (tokenLines first texts).map Line.tokens =
      (texts.map fun text => (lex text).map Lexeme.token).filter fun row => !row.isEmpty := by
  induction texts generalizing first with
  | nil => rfl
  | cons text texts ih =>
    have split := tokenLines_append first [text] texts
    rw [List.singleton_append] at split
    rw [split, tokenLines_singleton, List.map_append, ih, List.map_cons]
    cases found : lex text with
    | nil => rfl
    | cons lexeme lexemes => simp [Line.tokens, Line.read, found]

namespace Program

def rowsFrom (program : Program) (address : Nat) : List Instruction → List (List Token)
  | [] => (program.symbols.namesAt address).map fun name => [.label name]
  | instruction :: rest =>
      ((program.symbols.namesAt address).map fun name => [.label name])
        ++ instruction.tokens :: program.rowsFrom (address + 1) rest

variable {program : Program}

theorem ne_nil_of_mem_rowsFrom {address : Nat} {instructions : List Instruction} {row : List Token}
    (mem : row ∈ program.rowsFrom address instructions) : row ≠ [] := by
  have labels : ∀ address, row ∈ (program.symbols.namesAt address).map
      (fun name => [Token.label name]) → row ≠ [] := by
    intro address mem
    obtain ⟨name, -, rfl⟩ := List.mem_map.1 mem
    exact List.cons_ne_nil _ _
  induction instructions generalizing address with
  | nil => exact labels address mem
  | cons instruction rest ih =>
    rw [rowsFrom, List.mem_append, List.mem_cons] at mem
    rcases mem with mem | rfl | mem
    · exact labels address mem
    · exact List.cons_ne_nil _ _
    · exact ih mem

theorem toList_instructionLine (address : Nat) (text : String) :
    (addressText address ++ " " ++ text).toList =
      (addressText address).toList ++ ' ' :: text.toList := by
  rw [String.toList_append, String.toList_append, List.append_assoc]
  rfl

theorem tokens_linesFrom (names : ∀ name address, program.label? name = some address → IsName name)
    {instructions : List Instruction}
    (writable : ∀ instruction ∈ instructions, instruction.IsWritable)
    (address : Nat) :
    (program.linesFrom address instructions).map
        (fun line => (lex (withoutAddress line.toList)).map Lexeme.token) =
      program.rowsFrom address instructions := by
  have labels : ∀ address, (program.labelLines address).map
      (fun line => (lex (withoutAddress line.toList)).map Lexeme.token) =
        (program.symbols.namesAt address).map fun name => [Token.label name] := by
    intro address
    rw [labelLines, List.map_map]
    refine List.map_congr_left fun name mem => ?_
    have isName := names name address (Symbols.mem_namesAt.1 mem)
    rw [Function.comp_apply, withoutAddress_label isName, lex_label isName]
  induction instructions generalizing address with
  | nil => exact labels address
  | cons instruction rest ih =>
    obtain ⟨here, later⟩ := List.forall_mem_cons.1 writable
    rw [linesFrom, List.map_append, List.map_cons, labels, ih later, toList_instructionLine,
      withoutAddress_address, Instruction.lex_text here, rowsFrom]

theorem inLine_linesFrom (names : ∀ name address, program.label? name = some address → IsName name)
    (instructions : List Instruction) (address : Nat) :
    ∀ line ∈ program.linesFrom address instructions, ∀ c ∈ line.toList, c ≠ '\n' ∧ c ≠ '\r' := by
  have labels : ∀ address, ∀ line ∈ program.labelLines address, ∀ c ∈ line.toList,
      c ≠ '\n' ∧ c ≠ '\r' := by
    intro address line mem c inside
    obtain ⟨name, listed, rfl⟩ := List.mem_map.1 mem
    have isName := names name address (Symbols.mem_namesAt.1 listed)
    obtain ⟨first, rest, spelt, -, plain⟩ := isName.plain
    rw [String.toList_append, spelt, List.mem_append] at inside
    rcases inside with inside | colon
    · exact (plain c inside).inLine
    · rw [List.mem_singleton.1 colon]
      decide
  induction instructions generalizing address with
  | nil => exact labels address
  | cons instruction rest ih =>
    rw [linesFrom, List.forall_mem_append, List.forall_mem_cons]
    refine ⟨labels address, fun c inside => ?_, ih (address + 1)⟩
    rw [toList_instructionLine, List.mem_append, List.mem_cons] at inside
    rcases inside with digit | rfl | text
    · have plain : IsPlain c := .inr (.inl (isDigit_iff.1 (isDigit_of_mem_addressText digit)))
      exact plain.inLine
    · decide
    · exact Instruction.inLine_text text

theorem lineTexts_listing
    (names : ∀ name address, program.label? name = some address → IsName name) :
    lineTexts program.listing.toList = program.listingLines.map String.toList := by
  have listed : program.listing.toList =
      (program.listingLines.map String.toList).flatMap fun line => line ++ ['\n'] := by
    rw [listing, String.toList_join, List.flatMap_map, List.flatMap_map]
    simp only [String.toList_append]
    rfl
  rw [listed, lineTexts_flatMap]
  exact List.forall_mem_map.2 (inLine_linesFrom names program.instructions.toList 0)

/-- Programs whose listing is a source: labels have the names of labels and stand
before an instruction or behind the last, and instructions can be written down. -/
structure IsListable (program : Program) : Prop where
  names : ∀ name address, program.label? name = some address → IsLabelName name
  inside : ∀ name address, program.label? name = some address → address ≤ program.size
  counts : ∀ instruction ∈ program.instructions.toList,
    instruction.operands.length = instruction.opcode.arity
  writable : ∀ instruction ∈ program.instructions.toList, instruction.IsWritable

theorem IsListable.tokens_listing (listable : program.IsListable) :
    (sourceLines (withoutAddresses program.listing)).map Line.tokens =
      program.rowsFrom 0 program.instructions.toList := by
  have names : ∀ name address, program.label? name = some address → IsName name :=
    fun name address found => (listable.names name address found).isName
  have bare : ∀ line ∈ (program.listingLines.map String.toList).map withoutAddress, ∀ c ∈ line,
      c ≠ '\n' ∧ c ≠ '\r' := by
    rw [List.forall_mem_map, List.forall_mem_map]
    exact fun line mem c inside => inLine_linesFrom names _ 0 line mem c
      ((withoutAddress_sublist line.toList).subset inside)
  have texts : lineTexts (withoutAddresses program.listing).toList =
      (program.listingLines.map String.toList).map withoutAddress := by
    have lines := lineTexts_flatMap bare
    rw [List.flatMap_map] at lines
    rw [withoutAddresses, String.toList_ofList, lineTexts_listing names, lines]
  rw [sourceLines_eq, tokens_tokenLines, texts, List.map_map, List.map_map]
  refine (congrArg _ (tokens_linesFrom names listable.writable 0)).trans (List.filter_eq_self.2 ?_)
  intro row mem
  have full := ne_nil_of_mem_rowsFrom mem
  simpa using full

end Program

namespace Statement

structure Writes (statement : Statement) (instruction : Instruction) : Prop where
  opcode : statement.opcode = instruction.opcode
  operands : statement.operands.map Lexeme.token = instruction.operands.map Value.token

theorem resolve_written {symbols : Symbols} {operands : List Lexeme} {values : List Value}
    (names : ∀ name address, symbols.find? name = some address → IsLabelName name)
    (writable : ∀ value ∈ values, value.IsWritable)
    (written : operands.map Lexeme.token = values.map Value.token) :
    List.Forall₂ (fun operand value => operand.token.resolve symbols = .ok value)
      operands values := by
  induction values generalizing operands with
  | nil =>
    rw [List.map_eq_nil_iff.1 written]
    exact .nil
  | cons value values ih =>
    obtain ⟨here, later⟩ := List.forall_mem_cons.1 writable
    obtain ⟨operand, rest, rfl, token, written⟩ := List.map_eq_cons_iff.1 written
    refine .cons ?_ (ih later written)
    rw [token]
    exact (resolve_eq_ok names).2 (Value.denotes_token here _)

theorem link_written {symbols : Symbols} {statements : List Statement}
    {instructions : List Instruction} (written : List.Forall₂ Writes statements instructions)
    (names : ∀ name address, symbols.find? name = some address → IsLabelName name)
    (writable : ∀ instruction ∈ instructions, instruction.IsWritable) :
    List.Forall₂ (fun statement instruction => statement.link symbols = .ok instruction)
      statements instructions := by
  induction written with
  | nil => exact .nil
  | cons first rest ih =>
    obtain ⟨here, later⟩ := List.forall_mem_cons.1 writable
    exact .cons (link_eq_ok.2 ⟨first.opcode.symm, resolve_written names here first.operands⟩)
      (ih later)

end Statement

namespace Draft

variable {draft : Draft} {program : Program} {address : Nat}

theorem foldlM_labels {lines : List Line} {names : List String}
    (rows : lines.map Line.tokens = names.map fun name => [.label name])
    (admits : draft.Admits names) :
    lines.foldlM addLine draft = .ok (draft.withLabels names) := by
  induction names generalizing lines draft with
  | nil =>
    rw [List.map_eq_nil_iff.1 rows]
    rfl
  | cons name names ih =>
    obtain ⟨line, rest, rfl, row, later⟩ := List.map_eq_cons_iff.1 rows
    obtain ⟨number, lexemes⟩ := line
    obtain ⟨⟨span, token⟩, none, rfl, rfl, empty⟩ := List.map_eq_cons_iff.1 row
    obtain rfl := List.map_eq_nil_iff.1 empty
    obtain ⟨free, admits⟩ := admits_cons.1 admits
    have added : draft.addLine ⟨number, [⟨span, .label name⟩]⟩ = .ok (draft.withLabel name) :=
      addLine_eq_ok.2 ⟨⟨[name], none, .label .blank⟩,
        admits_cons.2 ⟨free, admits_nil _⟩, rfl⟩
    rw [List.foldlM_cons, added]
    exact ih later admits

theorem addLine_written (draft : Draft) {line : Line} {instruction : Instruction}
    (row : line.tokens = instruction.tokens)
    (count : instruction.operands.length = instruction.opcode.arity) :
    ∃ statement : Statement, statement.Writes instruction
      ∧ draft.addLine line = .ok (draft.add statement) := by
  obtain ⟨number, lexemes⟩ := line
  obtain ⟨⟨span, token⟩, operands, rfl, rfl, written⟩ := List.map_eq_cons_iff.1 row
  have length : operands.length = instruction.opcode.arity := by
    rw [← count, ← List.length_map, written, List.length_map]
  have kinds : ∀ operand ∈ operands, operand.token.isOperand = true := by
    intro operand mem
    have listed : operand.token ∈ operands.map Lexeme.token := List.mem_map_of_mem mem
    rw [written] at listed
    obtain ⟨value, -, same⟩ := List.mem_map.1 listed
    rw [← same]
    exact value.isOperand_token
  have form : LineForm (⟨span, .word instruction.opcode.mnemonic⟩ :: operands) []
      (some (instruction.opcode, operands)) := .statement rfl length kinds
  refine ⟨Statement.onLine number (instruction.opcode, operands), ⟨rfl, written⟩, ?_⟩
  have labels : Line.labels ⟨number, ⟨span, .word instruction.opcode.mnemonic⟩ :: operands⟩ = [] :=
    form.labels
  refine addLine_eq_ok.2 ⟨⟨[], _, form⟩, ?_, ?_⟩
  · rw [labels]
    exact draft.admits_nil
  · rw [extend, labels, Line.statement?, Statement.ofLexemes?_of_form form]
    rfl

/-- The draft has read a listing up to the labels at an address. -/
structure Holds (draft : Draft) (program : Program) (address : Nat) : Prop where
  nextAddress : draft.nextAddress = address
  address? : ∀ name found, draft.address? name = some found ↔
    program.label? name = some found ∧ found < address

theorem holds_empty (program : Program) : Holds .empty program 0 :=
  ⟨rfl, fun _ _ => iff_of_false nofun fun both => Nat.not_lt_zero _ both.2⟩

theorem Holds.admits (holds : draft.Holds program address)
    (names : ∀ name found, program.label? name = some found → IsLabelName name) :
    draft.Admits (program.symbols.namesAt address) := by
  refine ⟨fun name mem => names name address (Symbols.mem_namesAt.1 mem), fun name mem => ?_,
    program.symbols.nodup_namesAt address⟩
  rw [Option.eq_none_iff_forall_ne_some]
  intro found earlier
  obtain ⟨label, below⟩ := (holds.address? name found).1 earlier
  have here : program.label? name = some address := Symbols.mem_namesAt.1 mem
  rw [here] at label
  cases label
  exact Nat.lt_irrefl _ below

theorem Holds.withLabels (holds : draft.Holds program address) (name : String) (found : Nat) :
    (draft.withLabels (program.symbols.namesAt address)).address? name = some found ↔
      program.label? name = some found ∧ found < address + 1 := by
  rw [address?_withLabels, holds.nextAddress]
  -- a name has one address, so the labels that are added are none of those below
  by_cases here : name ∈ program.symbols.namesAt address
  · have label : program.label? name = some address := Symbols.mem_namesAt.1 here
    rw [if_pos here, label, Option.some.injEq]
    omega
  · have other : program.label? name ≠ some address := mt Symbols.mem_namesAt.2 here
    rw [if_neg here, holds.address?]
    refine and_congr_right fun label => ?_
    have distinct : found ≠ address := by
      rintro rfl
      exact other label
    omega

theorem Holds.add (holds : draft.Holds program address) (statement : Statement) :
    ((draft.withLabels (program.symbols.namesAt address)).add statement).Holds program
      (address + 1) := by
  refine ⟨?_, holds.withLabels⟩
  have size : (draft.withLabels (program.symbols.namesAt address)).statements.size = address := by
    rw [statements_withLabels]
    exact holds.nextAddress
  exact (Array.size_push statement).trans (congrArg (· + 1) size)

theorem Holds.foldlM (holds : draft.Holds program address)
    (names : ∀ name found, program.label? name = some found → IsLabelName name)
    {instructions : List Instruction} {lines : List Line}
    (counts : ∀ instruction ∈ instructions,
      instruction.operands.length = instruction.opcode.arity)
    (rows : lines.map Line.tokens = program.rowsFrom address instructions) :
    ∃ next added, lines.foldlM addLine draft = .ok next
      ∧ next.statements.toList = draft.statements.toList ++ added
      ∧ List.Forall₂ Statement.Writes added instructions
      ∧ ∀ name found, next.address? name = some found ↔
        program.label? name = some found ∧ found < address + instructions.length + 1 := by
  induction instructions generalizing draft address lines with
  | nil =>
    refine ⟨_, [], foldlM_labels rows (holds.admits names), ?_, .nil, holds.withLabels⟩
    rw [statements_withLabels, List.append_nil]
  | cons instruction instructions ih =>
    obtain ⟨count, counts⟩ := List.forall_mem_cons.1 counts
    -- the labels at this address, the instruction, and the rows from the next address on
    obtain ⟨labels, others, rfl, labelRows, rows⟩ := List.map_eq_append_iff.1 rows
    obtain ⟨line, rest, rfl, row, rows⟩ := List.map_eq_cons_iff.1 rows
    have labelled := foldlM_labels labelRows (holds.admits names)
    obtain ⟨statement, writes, read⟩ :=
      addLine_written (draft.withLabels (program.symbols.namesAt address)) row count
    obtain ⟨next, added, run, statements, written, placed⟩ := ih (holds.add statement) counts rows
    refine ⟨next, statement :: added, ?_, ?_, .cons writes written, fun name found => ?_⟩
    · rw [List.foldlM_append, labelled]
      show ((line :: rest).foldlM addLine _) = _
      rw [List.foldlM_cons, read]
      exact run
    · rw [statements, Draft.add, Array.toList_push, statements_withLabels, List.append_assoc]
      rfl
    · rw [placed, List.length_cons]
      refine and_congr_right fun _ => ?_
      omega

end Draft

namespace Program.IsListable

variable {program : Program}

theorem exists_draft (listable : program.IsListable) :
    ∃ draft, Draft.ofLines (sourceLines (withoutAddresses program.listing)) = .ok draft
      ∧ draft.symbols = program.symbols
      ∧ List.Forall₂ Statement.Writes draft.statements.toList program.instructions.toList := by
  obtain ⟨draft, added, read, statements, written, placed⟩ :=
    (Draft.holds_empty program).foldlM listable.names listable.counts listable.tokens_listing
  refine ⟨draft, read, Symbols.ext_find? fun name => Option.ext fun address => ?_, ?_⟩
  · refine (placed name address).trans (and_iff_left_of_imp fun found => ?_)
    have inside := listable.inside name address found
    rw [Program.size] at inside
    rw [Array.length_toList]
    omega
  · rw [statements]
    exact written

theorem assemble_listing (listable : program.IsListable) :
    assemble (withoutAddresses program.listing) = .ok program := by
  obtain ⟨draft, drafted, symbols, written⟩ := listable.exists_draft
  refine except_bind_eq_ok.2 ⟨draft, drafted, Draft.link_eq_ok.2 ⟨?_, symbols.symm⟩⟩
  rw [symbols]
  exact Statement.link_written written listable.names listable.writable

end Program.IsListable

/-- What is assembled is a source again when it is listed: without its addresses
the listing assembles to the same program, instructions and labels alike,
provided that no number among the operands is infinite or none at all and that
no character of a text among them needs an escape. -/
theorem listing_assembles_back {source : String} {program : Program}
    (assembled : assemble source = .ok program)
    (writable : ∀ instruction ∈ program.instructions, instruction.IsWritable) :
    assemble (withoutAddresses program.listing) = .ok program := by
  have translation : Translation source program := translation_of_assemble assembled
  have grammatical : Grammatical source := exists_assemble_iff.1 ⟨program, assembled⟩
  have declares : ∀ name address, program.label? name = some address → name ∈ declared source :=
    fun name address found => (translation.labels name).1 (Option.isSome_iff_exists.2 ⟨_, found⟩)
  refine Program.IsListable.assemble_listing ⟨?_, ?_, ?_, ?_⟩
  · intro name address found
    exact grammatical.names name (declares name address found)
  · intro name address found
    obtain ⟨line, mem, label⟩ := List.mem_flatMap.1 (declares name address found)
    rw [translation.label?_eq mem label] at found
    cases found
    exact translation.statementsAbove_le _
  · exact fun instruction mem => translation.operands_length (Array.mem_toList_iff.1 mem)
  · exact fun instruction mem => writable instruction (Array.mem_toList_iff.1 mem)

/-- Two labels at one address, labels that are operands, a label at the end, and a
text and numbers that are written otherwise than they are listed. -/
def listedSource : String :=
  "b: a: const \"x, y: #é\"\ncall end 1e3\ngoto a\nconst -0.50\nconst nil\nend:"

def listedProgram : Program :=
  ⟨#[⟨.const, [.text "x, y: #é"]⟩, ⟨.call, [.ofNat 5, .ofNat 1000]⟩, ⟨.goto, [.ofNat 0]⟩,
      ⟨.const, [.number (.ofDecimal true 5 (-1))]⟩, ⟨.const, [.nil]⟩],
    ((Symbols.empty.insert "a" 0).insert "b" 0).insert "end" 5⟩

theorem listing_assembles_back_of_listedSource :
    assemble listedSource = .ok listedProgram
      ∧ withoutAddresses listedProgram.listing =
        "a:\nb:\nconst \"x, y: #é\"\ncall 5 1000\ngoto 0\nconst -0.5\nconst nil\nend:\n"
      ∧ assemble (withoutAddresses listedProgram.listing) = .ok listedProgram := by
  have assembled : assemble listedSource = .ok listedProgram := by decide +kernel
  exact ⟨assembled, by decide +kernel, listing_assembles_back assembled (by decide +kernel)⟩

end StackMachine
