import StackMachine.Proofs.Acceptance
import StackMachine.Proofs.Lexing

/-!
The errors of the assembler, said without the assembler. `FirstOffence` goes
through a source as a reader would: from line to line, on a line from its labels
to its mnemonic, its operands and their number, and only when all lines are in
order once more from operand to operand. The assembler reports exactly that
offence, at a token of a line that is there.
-/

namespace StackMachine

section Results

variable {ε ε' α β : Type}

theorem exists_first_iff (fails : List α → Prop) (good bad : α → Prop) (nil : ¬ fails [])
    (cons : ∀ x xs, fails (x :: xs) ↔ bad x ∨ good x ∧ fails xs) (xs : List α) :
    fails xs ↔ ∃ before x after, xs = before ++ x :: after ∧ (∀ y ∈ before, good y) ∧ bad x := by
  induction xs with
  | nil => simp [nil]
  | cons x xs ih =>
    rw [cons, ih]
    refine ⟨fun h => ?_, fun h => ?_⟩
    · obtain here | ⟨fine, before, y, after, rfl, goods, there⟩ := h
      · exact ⟨[], x, xs, rfl, by simp, here⟩
      · exact ⟨x :: before, y, after, rfl, List.forall_mem_cons.2 ⟨fine, goods⟩, there⟩
    · obtain ⟨before, y, after, split, goods, there⟩ := h
      cases before with
      | nil =>
        cases split
        exact .inl there
      | cons z before =>
        cases split
        obtain ⟨fine, goods⟩ := List.forall_mem_cons.1 goods
        exact .inr ⟨fine, before, y, after, rfl, goods, there⟩

theorem except_bind_eq_error {x : Except ε α} {f : α → Except ε β} {e : ε} :
    (x >>= f) = .error e ↔ x = .error e ∨ ∃ a, x = .ok a ∧ f a = .error e := by
  cases x <;> simp [bind, Except.bind]

theorem except_mapError_eq_error {x : Except ε α} {f : ε → ε'} {e : ε'} :
    x.mapError f = .error e ↔ ∃ found, x = .error found ∧ e = f found := by
  cases x <;> simp [Except.mapError, eq_comm]

theorem except_forM_eq_error {f : α → Except ε Unit} {xs : List α} {e : ε} :
    xs.forM f = .error e ↔
      ∃ before x after, xs = before ++ x :: after ∧ (∀ y ∈ before, f y = .ok ())
        ∧ f x = .error e := by
  have cons : ∀ x xs, List.forM (x :: xs) f = .error e ↔
      f x = .error e ∨ f x = .ok () ∧ xs.forM f = .error e := by
    intro x xs
    show (f x >>= fun _ => xs.forM f) = .error e ↔ _
    simp only [except_bind_eq_error, Unique.exists_iff]
  exact exists_first_iff (fun xs => xs.forM f = .error e) (fun y => f y = .ok ())
    (fun x => f x = .error e) (by simp [pure, Except.pure]) cons xs

theorem except_mapM_filterMap_eq_error {γ : Type} {g : γ → Option α} {f : α → Except ε β}
    {xs : List γ} {e : ε} :
    (xs.filterMap g).mapM f = .error e ↔
      ∃ before x after, xs = before ++ x :: after
        ∧ (∀ y ∈ before, ∀ a, g y = some a → ∃ b, f a = .ok b)
        ∧ ∃ a, g x = some a ∧ f a = .error e := by
  have cons : ∀ x xs, (List.filterMap g (x :: xs)).mapM f = .error e ↔
      (∃ a, g x = some a ∧ f a = .error e)
        ∨ (∀ a, g x = some a → ∃ b, f a = .ok b) ∧ (xs.filterMap g).mapM f = .error e := by
    intro x xs
    cases found : g x with
    | none => simp [List.filterMap_cons_none found]
    | some a =>
      rw [List.filterMap_cons_some found, List.mapM_cons, except_bind_eq_error]
      simp [except_bind_eq_error, pure, Except.pure]
  exact exists_first_iff (fun xs => (xs.filterMap g).mapM f = .error e)
    (fun y => ∀ a, g y = some a → ∃ b, f a = .ok b) (fun x => ∃ a, g x = some a ∧ f a = .error e)
    (by simp [pure, Except.pure]) cons xs

theorem except_mapM_eq_error {f : α → Except ε β} {xs : List α} {e : ε} :
    xs.mapM f = .error e ↔
      ∃ before x after, xs = before ++ x :: after ∧ (∀ y ∈ before, ∃ b, f y = .ok b)
        ∧ f x = .error e := by
  have filtered := @except_mapM_filterMap_eq_error ε α β α some f xs e
  simpa using filtered

theorem except_foldlM_eq_error {σ : Type} {step : σ → α → Except ε σ} {xs : List α} {s : σ}
    {e : ε} :
    xs.foldlM step s = .error e ↔
      ∃ before x after t, xs = before ++ x :: after ∧ before.foldlM step s = .ok t
        ∧ step t x = .error e := by
  induction xs generalizing s with
  | nil => simp [pure, Except.pure]
  | cons x xs ih =>
    rw [List.foldlM_cons, except_bind_eq_error]
    refine ⟨fun h => ?_, fun h => ?_⟩
    · obtain here | ⟨next, stepped, later⟩ := h
      · exact ⟨[], x, xs, s, rfl, rfl, here⟩
      · obtain ⟨before, y, after, t, rfl, reached, there⟩ := ih.1 later
        refine ⟨x :: before, y, after, t, rfl, ?_, there⟩
        rw [List.foldlM_cons, except_bind_eq_ok]
        exact ⟨next, stepped, reached⟩
    · obtain ⟨before, y, after, t, split, reached, there⟩ := h
      cases before with
      | nil =>
        cases split
        cases reached
        exact .inl there
      | cons z before =>
        cases split
        rw [List.foldlM_cons, except_bind_eq_ok] at reached
        obtain ⟨next, stepped, reached⟩ := reached
        exact .inr ⟨next, stepped, ih.2 ⟨before, y, after, t, rfl, reached, there⟩⟩

end Results

inductive LabelOffence (taken : List String) (name : String) : SourceFault → Prop where
  | invalid (unnamed : ¬ IsName name) : LabelOffence taken name (.invalidLabel name)
  | reserved (isName : IsName name) (reserved : name = "nil" ∨ ∃ op : Opcode, op.Spells name) :
      LabelOffence taken name (.reservedLabel name)
  | duplicate (labelName : IsLabelName name) (declared : name ∈ taken) :
      LabelOffence taken name (.duplicateLabel name)

inductive OpeningOffence : Token → SourceFault → Prop where
  | unknown {word : String} (unspelt : ∀ op : Opcode, ¬ op.Spells word) :
      OpeningOffence (.word word) (.unknownInstruction word)
  | text (text : String) : OpeningOffence (.quoted text) (.expectedInstruction (.quoted text))
  | unterminated (text : String) : OpeningOffence (.unterminated text) .unterminatedText

inductive OperandOffence : Token → SourceFault → Prop where
  | label (name : String) : OperandOffence (.label name) (.misplacedLabel name)
  | unterminated (text : String) : OperandOffence (.unterminated text) .unterminatedText

/-- The first offence of a line and the token it is found at, where the names in
`taken` are declared already. -/
inductive LineOffence : List String → List Lexeme → Lexeme → SourceFault → Prop where
  | label {taken : List String} {span : Span} {name : String} {rest : List Lexeme}
      {fault : SourceFault} (offence : LabelOffence taken name fault) :
      LineOffence taken (⟨span, .label name⟩ :: rest) ⟨span, .label name⟩ fault
  | behind {taken : List String} {span : Span} {name : String} {rest : List Lexeme}
      {lexeme : Lexeme} {fault : SourceFault} (labelName : IsLabelName name)
      (fresh : name ∉ taken) (later : LineOffence (name :: taken) rest lexeme fault) :
      LineOffence taken (⟨span, .label name⟩ :: rest) lexeme fault
  | opening {taken : List String} {head : Lexeme} {operands : List Lexeme} {fault : SourceFault}
      (offence : OpeningOffence head.token fault) :
      LineOffence taken (head :: operands) head fault
  | operand {taken : List String} {span : Span} {word : String} {op : Opcode}
      {before after : List Lexeme} {lexeme : Lexeme} {fault : SourceFault}
      (spells : op.Spells word) (kinds : ∀ operand ∈ before, operand.token.isOperand = true)
      (offence : OperandOffence lexeme.token fault) :
      LineOffence taken (⟨span, .word word⟩ :: (before ++ lexeme :: after)) lexeme fault
  | count {taken : List String} {span : Span} {word : String} {op : Opcode}
      {operands : List Lexeme} (spells : op.Spells word)
      (kinds : ∀ operand ∈ operands, operand.token.isOperand = true)
      (wrong : operands.length ≠ op.arity) :
      LineOffence taken (⟨span, .word word⟩ :: operands) ⟨span, .word word⟩
        (.operandCount op operands.length)

/-- Lines without an offence: built as the grammar says, with labels that can be declared. -/
structure Readable (lines : List Line) : Prop where
  forms : ∀ line ∈ lines, line.WellFormed
  names : ∀ name ∈ lines.flatMap Line.labels, IsLabelName name
  distinct : (lines.flatMap Line.labels).Nodup

def Line.operands (line : Line) : List Lexeme :=
  (line.lexemes.dropWhile fun lexeme => lexeme.token.label?.isSome).tail

/-- Quoted texts, and words that are labels of the source, `nil` or literals. -/
def Resolvable (source : String) (lexeme : Lexeme) : Prop :=
  ∀ word, lexeme.token = .word word →
    word ∈ declared source ∨ word = "nil" ∨ ∃ n, IsLiteral word n

/-- The first offence of a source, with its line and its token. -/
inductive FirstOffence (source : String) : Line → Lexeme → SourceFault → Prop where
  | reading {before after : List Line} {line : Line} {lexeme : Lexeme} {fault : SourceFault}
      (split : sourceLines source = before ++ line :: after) (readable : Readable before)
      (offence : LineOffence (before.flatMap Line.labels) line.lexemes lexeme fault) :
      FirstOffence source line lexeme fault
  | resolving {before after : List Line} {line : Line} {front back : List Lexeme}
      {lexeme : Lexeme} {word : String} (readable : Readable (sourceLines source))
      (split : sourceLines source = before ++ line :: after)
      (above : ∀ other ∈ before, ∀ operand ∈ other.operands, Resolvable source operand)
      (operands : line.operands = front ++ lexeme :: back)
      (earlier : ∀ operand ∈ front, Resolvable source operand)
      (found : lexeme.token = .word word) (unresolved : ¬ Resolvable source lexeme) :
      FirstOffence source line lexeme (.unresolvedWord word)

namespace Draft

variable {draft : Draft} {taken : List String}

def Knows (draft : Draft) (taken : List String) : Prop :=
  ∀ name, (draft.address? name).isSome = true ↔ name ∈ taken

theorem Knows.withLabel (knows : draft.Knows taken) (name : String) :
    (draft.withLabel name).Knows (name :: taken) := by
  intro other
  rw [address?_withLabel, List.mem_cons, ← knows other]
  split <;> simp_all

theorem labelFault?_eq_some (knows : draft.Knows taken) {name : String} {fault : SourceFault} :
    draft.labelFault? name = some fault ↔ LabelOffence taken name fault := by
  unfold labelFault?
  by_cases isName : IsName name
  · have identifier := isIdentifier_iff.2 isName
    cases reserved : isReserved name with
    | true =>
      have refused : name = "nil" ∨ ∃ op : Opcode, op.Spells name := by
        by_contra free
        rw [not_or, not_exists] at free
        rw [isReserved_eq_false.2 free] at reserved
        cases reserved
      simp only [identifier, Bool.not_true, Bool.false_eq_true, if_false, if_true,
        Option.some.injEq]
      refine ⟨fun same => same ▸ .reserved isName refused, fun offence => ?_⟩
      cases offence with
      | invalid unnamed => exact absurd isName unnamed
      | reserved => rfl
      | duplicate labelName => exact absurd refused (by simp [labelName.ne_nil, labelName.unspelt])
    | false =>
      obtain ⟨ne_nil, unspelt⟩ := isReserved_eq_false.1 reserved
      simp only [identifier, Bool.not_true, Bool.false_eq_true, if_false, knows name,
        Option.ite_none_right_eq_some, Option.some.injEq]
      refine ⟨fun h => h.2 ▸ .duplicate ⟨isName, ne_nil, unspelt⟩ h.1, fun offence => ?_⟩
      cases offence with
      | invalid unnamed => exact absurd isName unnamed
      | reserved isName refused => exact absurd refused (by simp [ne_nil, unspelt])
      | duplicate labelName declared => exact ⟨declared, rfl⟩
  · have other : isIdentifier name = false := by simpa [← isIdentifier_iff] using isName
    simp only [other, Bool.not_false, if_true, Option.some.injEq]
    refine ⟨fun same => same ▸ .invalid isName, fun offence => ?_⟩
    cases offence with
    | invalid unnamed => rfl
    | reserved named => exact absurd named isName
    | duplicate labelName => exact absurd labelName.isName isName

theorem declare_eq_error (knows : draft.Knows taken) {name : String} {line : Option Nat}
    {column : Span} {e : SourceError} :
    draft.declare name line column = .error e ↔
      ∃ fault, LabelOffence taken name fault ∧ e = ⟨fault, line, column⟩ := by
  simp only [← labelFault?_eq_some knows]
  unfold declare
  cases draft.labelFault? name <;> simp [eq_comm]

theorem Knows.fresh (knows : draft.Knows taken) {name : String} :
    draft.address? name = none ↔ name ∉ taken := by
  rw [← knows name, Bool.not_eq_true, Option.isSome_eq_false_iff, Option.isNone_iff_eq_none]

end Draft

theorem opcode_eq_error {token : Token} {fault : SourceFault}
    (other : ∀ name, token ≠ .label name) :
    token.opcode = .error fault ↔ OpeningOffence token fault := by
  cases token with
  | label name => exact absurd rfl (other name)
  | quoted text =>
    refine ⟨fun h => ?_, fun h => ?_⟩
    · cases h
      exact .text text
    · cases h
      rfl
  | unterminated text =>
    refine ⟨fun h => ?_, fun h => ?_⟩
    · cases h
      exact .unterminated text
    · cases h
      rfl
  | word word =>
    simp only [Token.opcode]
    cases found : Opcode.ofMnemonic? word with
    | none =>
      refine ⟨fun h => ?_, fun h => ?_⟩
      · cases h
        exact .unknown (Opcode.ofMnemonic?_eq_none.1 found)
      · cases h
        rfl
    | some op =>
      refine iff_of_false (by simp) fun offence => ?_
      cases offence with
      | unknown unspelt => exact unspelt op (Opcode.ofMnemonic?_eq_some.1 found)

theorem checkOperand_eq_error {token : Token} {fault : SourceFault} :
    token.checkOperand = .error fault ↔ OperandOffence token fault := by
  refine ⟨fun h => ?_, fun h => ?_⟩
  · cases token with
    | label name =>
      cases h
      exact .label name
    | unterminated text =>
      cases h
      exact .unterminated text
    | word word => cases h
    | quoted text => cases h
  · cases h <;> rfl

theorem Statement.read_eq_error {line : Nat} {lexemes : List Lexeme} {e : SourceError}
    (other : ∀ name : String, lexemes.head?.map Lexeme.token ≠ some (.label name))
    (taken : List String) :
    read line lexemes = .error e ↔
      ∃ lexeme fault, LineOffence taken lexemes lexeme fault
        ∧ e = ⟨fault, some line, lexeme.span⟩ := by
  cases lexemes with
  | nil => exact iff_of_false nofun fun ⟨_, _, offence, _⟩ => nomatch offence
  | cons head operands =>
    have unlabelled : ∀ name, head.token ≠ .label name := by
      intro name same
      exact other name (congrArg some same)
    simp only [read, except_bind_eq_error, except_mapError_eq_error, except_mapError_eq_ok,
      opcode_eq_error unlabelled, opcode_eq_ok, except_forM_eq_error, except_forM_eq_ok,
      checkOperand_eq_error, checkOperand_eq_ok]
    refine ⟨fun h => ?_, fun h => ?_⟩
    · obtain ⟨fault, offence, rfl⟩ | ⟨op, ⟨word, token, spells⟩, h⟩ := h
      · exact ⟨head, fault, .opening offence, rfl⟩
      obtain ⟨span, _⟩ := head
      obtain rfl : _ = Token.word word := token
      obtain ⟨before, lexeme, after, rfl, kinds, fault, offence, rfl⟩ | ⟨-, kinds, counted⟩ := h
      · exact ⟨lexeme, fault, .operand spells kinds offence, rfl⟩
      · split at counted
        · cases counted
        · rename_i wrong
          cases counted
          exact ⟨_, _, .count spells kinds wrong, rfl⟩
    · obtain ⟨lexeme, fault, offence, rfl⟩ := h
      cases offence with
      | label => exact absurd rfl (unlabelled _)
      | behind => exact absurd rfl (unlabelled _)
      | opening offence => exact .inl ⟨fault, offence, rfl⟩
      | @operand _ span word op before after lexeme fault spells kinds offence =>
        exact .inr ⟨op, ⟨word, rfl, spells⟩,
          .inl ⟨before, lexeme, after, rfl, kinds, fault, offence, rfl⟩⟩
      | @count _ span word op operands spells kinds wrong =>
        refine .inr ⟨op, ⟨word, rfl, spells⟩, .inr ⟨(), kinds, ?_⟩⟩
        rw [if_neg wrong]
        rfl

namespace Draft

variable {draft : Draft} {taken : List String}

theorem takeLabels_read_eq_error {line : Nat} {lexemes : List Lexeme} {e : SourceError}
    (knows : draft.Knows taken) :
    (draft.takeLabels line lexemes >>= fun result => Statement.read line result.2) = .error e ↔
      ∃ lexeme fault, LineOffence taken lexemes lexeme fault
        ∧ e = ⟨fault, some line, lexeme.span⟩ := by
  induction lexemes generalizing draft taken with
  | nil =>
    show Statement.read line [] = .error e ↔ _
    exact Statement.read_eq_error (by simp) taken
  | cons head rest ih =>
    obtain ⟨span, token⟩ := head
    cases token with
    | word word =>
      show Statement.read line (⟨span, .word word⟩ :: rest) = .error e ↔ _
      exact Statement.read_eq_error (by simp) taken
    | quoted text =>
      show Statement.read line (⟨span, .quoted text⟩ :: rest) = .error e ↔ _
      exact Statement.read_eq_error (by simp) taken
    | unterminated text =>
      show Statement.read line (⟨span, .unterminated text⟩ :: rest) = .error e ↔ _
      exact Statement.read_eq_error (by simp) taken
    | label name =>
      rw [takeLabels, bind_assoc, except_bind_eq_error, declare_eq_error knows]
      simp only [declare_eq_ok, knows.fresh]
      refine ⟨fun h => ?_, fun h => ?_⟩
      · obtain ⟨fault, offence, rfl⟩ | ⟨next, ⟨⟨labelName, fresh⟩, rfl⟩, later⟩ := h
        · exact ⟨_, fault, .label offence, rfl⟩
        · obtain ⟨lexeme, fault, offence, rfl⟩ := (ih (knows.withLabel name)).1 later
          exact ⟨lexeme, fault, .behind labelName fresh offence, rfl⟩
      · obtain ⟨lexeme, fault, offence, rfl⟩ := h
        cases offence with
        | label offence => exact .inl ⟨fault, offence, rfl⟩
        | behind labelName fresh later =>
          exact .inr ⟨_, ⟨⟨labelName, fresh⟩, rfl⟩,
            (ih (knows.withLabel name)).2 ⟨lexeme, fault, later, rfl⟩⟩
        | opening offence => cases offence

theorem addLine_eq_error {line : Line} {e : SourceError} (knows : draft.Knows taken) :
    draft.addLine line = .error e ↔
      ∃ lexeme fault, LineOffence taken line.lexemes lexeme fault
        ∧ e = ⟨fault, some line.number, lexeme.span⟩ := by
  rw [← takeLabels_read_eq_error knows, addLine, except_bind_eq_error, except_bind_eq_error]
  refine or_congr_right (exists_congr fun result => and_congr_right fun _ => ?_)
  -- what is done with the statement does not fail
  rw [except_bind_eq_error, or_iff_left]
  rintro ⟨found, -, failed⟩
  cases found <;> cases failed

theorem knows_foldl (lines : List Line) :
    (lines.foldl extend .empty).Knows (lines.flatMap Line.labels) := by
  intro name
  rw [isSome_address?_foldl]
  exact or_iff_left nofun

end Draft

theorem readable_iff {lines : List Line} :
    Readable lines ↔
      (∀ line ∈ lines, line.WellFormed) ∧ Draft.empty.Admits (lines.flatMap Line.labels) :=
  ⟨fun ⟨forms, names, distinct⟩ => ⟨forms, names, fun _ _ => rfl, distinct⟩,
    fun ⟨forms, names, _, distinct⟩ => ⟨forms, names, distinct⟩⟩

theorem ofLines_eq_ok {lines : List Line} {draft : Draft} :
    Draft.ofLines lines = .ok draft ↔ Readable lines ∧ draft = lines.foldl Draft.extend .empty := by
  rw [Draft.ofLines, Draft.foldlM_addLine_eq_ok, readable_iff, and_assoc]

theorem ofLines_eq_error {lines : List Line} {e : SourceError} :
    Draft.ofLines lines = .error e ↔
      ∃ before line after lexeme fault, lines = before ++ line :: after ∧ Readable before
        ∧ LineOffence (before.flatMap Line.labels) line.lexemes lexeme fault
        ∧ e = ⟨fault, some line.number, lexeme.span⟩ := by
  rw [Draft.ofLines, except_foldlM_eq_error]
  refine ⟨fun h => ?_, fun h => ?_⟩
  · obtain ⟨before, line, after, draft, split, read, failed⟩ := h
    obtain ⟨readable, rfl⟩ := ofLines_eq_ok.1 read
    obtain ⟨lexeme, fault, offence, rfl⟩ :=
      (Draft.addLine_eq_error (Draft.knows_foldl before)).1 failed
    exact ⟨before, line, after, lexeme, fault, split, readable, offence, rfl⟩
  · obtain ⟨before, line, after, lexeme, fault, split, readable, offence, rfl⟩ := h
    exact ⟨before, line, after, _, split, ofLines_eq_ok.2 ⟨readable, rfl⟩,
      (Draft.addLine_eq_error (Draft.knows_foldl before)).2 ⟨lexeme, fault, offence, rfl⟩⟩

variable {source : String}

theorem LineForm.operands_eq {line : Line} {names : List String}
    {statement : Option (Opcode × List Lexeme)} (form : LineForm line.lexemes names statement) :
    line.operands = statement.elim [] Prod.snd := by
  unfold Line.operands
  generalize line.lexemes = lexemes at form
  induction form with
  | blank => rfl
  | statement spells count kinds => rfl
  | label form ih => exact ih

theorem Line.WellFormed.statement_cases {line : Line} (form : line.WellFormed) :
    line.statement? = none ∧ line.operands = []
      ∨ ∃ op, line.statement? = some ⟨some line.number, op, line.operands⟩
        ∧ ∀ operand ∈ line.operands, operand.token.isOperand = true := by
  obtain ⟨body, form, same⟩ := form.form
  rw [same, form.operands_eq]
  cases body with
  | none => exact .inl ⟨rfl, rfl⟩
  | some body => exact .inr ⟨body.1, rfl, form.operands.2⟩

theorem resolve_eq_error {symbols : Symbols} {token : Token} {fault : SourceFault}
    (kind : token.isOperand = true) :
    token.resolve symbols = .error fault ↔
      ∃ word, token = .word word ∧ (¬ ∃ value, token.resolve symbols = .ok value)
        ∧ fault = .unresolvedWord word := by
  cases token with
  | label name => cases kind
  | unterminated text => cases kind
  | quoted text => exact iff_of_false nofun fun ⟨_, token, _⟩ => nomatch token
  | word word =>
    have only : ∀ other, (Token.word word).resolve symbols = .error other →
        other = .unresolvedWord word := by
      intro other refused
      unfold Token.resolve at refused
      grind
    refine ⟨fun refused => ⟨word, rfl, by simp [refused], only fault refused⟩, fun h => ?_⟩
    obtain ⟨_, same, unresolved, rfl⟩ := h
    cases same
    cases result : (Token.word word).resolve symbols with
    | ok value => exact absurd ⟨value, result⟩ unresolved
    | error other => rw [only other result]

theorem exists_resolve_iff (readable : Readable (sourceLines source)) {lexeme : Lexeme}
    (kind : lexeme.token.isOperand = true) :
    (∃ value, lexeme.token.resolve (draftOf source).symbols = .ok value) ↔
      Resolvable source lexeme := by
  unfold Resolvable
  cases token : lexeme.token with
  | label name => simp [token, Token.isOperand] at kind
  | unterminated text => simp [token, Token.isOperand] at kind
  | quoted text => exact iff_of_true ⟨_, rfl⟩ (by simp)
  | word word =>
    rw [exists_resolve_word_iff (readable_iff.1 readable).2 word]
    simp [declared]

theorem Statement.link_eq_error {symbols : Symbols} {statement : Statement} {e : SourceError} :
    statement.link symbols = .error e ↔
      ∃ front lexeme back, statement.operands = front ++ lexeme :: back
        ∧ (∀ operand ∈ front, ∃ value, operand.token.resolve symbols = .ok value)
        ∧ ∃ fault, lexeme.token.resolve symbols = .error fault
          ∧ e = ⟨fault, statement.line, lexeme.span⟩ := by
  rw [link, except_bind_eq_error, or_iff_left (by simp [pure, Except.pure]), except_mapM_eq_error]
  simp only [resolveOperand, except_mapError_eq_ok, except_mapError_eq_error]

theorem link_draftOf_eq_error {e : SourceError} :
    (draftOf source).link = .error e ↔
      ∃ before line after, sourceLines source = before ++ line :: after
        ∧ (∀ other ∈ before, ∀ statement, other.statement? = some statement →
          ∃ instruction, statement.link (draftOf source).symbols = .ok instruction)
        ∧ ∃ statement, line.statement? = some statement
          ∧ statement.link (draftOf source).symbols = .error e := by
  have statements : (draftOf source).statements.toList
      = (sourceLines source).filterMap Line.statement? := Draft.statements_foldl _ _
  rw [Draft.link, except_bind_eq_error, or_iff_left (by simp [pure, Except.pure]), statements,
    except_mapM_filterMap_eq_error]

section Linking

variable {line : Line} (readable : Readable (sourceLines source)) (mem : line ∈ sourceLines source)
include readable mem

theorem links_line_iff :
    (∀ statement, line.statement? = some statement →
        ∃ instruction, statement.link (draftOf source).symbols = .ok instruction) ↔
      ∀ operand ∈ line.operands, Resolvable source operand := by
  obtain ⟨blank, empty⟩ | ⟨op, found, kinds⟩ := (readable.forms line mem).statement_cases
  · simp [blank, empty]
  · simp only [found, Option.some.injEq, forall_eq', Statement.exists_link_iff]
    exact forall₂_congr fun operand inside => exists_resolve_iff readable (kinds operand inside)

theorem link_line_eq_error {e : SourceError} :
    (∃ statement, line.statement? = some statement
        ∧ statement.link (draftOf source).symbols = .error e) ↔
      ∃ front lexeme back word, line.operands = front ++ lexeme :: back
        ∧ (∀ operand ∈ front, Resolvable source operand)
        ∧ lexeme.token = .word word ∧ ¬ Resolvable source lexeme
        ∧ e = ⟨.unresolvedWord word, some line.number, lexeme.span⟩ := by
  obtain ⟨blank, empty⟩ | ⟨op, found, kinds⟩ := (readable.forms line mem).statement_cases
  · simp [blank, empty]
  simp only [found, Option.some.injEq, exists_eq_left', Statement.link_eq_error]
  refine exists_congr fun front => exists_congr fun lexeme => exists_congr fun back => ?_
  rw [exists_and_left]
  refine and_congr_right fun parts => ?_
  rw [parts] at kinds
  have here : lexeme.token.isOperand = true := kinds lexeme (by simp)
  have resolved : ∀ operand ∈ front, (∃ value,
      operand.token.resolve (draftOf source).symbols = .ok value) ↔ Resolvable source operand :=
    fun operand inside => exists_resolve_iff readable (kinds operand (by simp [inside]))
  rw [forall₂_congr resolved, exists_and_left]
  refine and_congr_right fun _ => ?_
  simp only [resolve_eq_error here, exists_resolve_iff readable here]
  refine ⟨fun h => ?_, fun h => ?_⟩
  · obtain ⟨_, ⟨word, token, unresolved, rfl⟩, rfl⟩ := h
    exact ⟨word, token, unresolved, rfl⟩
  · obtain ⟨word, token, unresolved, rfl⟩ := h
    exact ⟨_, ⟨word, token, unresolved, rfl⟩, rfl⟩

end Linking

theorem assemble_eq_error {e : SourceError} :
    assemble source = .error e ↔
      ∃ line lexeme fault, FirstOffence source line lexeme fault
        ∧ e = ⟨fault, some line.number, lexeme.span⟩ := by
  rw [assemble, except_bind_eq_error]
  simp only [ofLines_eq_ok, ofLines_eq_error]
  refine ⟨fun h => ?_, fun h => ?_⟩
  · obtain ⟨before, line, after, lexeme, fault, split, readable, offence, rfl⟩
      | ⟨_, ⟨readable, rfl⟩, failed⟩ := h
    · exact ⟨line, lexeme, fault, .reading split readable offence, rfl⟩
    · obtain ⟨before, line, after, split, above, failed⟩ := link_draftOf_eq_error.1 failed
      have mem : ∀ other ∈ before ++ line :: after, other ∈ sourceLines source :=
        fun other inside => split ▸ inside
      obtain ⟨front, lexeme, back, word, parts, earlier, token, unresolved, rfl⟩ :=
        (link_line_eq_error readable (mem line (by simp))).1 failed
      refine ⟨line, lexeme, _, .resolving readable split ?_ parts earlier token unresolved, rfl⟩
      exact fun other inside =>
        (links_line_iff readable (mem other (by simp [inside]))).1 (above other inside)
  · obtain ⟨line, lexeme, fault, offence, rfl⟩ := h
    cases offence with
    | @reading before after _ _ _ split readable offence =>
      exact .inl ⟨before, line, after, lexeme, fault, split, readable, offence, rfl⟩
    | @resolving before after _ front back _ word readable split above parts earlier token
        unresolved =>
      have mem : ∀ other ∈ before ++ line :: after, other ∈ sourceLines source :=
        fun other inside => split ▸ inside
      refine .inr ⟨_, ⟨readable, rfl⟩, link_draftOf_eq_error.2 ⟨before, line, after, split, ?_, ?_⟩⟩
      · exact fun other inside =>
          (links_line_iff readable (mem other (by simp [inside]))).2 (above other inside)
      · exact (link_line_eq_error readable (mem line (by simp))).2
          ⟨front, lexeme, back, word, parts, earlier, token, unresolved, rfl⟩

theorem LineOffence.blames {taken : List String} {lexemes : List Lexeme} {lexeme : Lexeme}
    {fault : SourceFault} (offence : LineOffence taken lexemes lexeme fault) :
    lexeme ∈ lexemes ∧ ∀ token, fault ≠ .invalidOperand token := by
  induction offence with
  | label offence => exact ⟨List.mem_cons_self, fun token => by cases offence <;> nofun⟩
  | behind labelName fresh later ih => exact ⟨List.mem_cons_of_mem _ ih.1, ih.2⟩
  | @opening _ head _ _ offence =>
    refine ⟨List.mem_cons_self, fun token => ?_⟩
    obtain ⟨span, found⟩ := head
    cases offence <;> nofun
  | @operand _ _ _ _ _ _ lexeme _ spells kinds offence =>
    refine ⟨by simp, fun token => ?_⟩
    obtain ⟨span, found⟩ := lexeme
    cases offence <;> nofun
  | count spells kinds wrong => exact ⟨List.mem_cons_self, nofun⟩

theorem Line.mem_lexemes_of_operands {line : Line} {lexeme : Lexeme}
    (mem : lexeme ∈ line.operands) : lexeme ∈ line.lexemes :=
  (List.dropWhile_sublist _).subset (List.mem_of_mem_tail mem)

theorem FirstOffence.blames {line : Line} {lexeme : Lexeme} {fault : SourceFault}
    (offence : FirstOffence source line lexeme fault) :
    line ∈ sourceLines source ∧ lexeme ∈ line.lexemes ∧ ∀ token, fault ≠ .invalidOperand token := by
  cases offence with
  | reading split readable offence => exact ⟨split ▸ by simp, offence.blames⟩
  | resolving readable split above operands =>
    exact ⟨split ▸ by simp, Line.mem_lexemes_of_operands (operands ▸ by simp), nofun⟩

theorem text_of_mem_readLines {first : Nat} {texts : List (List Char)} {line : Line}
    (mem : line ∈ readLines first texts) :
    first ≤ line.number
      ∧ ∃ text, texts[line.number - first]? = some text ∧ line = .read line.number text := by
  induction texts generalizing first with
  | nil => cases mem
  | cons text texts ih =>
    rcases List.mem_cons.1 mem with rfl | later
    · exact ⟨Nat.le_refl first, text, by simp [Line.read], rfl⟩
    · obtain ⟨bound, found, here, same⟩ := ih later
      refine ⟨by omega, found, ?_, same⟩
      rw [show line.number - first = line.number - (first + 1) + 1 by omega]
      exact here

theorem isComment_of_mem_lex {text : List Char} {lexeme : Lexeme} (mem : lexeme ∈ lex text) :
    isComment text = false := by
  by_contra comment
  rw [lex_of_isComment (by simpa using comment)] at mem
  cases mem

/-- The assembler fails exactly where a source has a first offence, and reports
that one: as a code error without an address, on a line that is there, at the
columns of a token of that line. -/
theorem assemble_reports_the_first_offence (source : String) (error : SourceError) :
    (assemble source = .error error ↔
        ∃ line lexeme fault, FirstOffence source line lexeme fault
          ∧ error = ⟨fault, some line.number, lexeme.span⟩)
      ∧ (assemble source = .error error →
        error.diagnostic.errorClass = .code ∧ error.diagnostic.address = none
          ∧ error.diagnostic.text = error.fault.message
          ∧ (∀ token, error.fault ≠ .invalidOperand token)
          ∧ ∃ number text lexeme, FirstOffence source (.read number text) lexeme error.fault
            ∧ error.diagnostic.line = some number ∧ 1 ≤ number
            ∧ (lineTexts source.toList)[number - 1]? = some text
            ∧ lexeme ∈ lex text ∧ error.diagnostic.column = lexeme.span
            ∧ lexeme.span.start < lexeme.span.stop ∧ lexeme.span.stop ≤ text.length
            ∧ String.ofList (lexeme.span.slice text) = lexeme.token.text) := by
  refine ⟨assemble_eq_error, fun failed => ?_⟩
  obtain ⟨line, lexeme, fault, offence, rfl⟩ := assemble_eq_error.1 failed
  obtain ⟨mem, inside, valid⟩ := offence.blames
  obtain ⟨first, text, here, same⟩ := text_of_mem_readLines (List.mem_of_mem_filter mem)
  rw [same] at inside offence
  have lossless := (lexed_lex (isComment_of_mem_lex inside)).lossless
  obtain ⟨nonempty, within⟩ := lossless.within lexeme inside
  exact ⟨rfl, rfl, rfl, valid, line.number, text, lexeme, offence, rfl, first, here, inside, rfl,
    nonempty, within, lossless.spelt lexeme inside⟩

/-- The word on the first line stands for nothing, but the label among the
operands of the last line is found before operands are resolved. -/
def lateOffence : String :=
  "start: goto nowhere\n# no statement\n\tprint, \"é\" again:"

theorem assemble_reports_the_first_offence_of_lateOffence :
    assemble lateOffence = .error ⟨.misplacedLabel "again", some 3, ⟨12, 18⟩⟩
      ∧ (SourceError.diagnostic ⟨.misplacedLabel "again", some 3, ⟨12, 18⟩⟩).render =
        "CodeError: unexpected label declaration 'again:' in line 3 (12..18)"
      ∧ ∃ text lexeme, FirstOffence lateOffence (.read 3 text) lexeme (.misplacedLabel "again")
        ∧ (lineTexts lateOffence.toList)[2]? = some text ∧ lexeme ∈ lex text
        ∧ lexeme.span = ⟨12, 18⟩
        ∧ String.ofList (lexeme.span.slice text) = lexeme.token.text := by
  have failed : assemble lateOffence = .error ⟨.misplacedLabel "again", some 3, ⟨12, 18⟩⟩ := by
    decide +kernel
  obtain ⟨-, -, -, -, number, text, lexeme, offence, line, -, here, inside, column, -, -, spelt⟩ :=
    (assemble_reports_the_first_offence lateOffence _).2 failed
  cases line
  exact ⟨failed, by decide +kernel, text, lexeme, offence, here, inside, column.symm, spelt⟩

end StackMachine
