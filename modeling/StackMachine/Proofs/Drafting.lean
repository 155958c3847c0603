import StackMachine.Proofs.Grammar

/-!
How lines become a draft, and a draft a program. Reading a line succeeds exactly
when the line is built as the grammar says and its labels can be declared, and
then it adds the labels and the statement of the line (`Draft.extend`). The
labels of a line all get the address of the statement that comes next.
-/

namespace StackMachine

section Results

variable {ε ε' α β : Type}

theorem except_bind_eq_ok {x : Except ε α} {f : α → Except ε β} {b : β} :
    (x >>= f) = .ok b ↔ ∃ a, x = .ok a ∧ f a = .ok b := by
  cases x <;> simp [bind, Except.bind]

theorem except_mapError_eq_ok {x : Except ε α} {f : ε → ε'} {a : α} :
    x.mapError f = .ok a ↔ x = .ok a := by
  cases x <;> simp [Except.mapError]

theorem except_mapM_eq_ok {f : α → Except ε β} {xs : List α} {ys : List β} :
    xs.mapM f = .ok ys ↔ List.Forall₂ (fun x y => f x = .ok y) xs ys := by
  induction xs generalizing ys with
  | nil => simp [pure, Except.pure, eq_comm]
  | cons x xs ih =>
    rw [List.mapM_cons, List.forall₂_cons_left_iff]
    simp only [except_bind_eq_ok, ih]
    refine ⟨fun h => ?_, fun h => ?_⟩
    · obtain ⟨y, first, rest, later, same⟩ := h
      cases same
      exact ⟨y, rest, first, later, rfl⟩
    · obtain ⟨y, rest, first, later, rfl⟩ := h
      exact ⟨y, first, rest, later, rfl⟩

theorem except_forM_eq_ok {f : α → Except ε Unit} {xs : List α} {u : Unit} :
    xs.forM f = .ok u ↔ ∀ x ∈ xs, f x = .ok () := by
  induction xs with
  | nil => simp [pure, Except.pure]
  | cons x xs ih =>
    show (f x >>= fun _ => xs.forM f) = .ok u ↔ _
    rw [except_bind_eq_ok, ih, List.forall_mem_cons]
    exact ⟨fun ⟨_, first, rest⟩ => ⟨first, rest⟩, fun ⟨first, rest⟩ => ⟨(), first, rest⟩⟩

end Results

theorem opcode_eq_ok {token : Token} {op : Opcode} :
    token.opcode = .ok op ↔ ∃ word, token = .word word ∧ op.Spells word := by
  cases token with
  | word word =>
    cases found : Opcode.ofMnemonic? word <;>
      simp [Token.opcode, found, ← Opcode.ofMnemonic?_eq_some]
  | _ => simp [Token.opcode]

theorem checkOperand_eq_ok {token : Token} :
    token.checkOperand = .ok () ↔ token.isOperand = true := by
  cases token <;> simp [Token.checkOperand, Token.isOperand]

namespace Statement

def onLine (line : Nat) (body : Opcode × List Lexeme) : Statement :=
  ⟨some line, body.1, body.2⟩

theorem read_eq_ok {line : Nat} {lexemes : List Lexeme} {found : Option Statement} :
    read line lexemes = .ok found ↔
      ∃ statement, LineForm lexemes [] statement ∧ found = statement.map (onLine line) := by
  cases lexemes with
  | nil =>
    refine ⟨fun h => ?_, fun h => ?_⟩
    · cases h
      exact ⟨none, .blank, rfl⟩
    · obtain ⟨statement, form, rfl⟩ := h
      cases form
      rfl
  | cons head operands =>
    simp only [read, except_bind_eq_ok, except_mapError_eq_ok, opcode_eq_ok, except_forM_eq_ok,
      checkOperand_eq_ok]
    refine ⟨fun h => ?_, fun h => ?_⟩
    · obtain ⟨op, ⟨word, token, spells⟩, -, kinds, counted⟩ := h
      split at counted
      · rename_i count
        cases counted
        obtain ⟨span, _⟩ := head
        obtain rfl : _ = Token.word word := token
        exact ⟨some (op, operands), .statement spells count kinds, rfl⟩
      · cases counted
    · obtain ⟨statement, form, rfl⟩ := h
      cases form with
      | @statement span word op operands spells count kinds =>
        refine ⟨op, ⟨word, rfl, spells⟩, (), kinds, ?_⟩
        rw [if_pos count]
        rfl

def ofLexemes? (line : Nat) : List Lexeme → Option Statement
  | ⟨_, .label _⟩ :: rest => ofLexemes? line rest
  | ⟨_, .word word⟩ :: operands => (Opcode.ofMnemonic? word).map fun op => onLine line (op, operands)
  | _ => none

theorem ofLexemes?_of_form {line : Nat} {lexemes : List Lexeme} {names : List String}
    {statement : Option (Opcode × List Lexeme)} (form : LineForm lexemes names statement) :
    ofLexemes? line lexemes = statement.map (onLine line) := by
  induction form with
  | blank => rfl
  | statement spells count kinds =>
    rw [ofLexemes?, Opcode.ofMnemonic?_eq_some.2 spells]
    rfl
  | label form ih => exact ih

end Statement

namespace Line

def WellFormed (line : Line) : Prop :=
  ∃ names statement, LineForm line.lexemes names statement

def statement? (line : Line) : Option Statement :=
  Statement.ofLexemes? line.number line.lexemes

theorem WellFormed.form {line : Line} (form : line.WellFormed) :
    ∃ statement, LineForm line.lexemes line.labels statement
      ∧ line.statement? = statement.map (Statement.onLine line.number) := by
  obtain ⟨names, statement, form⟩ := form
  obtain rfl : line.labels = names := form.labels
  exact ⟨statement, form, Statement.ofLexemes?_of_form form⟩

theorem WellFormed.isSome_statement? {line : Line} (form : line.WellFormed) :
    line.statement?.isSome = line.hasStatement := by
  obtain ⟨statement, form, same⟩ := form.form
  rw [same, Option.isSome_map, form.isSome_statement]
  rfl

theorem length_filterMap_statement? {lines : List Line} (forms : ∀ line ∈ lines, line.WellFormed) :
    (lines.filterMap statement?).length = lines.countP hasStatement := by
  rw [List.length_filterMap_eq_countP]
  exact List.countP_congr fun line mem => by rw [(forms line mem).isSome_statement?]

end Line

namespace Draft

variable {draft next : Draft}

def withLabel (draft : Draft) (name : String) : Draft :=
  { draft with symbols := draft.symbols.insert name draft.nextAddress }

theorem address?_withLabel (draft : Draft) (name other : String) :
    (draft.withLabel name).address? other =
      if other = name then some draft.nextAddress else draft.address? other :=
  draft.symbols.find?_insert name draft.nextAddress other

theorem declare_eq_ok {name : String} {line : Option Nat} {column : Span} :
    draft.declare name line column = .ok next ↔
      (IsLabelName name ∧ draft.address? name = none) ∧ next = draft.withLabel name := by
  have fault : draft.labelFault? name = none ↔ IsLabelName name ∧ draft.address? name = none := by
    unfold labelFault?
    split
    · rename_i other
      have unnamed : ¬ IsName name := by simpa [← isIdentifier_iff] using other
      exact iff_of_false (by simp) fun allowed => unnamed allowed.1.isName
    · rename_i identifier
      have isName : IsName name := by simpa [← isIdentifier_iff] using identifier
      split
      · rename_i reserved
        refine iff_of_false (by simp) fun allowed => ?_
        have free := isReserved_eq_false.2 ⟨allowed.1.ne_nil, allowed.1.unspelt⟩
        rw [free] at reserved
        cases reserved
      · rename_i free
        obtain ⟨ne_nil, unspelt⟩ := isReserved_eq_false.1 (Bool.eq_false_iff.2 free)
        cases found : draft.address? name with
        | none => simp [IsLabelName.mk isName ne_nil unspelt]
        | some address => simp
  unfold declare
  rw [← fault]
  cases draft.labelFault? name <;> simp [withLabel, eq_comm]

/-- Names that can be declared one after the other. -/
structure Admits (draft : Draft) (names : List String) : Prop where
  labelNames : ∀ name ∈ names, IsLabelName name
  fresh : ∀ name ∈ names, draft.address? name = none
  distinct : names.Nodup

theorem admits_nil (draft : Draft) : draft.Admits [] :=
  ⟨by simp, by simp, List.nodup_nil⟩

theorem admits_cons {name : String} {names : List String} :
    draft.Admits (name :: names) ↔
      (IsLabelName name ∧ draft.address? name = none) ∧ (draft.withLabel name).Admits names := by
  refine ⟨fun h => ?_, fun h => ?_⟩
  · obtain ⟨labelNames, fresh, distinct⟩ := h
    obtain ⟨new, distinct⟩ := List.nodup_cons.1 distinct
    refine ⟨⟨labelNames name List.mem_cons_self, fresh name List.mem_cons_self⟩,
      fun other mem => labelNames other (List.mem_cons_of_mem name mem), fun other mem => ?_,
      distinct⟩
    rw [address?_withLabel, if_neg (ne_of_mem_of_not_mem mem new)]
    exact fresh other (List.mem_cons_of_mem name mem)
  · obtain ⟨⟨labelName, free⟩, labelNames, fresh, distinct⟩ := h
    have other : ∀ other ∈ names, other ≠ name ∧ draft.address? other = none := by
      intro other mem
      have free := fresh other mem
      rw [address?_withLabel] at free
      split at free
      · cases free
      · exact ⟨by assumption, free⟩
    refine ⟨List.forall_mem_cons.2 ⟨labelName, labelNames⟩,
      List.forall_mem_cons.2 ⟨free, fun name mem => (other name mem).2⟩,
      List.nodup_cons.2 ⟨fun mem => (other name mem).1 rfl, distinct⟩⟩

def withLabels (draft : Draft) (names : List String) : Draft :=
  names.foldl withLabel draft

theorem statements_withLabels (draft : Draft) (names : List String) :
    (draft.withLabels names).statements = draft.statements := by
  induction names generalizing draft with
  | nil => rfl
  | cons name names ih => exact ih (draft.withLabel name)

theorem address?_withLabels (draft : Draft) (names : List String) (other : String) :
    (draft.withLabels names).address? other =
      if other ∈ names then some draft.nextAddress else draft.address? other := by
  induction names generalizing draft with
  | nil => simp [withLabels]
  | cons name names ih =>
    have later := ih (draft.withLabel name)
    rw [address?_withLabel] at later
    rw [withLabels, List.foldl_cons]
    refine later.trans ?_
    by_cases mem : other ∈ names
    · simp only [mem, if_true, List.mem_cons, or_true]
      rfl
    · simp only [mem, if_false, List.mem_cons, or_false]

def addAll (draft : Draft) (found : Option Statement) : Draft :=
  found.elim draft draft.add

def extend (draft : Draft) (line : Line) : Draft :=
  (draft.withLabels line.labels).addAll line.statement?

theorem address?_addAll (draft : Draft) (found : Option Statement) (name : String) :
    (draft.addAll found).address? name = draft.address? name := by
  cases found <;> rfl

theorem address?_extend (draft : Draft) (line : Line) (name : String) :
    (draft.extend line).address? name =
      if name ∈ line.labels then some draft.nextAddress else draft.address? name := by
  rw [extend, address?_addAll, address?_withLabels]

theorem statements_extend (draft : Draft) (line : Line) :
    (draft.extend line).statements.toList = draft.statements.toList ++ line.statement?.toList := by
  unfold extend
  cases line.statement? with
  | none => simp [addAll, statements_withLabels]
  | some statement => simp [addAll, add, statements_withLabels]

theorem takeLabels_read_of_other {line : Nat} {lexemes : List Lexeme}
    (kept : draft.takeLabels line lexemes = .ok (draft, lexemes))
    (other : ∀ name : String, lexemes.head?.map Lexeme.token ≠ some (.label name)) :
    (∃ labelled rest found, draft.takeLabels line lexemes = .ok (labelled, rest)
        ∧ Statement.read line rest = .ok found ∧ next = labelled.addAll found) ↔
      ∃ names statement, LineForm lexemes names statement ∧ draft.Admits names
        ∧ next = (draft.withLabels names).addAll (statement.map (Statement.onLine line)) := by
  refine ⟨fun h => ?_, fun h => ?_⟩
  · obtain ⟨labelled, rest, found, taken, read, rfl⟩ := h
    cases kept.symm.trans taken
    obtain ⟨statement, form, rfl⟩ := Statement.read_eq_ok.1 read
    exact ⟨[], statement, form, draft.admits_nil, rfl⟩
  · obtain ⟨names, statement, form, -, rfl⟩ := h
    obtain rfl : names = [] := by
      cases form with
      | blank => rfl
      | statement spells count kinds => rfl
      | label form => exact absurd rfl (other _)
    exact ⟨draft, lexemes, _, kept, Statement.read_eq_ok.2 ⟨statement, form, rfl⟩, rfl⟩

theorem takeLabels_read {line : Nat} {lexemes : List Lexeme} :
    (∃ labelled rest found, draft.takeLabels line lexemes = .ok (labelled, rest)
        ∧ Statement.read line rest = .ok found ∧ next = labelled.addAll found) ↔
      ∃ names statement, LineForm lexemes names statement ∧ draft.Admits names
        ∧ next = (draft.withLabels names).addAll (statement.map (Statement.onLine line)) := by
  induction lexemes generalizing draft with
  | nil =>
    refine ⟨fun h => ?_, fun h => ?_⟩
    · obtain ⟨labelled, rest, found, taken, read, rfl⟩ := h
      cases taken
      cases read
      exact ⟨[], none, .blank, draft.admits_nil, rfl⟩
    · obtain ⟨names, statement, form, -, rfl⟩ := h
      cases form
      exact ⟨draft, [], none, rfl, rfl, rfl⟩
  | cons head rest ih =>
    obtain ⟨span, token⟩ := head
    cases token with
    | label name =>
      simp only [takeLabels, except_bind_eq_ok, declare_eq_ok]
      refine ⟨fun h => ?_, fun h => ?_⟩
      · obtain ⟨labelled, later, found, ⟨named, ⟨free, rfl⟩, taken⟩, read, rfl⟩ := h
        obtain ⟨names, statement, form, admits, same⟩ :=
          ih.1 ⟨labelled, later, found, taken, read, rfl⟩
        exact ⟨name :: names, statement, .label form, admits_cons.2 ⟨free, admits⟩, same⟩
      · obtain ⟨names, statement, form, admits, rfl⟩ := h
        cases form with
        | @label span name rest names statement form =>
          obtain ⟨free, admits⟩ := admits_cons.1 admits
          obtain ⟨labelled, later, found, taken, read, same⟩ :=
            ih.2 ⟨names, statement, form, admits, rfl⟩
          exact ⟨labelled, later, found, ⟨draft.withLabel name, ⟨free, rfl⟩, taken⟩, read, same⟩
    | word word => exact takeLabels_read_of_other rfl fun _ => nofun
    | quoted text => exact takeLabels_read_of_other rfl fun _ => nofun
    | unterminated text => exact takeLabels_read_of_other rfl fun _ => nofun

theorem addLine_eq_ok {line : Line} :
    draft.addLine line = .ok next ↔
      line.WellFormed ∧ draft.Admits line.labels ∧ next = draft.extend line := by
  have read : draft.addLine line = .ok next ↔
      ∃ labelled rest found, draft.takeLabels line.number line.lexemes = .ok (labelled, rest)
        ∧ Statement.read line.number rest = .ok found ∧ next = labelled.addAll found := by
    simp only [addLine, except_bind_eq_ok, Prod.exists]
    refine exists_congr fun labelled => exists_congr fun rest => ?_
    refine ⟨fun h => ?_, fun h => ?_⟩
    · obtain ⟨taken, found, read, done⟩ := h
      cases found <;> cases done <;> exact ⟨_, taken, read, rfl⟩
    · obtain ⟨found, taken, read, rfl⟩ := h
      exact ⟨taken, found, read, by cases found <;> rfl⟩
  rw [read, takeLabels_read]
  refine ⟨fun h => ?_, fun h => ?_⟩
  · obtain ⟨names, statement, form, admits, rfl⟩ := h
    obtain rfl : line.labels = names := form.labels
    rw [extend, Line.statement?, Statement.ofLexemes?_of_form form]
    exact ⟨⟨_, statement, form⟩, admits, rfl⟩
  · obtain ⟨form, admits, rfl⟩ := h
    obtain ⟨statement, form, same⟩ := form.form
    rw [extend, same]
    exact ⟨line.labels, statement, form, admits, rfl⟩

theorem admits_append {line : Line} {names : List String} :
    draft.Admits (line.labels ++ names) ↔
      draft.Admits line.labels ∧ (draft.extend line).Admits names := by
  refine ⟨fun h => ?_, fun h => ?_⟩
  · obtain ⟨labelNames, fresh, distinct⟩ := h
    obtain ⟨first, second, apart⟩ := List.nodup_append.1 distinct
    refine ⟨⟨fun name mem => labelNames name (List.mem_append_left _ mem),
        fun name mem => fresh name (List.mem_append_left _ mem), first⟩,
      fun name mem => labelNames name (List.mem_append_right _ mem), fun name mem => ?_, second⟩
    have new : name ∉ line.labels := fun old => apart name old name mem rfl
    rw [address?_extend, if_neg new]
    exact fresh name (List.mem_append_right _ mem)
  · obtain ⟨⟨labelNames, fresh, first⟩, labelNames', fresh', second⟩ := h
    have later : ∀ name ∈ names, name ∉ line.labels ∧ draft.address? name = none := by
      intro name mem
      have free := fresh' name mem
      rw [address?_extend] at free
      split at free
      · cases free
      · exact ⟨by assumption, free⟩
    refine ⟨fun name mem => ?_, fun name mem => ?_, List.nodup_append.2 ⟨first, second, ?_⟩⟩
    · exact (List.mem_append.1 mem).elim (labelNames name) (labelNames' name)
    · exact (List.mem_append.1 mem).elim (fresh name) fun mem => (later name mem).2
    · intro name mem other mem' same
      exact (later other mem').1 (same ▸ mem)

theorem foldlM_addLine_eq_ok {lines : List Line} :
    lines.foldlM addLine draft = .ok next ↔
      (∀ line ∈ lines, line.WellFormed) ∧ draft.Admits (lines.flatMap Line.labels)
        ∧ next = lines.foldl extend draft := by
  induction lines generalizing draft with
  | nil => simp [pure, Except.pure, draft.admits_nil, eq_comm]
  | cons line lines ih =>
    rw [List.foldlM_cons, except_bind_eq_ok, List.forall_mem_cons, List.flatMap_cons,
      admits_append, List.foldl_cons]
    refine ⟨fun h => ?_, fun h => ?_⟩
    · obtain ⟨middle, added, rest⟩ := h
      obtain ⟨form, admits, rfl⟩ := addLine_eq_ok.1 added
      obtain ⟨forms, later, rfl⟩ := ih.1 rest
      exact ⟨⟨form, forms⟩, ⟨admits, later⟩, rfl⟩
    · obtain ⟨⟨form, forms⟩, ⟨admits, later⟩, rfl⟩ := h
      exact ⟨_, addLine_eq_ok.2 ⟨form, admits, rfl⟩, ih.2 ⟨forms, later, rfl⟩⟩

theorem statements_foldl (lines : List Line) (draft : Draft) :
    (lines.foldl extend draft).statements.toList =
      draft.statements.toList ++ lines.filterMap Line.statement? := by
  induction lines generalizing draft with
  | nil => simp
  | cons line lines ih =>
    rw [List.foldl_cons, ih, statements_extend, List.append_assoc]
    cases found : line.statement? <;> simp [found]

theorem nextAddress_foldl (lines : List Line) (draft : Draft) :
    (lines.foldl extend draft).nextAddress =
      draft.nextAddress + (lines.filterMap Line.statement?).length := by
  have length := congrArg List.length (statements_foldl lines draft)
  rwa [List.length_append] at length

theorem address?_foldl_of_not_mem {lines : List Line} {name : String}
    (other : name ∉ lines.flatMap Line.labels) (draft : Draft) :
    (lines.foldl extend draft).address? name = draft.address? name := by
  induction lines generalizing draft with
  | nil => rfl
  | cons line lines ih =>
    rw [List.flatMap_cons, List.mem_append, not_or] at other
    rw [List.foldl_cons, ih other.2, address?_extend, if_neg other.1]

theorem isSome_address?_foldl (lines : List Line) (draft : Draft) (name : String) :
    ((lines.foldl extend draft).address? name).isSome = true ↔
      name ∈ lines.flatMap Line.labels ∨ (draft.address? name).isSome = true := by
  induction lines generalizing draft with
  | nil => simp
  | cons line lines ih =>
    rw [List.foldl_cons, ih, address?_extend, List.flatMap_cons, List.mem_append]
    by_cases mem : name ∈ line.labels <;> simp [mem]

theorem address?_foldl {before after : List Line} {line : Line} {name : String}
    (mem : name ∈ line.labels) (last : name ∉ after.flatMap Line.labels) (draft : Draft) :
    ((before ++ line :: after).foldl extend draft).address? name =
      some (draft.nextAddress + (before.filterMap Line.statement?).length) := by
  -- later lines do not declare the name again, earlier ones only count as statements
  rw [List.foldl_append, List.foldl_cons, address?_foldl_of_not_mem last, address?_extend,
    if_pos mem, nextAddress_foldl]

end Draft

theorem Statement.link_eq_ok {symbols : Symbols} {statement : Statement}
    {instruction : Instruction} :
    statement.link symbols = .ok instruction ↔
      instruction.opcode = statement.opcode
        ∧ List.Forall₂ (fun operand value => operand.token.resolve symbols = .ok value)
          statement.operands instruction.operands := by
  simp only [link, except_bind_eq_ok, except_mapM_eq_ok, resolveOperand, except_mapError_eq_ok]
  refine ⟨fun h => ?_, fun h => ?_⟩
  · obtain ⟨operands, resolved, done⟩ := h
    cases done
    exact ⟨rfl, resolved⟩
  · obtain ⟨same, resolved⟩ := h
    exact ⟨instruction.operands, resolved, by rw [← same]; rfl⟩

theorem Draft.link_eq_ok {draft : Draft} {program : Program} :
    draft.link = .ok program ↔
      List.Forall₂ (fun statement instruction => statement.link draft.symbols = .ok instruction)
          draft.statements.toList program.instructions.toList
        ∧ program.symbols = draft.symbols := by
  simp only [link, except_bind_eq_ok, except_mapM_eq_ok]
  refine ⟨fun h => ?_, fun h => ?_⟩
  · obtain ⟨instructions, linked, done⟩ := h
    cases done
    exact ⟨linked, rfl⟩
  · obtain ⟨linked, same⟩ := h
    exact ⟨program.instructions.toList, linked, by rw [← same]; rfl⟩

end StackMachine
