import StackMachine.Proofs.Drafting

/-!
The assembler accepts exactly the sources of the grammar, and translates them
line by line: one instruction for each line that holds more than labels, and
each label at the number of such lines above its own.
-/

namespace StackMachine

section Lists

variable {α β γ : Type}

theorem exists_forall₂_iff {R : α → β → Prop} {xs : List α} :
    (∃ ys, List.Forall₂ R xs ys) ↔ ∀ x ∈ xs, ∃ y, R x y := by
  induction xs with
  | nil => simp
  | cons x xs ih =>
    rw [List.forall_mem_cons, ← ih]
    refine ⟨fun h => ?_, fun h => ?_⟩
    · obtain ⟨ys, related⟩ := h
      cases related with
      | cons first rest => exact ⟨⟨_, first⟩, _, rest⟩
    · obtain ⟨⟨y, first⟩, ys, rest⟩ := h
      exact ⟨y :: ys, .cons first rest⟩

theorem forall₂_filter_of_filterMap {f : α → Option β} {p : α → Bool} {R : β → γ → Prop}
    {xs : List α} {zs : List γ} (agree : ∀ x ∈ xs, (f x).isSome = p x)
    (related : List.Forall₂ R (xs.filterMap f) zs) :
    List.Forall₂ (fun x z => x ∈ xs ∧ ∃ y, f x = some y ∧ R y z) (xs.filter p) zs := by
  induction xs generalizing zs with
  | nil => simpa using related
  | cons x xs ih =>
    obtain ⟨here, later⟩ := List.forall_mem_cons.1 agree
    have weaken : ∀ x' z, (x' ∈ xs ∧ ∃ y, f x' = some y ∧ R y z) →
        x' ∈ x :: xs ∧ ∃ y, f x' = some y ∧ R y z :=
      fun x' z rel => ⟨List.mem_cons_of_mem x rel.1, rel.2⟩
    cases found : f x with
    | none =>
      rw [List.filterMap_cons_none found] at related
      rw [List.filter_cons_of_neg (by simp [← here, found])]
      exact (ih later related).imp weaken
    | some y =>
      rw [List.filterMap_cons_some found] at related
      rw [List.filter_cons_of_pos (by simp [← here, found])]
      cases related with
      | cons first rest =>
        exact .cons ⟨List.mem_cons_self, y, found, first⟩ ((ih later rest).imp weaken)

end Lists

def draftOf (source : String) : Draft :=
  (sourceLines source).foldl Draft.extend .empty

variable {source : String} {program : Program}

theorem assemble_eq_ok :
    assemble source = .ok program ↔
      (∀ line ∈ sourceLines source, line.WellFormed) ∧ Draft.empty.Admits (declared source)
        ∧ (draftOf source).link = .ok program := by
  simp only [assemble, except_bind_eq_ok, Draft.ofLines, Draft.foldlM_addLine_eq_ok]
  refine ⟨fun h => ?_, fun h => ?_⟩
  · obtain ⟨draft, ⟨forms, admits, rfl⟩, linked⟩ := h
    exact ⟨forms, admits, linked⟩
  · obtain ⟨forms, admits, linked⟩ := h
    exact ⟨draftOf source, ⟨forms, admits, rfl⟩, linked⟩

theorem isSome_address?_draftOf (source name : String) :
    ((draftOf source).address? name).isSome = true ↔ name ∈ declared source := by
  rw [draftOf, Draft.isSome_address?_foldl]
  exact or_iff_left nofun

theorem address?_draftOf {before after : List Line} {line : Line} {name : String}
    (forms : ∀ line ∈ sourceLines source, line.WellFormed) (distinct : (declared source).Nodup)
    (split : sourceLines source = before ++ line :: after) (mem : name ∈ line.labels) :
    (draftOf source).address? name = some (before.countP Line.hasStatement) := by
  -- a later declaration would move the label
  have last : name ∉ after.flatMap Line.labels := by
    rw [declared, split, List.flatMap_append, List.flatMap_cons, List.nodup_append,
      List.nodup_append] at distinct
    exact fun later => distinct.2.1.2.2 name mem name later rfl
  have above : ∀ line ∈ before, line.WellFormed := by
    intro line mem
    exact forms line (split ▸ List.mem_append_left _ mem)
  rw [draftOf, split, Draft.address?_foldl mem last, Line.length_filterMap_statement? above]
  exact congrArg some (Nat.zero_add _)

structure Translation (source : String) (program : Program) : Prop where
  instructions : List.Forall₂ (Translates program.label?)
    ((sourceLines source).filter Line.hasStatement) program.instructions.toList
  labels : ∀ name, (program.label? name).isSome = true ↔ name ∈ declared source
  addresses : ∀ before line after, sourceLines source = before ++ line :: after →
    ∀ name ∈ line.labels, program.label? name = some (before.countP Line.hasStatement)

theorem labelNames_draftOf (admits : Draft.empty.Admits (declared source)) (name : String)
    (address : Nat) (found : (draftOf source).symbols.find? name = some address) :
    IsLabelName name := by
  refine admits.labelNames name ((isSome_address?_draftOf source name).1 ?_)
  rw [Draft.address?, found]
  rfl

theorem translation_of_assemble (assembled : assemble source = .ok program) :
    Translation source program := by
  obtain ⟨forms, admits, linked⟩ := assemble_eq_ok.1 assembled
  obtain ⟨linked, symbols⟩ := Draft.link_eq_ok.1 linked
  have table : program.label? = (draftOf source).symbols.find? := by
    funext name
    rw [Program.label?, symbols]
  refine ⟨?_, fun name => table ▸ isSome_address?_draftOf source name, ?_⟩
  · rw [draftOf, Draft.statements_foldl] at linked
    rw [table]
    refine (forall₂_filter_of_filterMap (fun line mem => (forms line mem).isSome_statement?)
      linked).imp fun line instruction related => ?_
    obtain ⟨mem, statement, found, linked⟩ := related
    obtain ⟨opcode, resolved⟩ := Statement.link_eq_ok.1 linked
    obtain ⟨body, form, same⟩ := (forms line mem).form
    obtain ⟨⟨op, operands⟩, rfl, rfl⟩ := Option.map_eq_some_iff.1 (same.symm.trans found)
    refine ⟨line.labels, operands, ?_, resolved.imp fun operand value resolved => ?_⟩
    · rw [opcode]
      exact form
    · exact (resolve_eq_ok (labelNames_draftOf admits)).1 resolved
  · intro before line after split name mem
    rw [table]
    exact address?_draftOf forms admits.distinct split mem

theorem exists_denotes_word {addresses : String → Option Nat} {word : String} :
    (∃ value, Denotes addresses (.word word) value) ↔
      (addresses word).isSome = true ∨ word = "nil" ∨ ∃ n, IsLiteral word n := by
  refine ⟨fun h => ?_, fun h => ?_⟩
  · obtain ⟨value, denotes⟩ := h
    cases denotes with
    | label found => exact .inl (by rw [found]; rfl)
    | nil => exact .inr (.inl rfl)
    | literal literal => exact .inr (.inr ⟨_, literal⟩)
  · rcases h with found | rfl | ⟨n, literal⟩
    · obtain ⟨address, found⟩ := Option.isSome_iff_exists.1 found
      exact ⟨_, .label found⟩
    · exact ⟨_, .nil⟩
    · exact ⟨_, .literal literal⟩

theorem Statement.exists_link_iff {symbols : Symbols} {statement : Statement} :
    (∃ instruction, statement.link symbols = .ok instruction) ↔
      ∀ operand ∈ statement.operands, ∃ value, operand.token.resolve symbols = .ok value := by
  rw [← exists_forall₂_iff]
  refine ⟨fun h => ?_, fun h => ?_⟩
  · obtain ⟨instruction, linked⟩ := h
    exact ⟨_, (link_eq_ok.1 linked).2⟩
  · obtain ⟨values, resolved⟩ := h
    exact ⟨⟨statement.opcode, values⟩, link_eq_ok.2 ⟨rfl, resolved⟩⟩

theorem Draft.exists_link_iff {draft : Draft} :
    (∃ program, draft.link = .ok program) ↔
      ∀ statement ∈ draft.statements.toList,
        ∃ instruction, statement.link draft.symbols = .ok instruction := by
  rw [← exists_forall₂_iff]
  refine ⟨fun h => ?_, fun h => ?_⟩
  · obtain ⟨program, linked⟩ := h
    exact ⟨_, (link_eq_ok.1 linked).1⟩
  · obtain ⟨instructions, linked⟩ := h
    exact ⟨⟨instructions.toArray, draft.symbols⟩, link_eq_ok.2 ⟨linked, rfl⟩⟩

theorem exists_resolve_word_iff (admits : Draft.empty.Admits (declared source)) (word : String) :
    (∃ value, (Token.word word).resolve (draftOf source).symbols = .ok value) ↔
      word ∈ declared source ∨ word = "nil" ∨ ∃ n, IsLiteral word n := by
  rw [← isSome_address?_draftOf, Draft.address?, ← exists_denotes_word]
  exact exists_congr fun value => resolve_eq_ok (labelNames_draftOf admits)

theorem exists_link_draftOf_iff (forms : ∀ line ∈ sourceLines source, line.WellFormed)
    (admits : Draft.empty.Admits (declared source)) :
    (∃ program, (draftOf source).link = .ok program) ↔
      ∀ line ∈ sourceLines source, ∀ names op operands,
        LineForm line.lexemes names (some (op, operands)) →
          ∀ operand ∈ operands, ∀ word, operand.token = .word word →
            word ∈ declared source ∨ word = "nil" ∨ ∃ n, IsLiteral word n := by
  have word_iff := exists_resolve_word_iff admits
  have statements : (draftOf source).statements.toList
      = (sourceLines source).filterMap Line.statement? := Draft.statements_foldl _ _
  simp only [Draft.exists_link_iff, Statement.exists_link_iff, statements, List.mem_filterMap]
  refine ⟨fun h line mem names op operands form operand inside word token => ?_,
    fun h statement found operand inside => ?_⟩
  · have resolved := h (Statement.onLine line.number (op, operands))
      ⟨line, mem, Statement.ofLexemes?_of_form form⟩ operand inside
    rw [token] at resolved
    exact (word_iff word).1 resolved
  · obtain ⟨line, mem, found⟩ := found
    obtain ⟨body, form, same⟩ := (forms line mem).form
    obtain ⟨⟨op, operands⟩, rfl, rfl⟩ := Option.map_eq_some_iff.1 (same.symm.trans found)
    have kind := form.operands.2 operand inside
    cases token : operand.token with
    | word word => exact (word_iff word).2 (h line mem _ op operands form operand inside word token)
    | quoted text => exact ⟨.text text, rfl⟩
    | label name => simp [token, Token.isOperand] at kind
    | unterminated text => simp [token, Token.isOperand] at kind

theorem exists_assemble_iff :
    (∃ program, assemble source = .ok program) ↔ Grammatical source := by
  simp only [assemble_eq_ok, exists_and_left]
  refine ⟨fun h => ?_, fun h => ?_⟩
  · obtain ⟨forms, admits, linked⟩ := h
    exact ⟨forms, admits.distinct, admits.labelNames,
      (exists_link_draftOf_iff forms admits).1 linked⟩
  · obtain ⟨forms, distinct, labelNames, operands⟩ := h
    have admits : Draft.empty.Admits (declared source) := ⟨labelNames, fun _ _ => rfl, distinct⟩
    exact ⟨forms, admits, (exists_link_draftOf_iff forms admits).2 operands⟩

theorem denotes_unique (assembled : assemble source = .ok program) {token : Token}
    {value other : Value} (first : Denotes program.label? token value)
    (second : Denotes program.label? token other) : value = other := by
  have grammatical : Grammatical source := exists_assemble_iff.1 ⟨program, assembled⟩
  have labelNames : ∀ name address, program.symbols.find? name = some address →
      IsLabelName name := by
    intro name address found
    have known : (program.label? name).isSome = true := Option.isSome_iff_exists.2 ⟨_, found⟩
    exact grammatical.names name (((translation_of_assemble assembled).labels name).1 known)
  have resolved := (resolve_eq_ok labelNames).2 first
  rw [(resolve_eq_ok labelNames).2 second] at resolved
  exact (Except.ok.inj resolved).symm

/-- The assembler accepts exactly the grammatical sources. What it makes of one
is its translation, and there the classes of operand words (labels, `nil` and
literals) exclude each other, so that no operand stands for two values. A label
stands for as many ones as its address says. -/
theorem assemble_accepts_the_grammar (source : String) :
    ((∃ program, assemble source = .ok program) ↔ Grammatical source)
      ∧ ∀ program, assemble source = .ok program →
        Translation source program
          ∧ (∀ word ∈ declared source, word ≠ "nil" ∧ ∀ n, ¬ IsLiteral word n)
          ∧ (∀ n, ¬ IsLiteral "nil" n)
          ∧ (∀ token value other, Denotes program.label? token value →
            Denotes program.label? token other → value = other)
          ∧ ∀ name address value, program.label? name = some address → address ≤ 2 ^ 53 →
            Denotes program.label? (.word name) value →
              ∃ fits, value = .number (.finite false (unitsPerOne * address) fits) := by
  refine ⟨exists_assemble_iff, fun program assembled => ?_⟩
  have grammatical : Grammatical source := exists_assemble_iff.1 ⟨program, assembled⟩
  refine ⟨translation_of_assemble assembled, fun word mem => ?_,
    fun n => isName_nil.not_isLiteral n, fun token value other => denotes_unique assembled,
    fun name address value found small denotes => ?_⟩
  · have labelName := grammatical.names word mem
    exact ⟨labelName.ne_nil, labelName.isName.not_isLiteral⟩
  -- up to `2 ^ 53` no address is rounded on its way into a number
  · rw [denotes_unique assembled denotes (.label found), Value.ofNat, Number.ofNat_eq small]
    exact ⟨_, rfl⟩

/-- Two labels on one line, a label used before its line, and all classes of operands. -/
def labelledSource : String :=
  "start: again:\n Const -2.5,\n# no statement\nPRINT\ncall done, 0\nconst \"a b\"\ngoto again\n"
    ++ "done: const nil\nret"

/-- The labels are worth their addresses, five and zero; `-2.5` is five halves below zero. -/
def labelledCode : List Instruction :=
  [⟨.const, [.number (.finite true (5 * (unitsPerOne / 2)) (by decide +kernel))]⟩,
    ⟨.print, []⟩,
    ⟨.call, [.number (.finite false (unitsPerOne * 5) (by decide +kernel)),
      .number (.finite false (unitsPerOne * 0) (by decide +kernel))]⟩,
    ⟨.const, [.text "a b"]⟩,
    ⟨.goto, [.number (.finite false (unitsPerOne * 0) (by decide +kernel))]⟩,
    ⟨.const, [.nil]⟩,
    ⟨.ret, []⟩]

theorem assemble_accepts_the_grammar_of_labelledSource :
    ∃ program, assemble labelledSource = .ok program
      ∧ program.instructions.toList = labelledCode
      ∧ program.label? "again" = some 0 ∧ program.label? "done" = some 5
      ∧ Grammatical labelledSource ∧ Translation labelledSource program := by
  have assembled : (assemble labelledSource).toOption.map
      (fun program => (program.instructions.toList, program.label? "again", program.label? "done"))
        = some (labelledCode, some 0, some 5) := by decide +kernel
  obtain ⟨accepts, translates⟩ := assemble_accepts_the_grammar labelledSource
  cases result : assemble labelledSource with
  | error error =>
    rw [result] at assembled
    cases assembled
  | ok program =>
    rw [result] at assembled
    simp only [Except.toOption, Option.map_some, Option.some.injEq, Prod.mk.injEq] at assembled
    obtain ⟨code, again, done⟩ := assembled
    exact ⟨program, rfl, code, again, done, accepts.1 ⟨program, result⟩,
      (translates program result).1⟩

end StackMachine
