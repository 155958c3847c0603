import StackMachine.Proofs.Lines

/-!
Layout. How a source is laid out in lines and columns does not matter to the
assembler beyond the places that its errors name: a comment or a line of
separators moves the errors below it down by one line, and newlines may be
written with a carriage return. Between tokens one separator is as good as
another, as long as no line becomes a comment or stops being one.
-/

namespace StackMachine

namespace SourceError

def renumber (f : Nat → Nat) (e : SourceError) : SourceError :=
  { e with line := e.line.map f }

end SourceError

namespace Statement

def renumber (f : Nat → Nat) (statement : Statement) : Statement :=
  { statement with line := statement.line.map f }

end Statement

namespace Draft

def renumber (f : Nat → Nat) (draft : Draft) : Draft :=
  { draft with statements := draft.statements.map (Statement.renumber f) }

end Draft

/-- A result with `g` applied to its value, or with the line of its error renumbered. -/
def carried {α β : Type} (f : Nat → Nat) (g : α → β) :
    Except SourceError α → Except SourceError β
  | .ok a => .ok (g a)
  | .error e => .error (e.renumber f)

section Carried

variable {α β γ δ : Type} {f : Nat → Nat}

theorem carried_id (x : Except SourceError α) :
    carried f id x = x.mapError (SourceError.renumber f) := by
  cases x <;> rfl

theorem carried_bind {g : α → β} {h : γ → δ} {x : Except SourceError α}
    {first : α → Except SourceError γ} {second : β → Except SourceError δ}
    (rest : ∀ a, second (g a) = carried f h (first a)) :
    (carried f g x >>= second) = carried f h (x >>= first) := by
  cases x with
  | ok a => exact rest a
  | error e => rfl

theorem carried_at {x : Except SourceFault α} {line : Option Nat} {span : Span} :
    (x.mapError fun fault => (⟨fault, line.map f, span⟩ : SourceError)) =
      carried f id (x.mapError fun fault => ⟨fault, line, span⟩) := by
  cases x <;> rfl

theorem carried_forM {first second : α → Except SourceError Unit} {xs : List α}
    (each : ∀ x, second x = carried f id (first x)) :
    xs.forM second = carried f id (xs.forM first) := by
  induction xs with
  | nil => rfl
  | cons x xs ih =>
    show (second x >>= fun _ => xs.forM second) = _
    rw [each]
    exact carried_bind fun _ => ih

theorem carried_mapM {g : α → β} {first : α → Except SourceError γ}
    {second : β → Except SourceError γ} (each : ∀ x, second (g x) = carried f id (first x))
    (xs : List α) :
    (xs.map g).mapM second = carried f id (xs.mapM first) := by
  induction xs with
  | nil => rfl
  | cons x xs ih =>
    rw [List.map_cons, List.mapM_cons, List.mapM_cons, each]
    refine carried_bind fun y => ?_
    rw [ih]
    exact carried_bind fun ys => rfl

theorem carried_foldlM {σ : Type} {g : σ → σ} {move : α → α} {step : σ → α → Except SourceError σ}
    (each : ∀ s x, step (g s) (move x) = carried f g (step s x)) (xs : List α) (s : σ) :
    (xs.map move).foldlM step (g s) = carried f g (xs.foldlM step s) := by
  induction xs generalizing s with
  | nil => rfl
  | cons x xs ih =>
    rw [List.map_cons, List.foldlM_cons, List.foldlM_cons, each]
    exact carried_bind fun next => ih next

end Carried

section Renumbering

variable (f : Nat → Nat)

theorem declare_renumber (draft : Draft) (name : String) (line : Option Nat) (column : Span) :
    (draft.renumber f).declare name (line.map f) column =
      carried f (Draft.renumber f) (draft.declare name line column) := by
  have fault : (draft.renumber f).labelFault? name = draft.labelFault? name := rfl
  have address : (draft.renumber f).nextAddress = draft.nextAddress := Array.size_map
  unfold Draft.declare
  rw [fault, address]
  cases draft.labelFault? name <;> rfl

theorem takeLabels_renumber (draft : Draft) (line : Nat) (lexemes : List Lexeme) :
    (draft.renumber f).takeLabels (f line) lexemes =
      carried f (fun result => (result.1.renumber f, result.2))
        (draft.takeLabels line lexemes) := by
  induction lexemes generalizing draft with
  | nil => rfl
  | cons lexeme lexemes ih =>
    obtain ⟨span, token⟩ := lexeme
    cases token with
    | label name =>
      unfold Draft.takeLabels
      have declared := declare_renumber f draft name (some line) span
      rw [Option.map_some] at declared
      rw [declared]
      exact carried_bind fun next => ih next
    | word text => rfl
    | quoted text => rfl
    | unterminated text => rfl

theorem read_renumber (line : Nat) (lexemes : List Lexeme) :
    Statement.read (f line) lexemes =
      carried f (Option.map (Statement.renumber f)) (Statement.read line lexemes) := by
  cases lexemes with
  | nil => rfl
  | cons head operands =>
    have opcode := @carried_at _ f head.token.opcode (some line) head.span
    have checked : ∀ lexeme : Lexeme, _ :=
      fun lexeme => @carried_at _ f lexeme.token.checkOperand (some line) lexeme.span
    rw [Option.map_some] at opcode
    simp only [Option.map_some] at checked
    unfold Statement.read
    dsimp only
    rw [opcode]
    refine carried_bind fun op => ?_
    rw [carried_forM checked]
    refine carried_bind fun _ => ?_
    dsimp only [id]
    split <;> rfl

theorem addLine_renumber (draft : Draft) (line : Line) :
    (draft.renumber f).addLine (line.renumber f) =
      carried f (Draft.renumber f) (draft.addLine line) := by
  unfold Draft.addLine Line.renumber
  rw [takeLabels_renumber]
  refine carried_bind fun result => ?_
  dsimp only
  rw [read_renumber]
  refine carried_bind fun found => ?_
  cases found with
  | none => rfl
  | some statement =>
    simp only [Option.map_some, carried, pure, Except.pure, Draft.add, Draft.renumber,
      Array.map_push]

theorem link_renumber (draft : Draft) :
    (draft.renumber f).link = carried f id draft.link := by
  have resolved : ∀ (line : Option Nat) (lexeme : Lexeme),
      Statement.resolveOperand draft.symbols (line.map f) lexeme =
        carried f id (Statement.resolveOperand draft.symbols line lexeme) :=
    fun line lexeme => carried_at
  have linked : ∀ statement : Statement, (statement.renumber f).link draft.symbols =
      carried f id (statement.link draft.symbols) := by
    intro statement
    have operands := carried_mapM (g := id) (resolved statement.line) statement.operands
    rw [List.map_id] at operands
    unfold Statement.link
    rw [Statement.renumber, operands]
    exact carried_bind fun values => rfl
  unfold Draft.link
  rw [Draft.renumber, Array.toList_map, carried_mapM linked]
  exact carried_bind fun instructions => rfl

def assembleLines (lines : List Line) : Except SourceError Program := do
  let draft ← Draft.ofLines lines
  draft.link

theorem assemble_eq (source : String) : assemble source = assembleLines (sourceLines source) := rfl

theorem assembleLines_renumber (lines : List Line) :
    assembleLines (lines.map (Line.renumber f)) =
      (assembleLines lines).mapError (SourceError.renumber f) := by
  have start : Draft.empty.renumber f = .empty := by simp [Draft.renumber, Draft.empty]
  have drafted := carried_foldlM (addLine_renumber f) lines Draft.empty
  rw [start] at drafted
  unfold assembleLines Draft.ofLines
  rw [drafted, ← carried_id]
  exact carried_bind (link_renumber f)

end Renumbering

def pushedDown (above number : Nat) : Nat :=
  if above < number then number + 1 else number

theorem lex_of_separators {text : List Char} (gap : ∀ c ∈ text, isSeparator c = true) :
    lex text = [] := by
  have scanned := scan_between_append gap 0 []
  rw [List.append_nil] at scanned
  rw [lex, scanned]
  split <;> rfl

theorem sourceLines_insert {before text after : String} (ends : EndsLine before.toList)
    (single : '\n' ∉ text.toList) (silent : lex text.toList = []) :
    sourceLines (before ++ text ++ "\n" ++ after) =
      (sourceLines (before ++ after)).map
        (Line.renumber (pushedDown (before.toList.count '\n'))) := by
  have newline : "\n".toList = ['\n'] := rfl
  have closed : EndsLine (text.toList ++ ['\n']) := .inr ⟨_, rfl⟩
  have blank : lex (trimReturn text.toList) = [] := by
    rw [lex_trimReturn (by simp [silent]), silent]
  simp only [sourceLines_eq, String.toList_append, newline]
  rw [List.append_assoc, List.append_assoc, ← List.append_assoc text.toList,
    lineTexts_append ends, lineTexts_append ends, lineTexts_append closed, lineTexts_newline single]
  generalize lineTexts after.toList = below
  have length := length_lineTexts ends
  generalize lineTexts before.toList = above at length
  rw [tokenLines_append, tokenLines_append, tokenLines_append, tokenLines_singleton, if_pos blank,
    List.nil_append, List.map_append, ← length]
  -- lines above keep their numbers, the ones below get the next
  congr 1
  · refine (List.map_id _).symm.trans (List.map_congr_left fun line mem => ?_)
    have bound := (number_of_mem_readLines (List.mem_of_mem_filter mem)).2
    rw [Line.renumber, pushedDown, if_neg (by omega)]
    rfl
  · rw [List.length_singleton, tokenLines_add]
    refine List.map_congr_left fun line mem => ?_
    have bound := (number_of_mem_readLines (List.mem_of_mem_filter mem)).1
    rw [Line.renumber, Line.renumber, pushedDown, if_pos (by omega)]

def withReturns (source : String) : String :=
  String.ofList (source.toList.flatMap fun c => if c = '\n' then ['\r', '\n'] else [c])

theorem dropReturn_of_not_mem {seen : List Char} (plain : '\r' ∉ seen) :
    dropReturn seen = seen := by
  unfold dropReturn
  split
  · exact absurd List.mem_cons_self plain
  · rfl

theorem linesFrom_withReturns {seen text : List Char} (before : '\r' ∉ seen) (plain : '\r' ∉ text) :
    linesFrom seen (text.flatMap fun c => if c = '\n' then ['\r', '\n'] else [c]) =
      linesFrom seen text := by
  induction text generalizing seen with
  | nil => rfl
  | cons c text ih =>
    obtain ⟨here, later⟩ := not_or.1 (mt List.mem_cons.2 plain)
    by_cases newline : c = '\n'
    · simp only [List.flatMap_cons, newline, if_true, List.cons_append, List.nil_append, linesFrom,
        dropReturn_of_not_mem before, ih (List.not_mem_nil) later]
      rfl
    · have kept : '\r' ∉ c :: seen := by simp [here, before]
      simp only [List.flatMap_cons, newline, if_false, List.cons_append, List.nil_append, linesFrom,
        ih kept later]

theorem sourceLines_withReturns {source : String} (plain : '\r' ∉ source.toList) :
    sourceLines (withReturns source) = sourceLines source := by
  rw [sourceLines_eq, sourceLines_eq, withReturns, String.toList_ofList, lineTexts,
    linesFrom_withReturns List.not_mem_nil plain]
  rfl

def Span.Covers (span : Span) (column : Nat) : Prop :=
  span.start ≤ column ∧ column < span.stop

instance (span : Span) (column : Nat) : Decidable (span.Covers column) :=
  inferInstanceAs (Decidable (_ ∧ _))

theorem exists_of_inQuotes (start column : Nat) (seen text : List Char) :
    ∃ lexeme ∈ scan (.inQuotes start seen) column text,
      lexeme.span.start = start ∧ column ≤ lexeme.span.stop := by
  induction text generalizing column seen with
  | nil => exact ⟨_, List.mem_cons_self, rfl, Nat.le_refl column⟩
  | cons c text ih =>
    unfold scan
    split
    · exact ⟨_, List.mem_cons_self, rfl, Nat.le_succ column⟩
    · obtain ⟨lexeme, mem, begins, stops⟩ := ih (column + 1) (c :: seen)
      exact ⟨lexeme, mem, begins, Nat.le_of_succ_le stops⟩

theorem scan_replace {left right : List Char} {c d : Char} (gap : isSeparator c = true)
    (other : isSeparator d = true)
    (outside : ∀ lexeme ∈ scan .between 0 (left ++ c :: right), ¬ lexeme.span.Covers left.length) :
    scan .between 0 (left ++ d :: right) = scan .between 0 (left ++ c :: right) := by
  have start : ScanState.Begun 0 .between := trivial
  obtain ⟨settled, after, begun, scanned⟩ := scan_append start left
  rw [Nat.zero_add] at begun scanned
  rw [scanned] at outside
  rw [scanned, scanned]
  congr 1
  cases after with
  | between => simp only [scan, gap, other, if_true]
  | inWord start seen => simp only [scan, gap, other, if_true]
  | inQuotes start seen =>
    -- here the separator would belong to the token that the quote opens
    have quote : c ≠ '"' := by
      rintro rfl
      cases gap
    obtain ⟨lexeme, mem, begins, stops⟩ :=
      exists_of_inQuotes start (left.length + 1) (c :: seen) right
    refine absurd ⟨begins ▸ begun, stops⟩ (outside lexeme (List.mem_append_right settled ?_))
    rwa [scan, if_neg quote]

theorem lex_replace {left right : List Char} {c d : Char} (gap : isSeparator c = true)
    (other : isSeparator d = true) (code : isComment (left ++ c :: right) = false)
    (still : isComment (left ++ d :: right) = false)
    (outside : ∀ lexeme ∈ lex (left ++ c :: right), ¬ lexeme.span.Covers left.length) :
    lex (left ++ d :: right) = lex (left ++ c :: right) := by
  unfold lex at outside ⊢
  rw [code, if_neg Bool.false_ne_true] at outside ⊢
  rw [still, if_neg Bool.false_ne_true]
  exact scan_replace gap other outside

def columnAfter (text : List Char) : Nat :=
  (text.reverse.takeWhile fun c => c != '\n').length

theorem columnAfter_append {before last : List Char} (ends : EndsLine before)
    (single : '\n' ∉ last) : columnAfter (before ++ last) = last.length := by
  have inside : ∀ c ∈ last.reverse, (c != '\n') = true := by
    intro c mem
    rw [bne_iff_ne]
    rintro rfl
    exact single (List.mem_reverse.1 mem)
  rw [columnAfter, List.reverse_append, List.takeWhile_append_of_pos inside]
  rcases ends with rfl | ⟨body, rfl⟩
  · simp
  · simp

def lineText (source : List Char) (above : Nat) : List Char :=
  (lineTexts source)[above]?.getD []

theorem dropReturn_append {c : Char} (other : c ≠ '\r') (seen rest : List Char) :
    dropReturn (seen ++ c :: rest) = dropReturn seen ++ c :: rest := by
  cases seen with
  | nil =>
    unfold dropReturn
    split
    · rename_i same
      exact absurd (List.cons.inj same).1 other
    · rfl
  | cons d seen =>
    by_cases back : d = '\r'
    · rw [back]
      rfl
    · simp [dropReturn, back]

theorem linesFrom_through (seen after : List Char) :
    ∃ right below, ∀ c, c ≠ '\r' → ∀ left,
      linesFrom (seen ++ c :: left) after = (left.reverse ++ c :: right) :: below := by
  induction after generalizing seen with
  | nil =>
    refine ⟨seen.reverse, [], fun c _ left => ?_⟩
    simp [linesFrom]
  | cons d after ih =>
    by_cases newline : d = '\n'
    · refine ⟨(dropReturn seen).reverse, linesFrom [] after, fun c other left => ?_⟩
      simp [linesFrom, newline, dropReturn_append other]
    · obtain ⟨right, below, through⟩ := ih (d :: seen)
      refine ⟨right, below, fun c other left => ?_⟩
      rw [linesFrom, if_neg newline]
      exact through c other left

theorem lineTexts_through (before after : List Char) :
    ∃ above left right below, above.length = before.count '\n' ∧ left.length = columnAfter before
      ∧ ∀ c, c ≠ '\n' → c ≠ '\r' →
        lineTexts (before ++ c :: after) = above ++ (left ++ c :: right) :: below := by
  obtain ⟨start, left, rfl, ends, single⟩ := exists_endsLine_append before
  obtain ⟨right, below, through⟩ := linesFrom_through [] after
  refine ⟨lineTexts start, left, right, below, ?_, (columnAfter_append ends single).symm, ?_⟩
  · rw [length_lineTexts ends, List.count_append, List.count_eq_zero_of_not_mem single,
      Nat.add_zero]
  · intro c newline other
    have inside : ∀ d ∈ left, d ≠ '\n' := fun d mem same => single (same ▸ mem)
    have line := through c other left.reverse
    rw [List.nil_append, List.reverse_reverse] at line
    have rest : lineTexts (left ++ c :: after) = (left ++ c :: right) :: below := by
      rw [lineTexts, linesFrom_append inside, linesFrom, if_neg newline, List.append_nil, line]
    rw [List.append_assoc, lineTexts_append ends, rest]

def IsGap (c : Char) : Prop :=
  c = ' ' ∨ c = '\t' ∨ c = ','

theorem IsGap.kinds {c : Char} (gap : IsGap c) :
    isSeparator c = true ∧ c ≠ '\n' ∧ c ≠ '\r' := by
  rcases gap with rfl | rfl | rfl <;> decide

theorem sourceLines_replace {before after : String} {c d : Char} (gap : IsGap c) (other : IsGap d)
    (code : isComment (lineText (before.toList ++ c :: after.toList) (before.toList.count '\n'))
      = false)
    (still : isComment (lineText (before.toList ++ d :: after.toList) (before.toList.count '\n'))
      = false)
    (outside : ∀ lexeme ∈ lex (lineText (before.toList ++ c :: after.toList)
      (before.toList.count '\n')), ¬ lexeme.span.Covers (columnAfter before.toList)) :
    sourceLines (before ++ String.singleton d ++ after) =
      sourceLines (before ++ String.singleton c ++ after) := by
  obtain ⟨above, left, right, below, length, column, through⟩ :=
    lineTexts_through before.toList after.toList
  obtain ⟨separator, newline, back⟩ := gap.kinds
  obtain ⟨separator', newline', back'⟩ := other.kinds
  have first := through c newline back
  have second := through d newline' back'
  rw [lineText, first, ← length, List.getElem?_append_right (Nat.le_refl _), Nat.sub_self]
    at code outside
  rw [lineText, second, ← length, List.getElem?_append_right (Nat.le_refl _), Nat.sub_self] at still
  have same : lex (left ++ d :: right) = lex (left ++ c :: right) :=
    lex_replace separator separator' code still (column ▸ outside)
  simp only [sourceLines_eq, String.toList_append, String.toList_singleton, List.append_assoc,
    List.singleton_append, first, second, tokenLines, readLines_append, readLines, Line.read, same]

/-- A comment or a line of separators that is put in between moves the errors
below it down by one line and changes nothing else. Newlines with a carriage
return are as good as newlines without, and between tokens one separator is as
good as another, errors included. -/
theorem layout_changes_nothing (source : String) :
    (∀ before text after : String, source = before ++ after → EndsLine before.toList →
        '\n' ∉ text.toList →
        isComment text.toList = true ∨ (∀ c ∈ text.toList, isSeparator c = true) →
          assemble (before ++ text ++ "\n" ++ after) =
            (assemble source).mapError
              (SourceError.renumber (pushedDown (before.toList.count '\n'))))
      ∧ ('\r' ∉ source.toList → assemble (withReturns source) = assemble source)
      ∧ ∀ (before after : String) (c d : Char), source = before ++ String.singleton c ++ after →
        IsGap c → IsGap d →
          let changed := before ++ String.singleton d ++ after
          let above := before.toList.count '\n'
          isComment (lineText source.toList above) = false →
            isComment (lineText changed.toList above) = false →
            (∀ lexeme ∈ lex (lineText source.toList above),
              ¬ lexeme.span.Covers (columnAfter before.toList)) →
            assemble changed = assemble source := by
  refine ⟨?_, ?_, ?_⟩
  · rintro before text after rfl ends single silent
    have blank : lex text.toList = [] := silent.elim lex_of_isComment lex_of_separators
    rw [assemble_eq, sourceLines_insert ends single blank, assembleLines_renumber, assemble_eq]
  · intro plain
    rw [assemble_eq, sourceLines_withReturns plain, assemble_eq]
  · rintro before after c d rfl gap other changed above code still outside
    have whole : ∀ e, (before ++ String.singleton e ++ after).toList =
        before.toList ++ e :: after.toList := by
      intro e
      simp
    rw [whole] at code outside
    rw [whole d] at still
    rw [assemble_eq, sourceLines_replace gap other code still outside, assemble_eq]

/-- An error moves down with its line, past a comment and past separators; a comma may
stand for a space; and a label that is declared twice is found behind carriage returns. -/
theorem layout_changes_nothing_around_errors :
    assemble "const 1\n \t# two\npush x\n" = .error ⟨.unknownInstruction "push", some 3, ⟨0, 4⟩⟩
      ∧ assemble "const 1\npush x\n,,\n" = .error ⟨.unknownInstruction "push", some 2, ⟨0, 4⟩⟩
      ∧ assemble "a:\r\na: const 1\r\n" = .error ⟨.duplicateLabel "a", some 2, ⟨0, 2⟩⟩
      ∧ assemble "const,\" \"\nprint" = assemble "const \" \"\nprint" := by
  have source : assemble "const 1\npush x\n" =
      .error ⟨.unknownInstruction "push", some 2, ⟨0, 4⟩⟩ := by decide +kernel
  have twice : assemble "a:\na: const 1\n" = .error ⟨.duplicateLabel "a", some 2, ⟨0, 2⟩⟩ := by
    decide +kernel
  refine ⟨?_, ?_, ?_, ?_⟩
  · have moved := (layout_changes_nothing _).1 "const 1\n" " \t# two" "push x\n" rfl
      (.inr ⟨"const 1".toList, rfl⟩) (by decide) (.inl (by decide))
    exact moved.trans (congrArg (Except.mapError _) source)
  · have kept := (layout_changes_nothing _).1 "const 1\npush x\n" ",," "" rfl
      (.inr ⟨"const 1\npush x".toList, rfl⟩) (by decide) (.inr (List.all_eq_true.1 (by decide)))
    exact kept.trans (congrArg (Except.mapError _) source)
  · exact ((layout_changes_nothing "a:\na: const 1\n").2.1 (by decide)).trans twice
  · exact (layout_changes_nothing "const \" \"\nprint").2.2 "const" "\" \"\nprint" ' ' ',' rfl
      (.inl rfl) (.inr (.inr rfl)) (by decide) (by decide) (by decide +kernel)

end StackMachine
