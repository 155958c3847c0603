import StackMachine.Proofs.Drafting

/-!
Lines of texts that are put together. Behind a newline the lines of a text begin
anew, so that the lines of two texts follow each other, the second ones with
higher numbers. Inside a line the scanner only remembers where it stands: what
it has read is settled, and what follows is read from that state on.
-/

namespace StackMachine

/-- Nothing, or a text that ends with a newline: behind it a line begins. -/
def EndsLine (text : List Char) : Prop :=
  text = [] ∨ ∃ body, text = body ++ ['\n']

theorem linesFrom_append_newline (seen text rest : List Char) :
    linesFrom seen (text ++ '\n' :: rest) =
      linesFrom seen (text ++ ['\n']) ++ linesFrom [] rest := by
  induction text generalizing seen with
  | nil => rfl
  | cons c text ih =>
    simp only [List.cons_append, linesFrom]
    split
    · rw [ih, List.cons_append]
    · rw [ih]

theorem length_linesFrom_newline (seen text : List Char) :
    (linesFrom seen (text ++ ['\n'])).length = text.count '\n' + 1 := by
  induction text generalizing seen with
  | nil => rfl
  | cons c text ih =>
    simp only [List.cons_append, linesFrom]
    split
    · rename_i newline
      rw [List.length_cons, ih, newline, List.count_cons_self]
    · rename_i other
      rw [ih, List.count_cons_of_ne other]

theorem lineTexts_append {before : List Char} (ends : EndsLine before) (after : List Char) :
    lineTexts (before ++ after) = lineTexts before ++ lineTexts after := by
  rcases ends with rfl | ⟨body, rfl⟩
  · rfl
  · rw [List.append_assoc]
    exact linesFrom_append_newline [] body after

theorem length_lineTexts {before : List Char} (ends : EndsLine before) :
    (lineTexts before).length = before.count '\n' := by
  rcases ends with rfl | ⟨body, rfl⟩
  · rfl
  · rw [lineTexts, length_linesFrom_newline, List.count_append]
    rfl

def trimReturn (line : List Char) : List Char :=
  (dropReturn line.reverse).reverse

theorem trimReturn_eq (line : List Char) :
    trimReturn line = line ∨ line = trimReturn line ++ ['\r'] := by
  unfold trimReturn dropReturn
  split
  · rename_i seen back
    right
    rw [← List.reverse_cons, ← back, List.reverse_reverse]
  · exact .inl (List.reverse_reverse line)

theorem lineTexts_newline {line : List Char} (single : '\n' ∉ line) :
    lineTexts (line ++ ['\n']) = [trimReturn line] := by
  have other : ∀ c ∈ line, c ≠ '\n' := fun c mem same => single (same ▸ mem)
  rw [lineTexts, linesFrom_append other, List.append_nil]
  rfl

theorem exists_endsLine_append (text : List Char) :
    ∃ before last, text = before ++ last ∧ EndsLine before ∧ '\n' ∉ last := by
  induction text with
  | nil => exact ⟨[], [], rfl, .inl rfl, by simp⟩
  | cons c text ih =>
    obtain ⟨before, last, rfl, ends, single⟩ := ih
    by_cases newline : c = '\n'
    · refine ⟨c :: before, last, rfl, .inr ?_, single⟩
      rcases ends with rfl | ⟨body, rfl⟩
      · exact ⟨[], by rw [newline]; rfl⟩
      · exact ⟨c :: body, rfl⟩
    · rcases ends with rfl | ⟨body, rfl⟩
      · exact ⟨[], c :: last, rfl, .inl rfl, by simp [single, Ne.symm newline]⟩
      · exact ⟨c :: (body ++ ['\n']), last, rfl, .inr ⟨c :: body, rfl⟩, single⟩

namespace Line

def renumber (f : Nat → Nat) (line : Line) : Line :=
  { line with number := f line.number }

end Line

theorem readLines_add (first distance : Nat) (texts : List (List Char)) :
    readLines (first + distance) texts =
      (readLines first texts).map (Line.renumber (· + distance)) := by
  induction texts generalizing first with
  | nil => rfl
  | cons text texts ih =>
    rw [readLines, readLines, List.map_cons, Nat.add_right_comm, ih]
    rfl

theorem number_of_mem_readLines {first : Nat} {texts : List (List Char)} {line : Line}
    (mem : line ∈ readLines first texts) :
    first ≤ line.number ∧ line.number < first + texts.length := by
  induction texts generalizing first with
  | nil => cases mem
  | cons text texts ih =>
    rw [List.length_cons]
    rcases List.mem_cons.1 mem with rfl | later
    · exact ⟨Nat.le_refl first, by simp only [Line.read]; omega⟩
    · have bounds := ih later
      omega

def tokenLines (first : Nat) (texts : List (List Char)) : List Line :=
  (readLines first texts).filter fun line => !line.isEmpty

theorem sourceLines_eq (source : String) :
    sourceLines source = tokenLines 1 (lineTexts source.toList) := rfl

theorem tokenLines_append (first : Nat) (texts rest : List (List Char)) :
    tokenLines first (texts ++ rest) =
      tokenLines first texts ++ tokenLines (first + texts.length) rest := by
  rw [tokenLines, readLines_append, List.filter_append]
  rfl

theorem tokenLines_add (first distance : Nat) (texts : List (List Char)) :
    tokenLines (first + distance) texts =
      (tokenLines first texts).map (Line.renumber (· + distance)) := by
  rw [tokenLines, readLines_add, List.filter_map]
  rfl

theorem tokenLines_singleton (first : Nat) (text : List Char) :
    tokenLines first [text] = if lex text = [] then [] else [.read first text] := by
  cases lexed : lex text <;> simp [tokenLines, readLines, Line.read, Line.isEmpty, lexed]

namespace ScanState

def Begun (column : Nat) : ScanState → Prop
  | .between => True
  | .inWord start _ | .inQuotes start _ => start ≤ column

end ScanState

theorem scan_cons {state : ScanState} {column : Nat} (begun : state.Begun column) (c : Char) :
    ∃ settled next, ScanState.Begun (column + 1) next
      ∧ ∀ rest, scan state column (c :: rest) = settled ++ scan next (column + 1) rest := by
  have later : column ≤ column + 1 := Nat.le_succ column
  have quote : isSeparator '"' = false := rfl
  cases state with
  | between =>
    rcases eq_or_ne c '"' with rfl | other
    · exact ⟨[], .inQuotes column [], later, fun rest => by simp [scan, quote]⟩
    cases gap : isSeparator c with
    | true => exact ⟨[], .between, trivial, fun rest => by simp [scan, gap]⟩
    | false => exact ⟨[], .inWord column [c], later, fun rest => by simp [scan, gap, other]⟩
  | inWord start seen =>
    rcases eq_or_ne c '"' with rfl | other
    · exact ⟨[_], .inQuotes column [], later, fun rest => by simp [scan, quote]; rfl⟩
    cases gap : isSeparator c with
    | true => exact ⟨[_], .between, trivial, fun rest => by simp [scan, gap]; rfl⟩
    | false =>
      exact ⟨[], .inWord start (c :: seen), Nat.le_trans begun later,
        fun rest => by simp [scan, gap, other]⟩
  | inQuotes start seen =>
    rcases eq_or_ne c '"' with rfl | other
    · exact ⟨[_], .between, trivial, fun rest => by simp [scan]; rfl⟩
    · exact ⟨[], .inQuotes start (c :: seen), Nat.le_trans begun later,
        fun rest => by simp [scan, other]⟩

theorem scan_append {state : ScanState} {column : Nat} (begun : state.Begun column)
    (text : List Char) :
    ∃ settled after, ScanState.Begun (column + text.length) after
      ∧ ∀ rest, scan state column (text ++ rest) =
        settled ++ scan after (column + text.length) rest := by
  induction text generalizing state column with
  | nil => exact ⟨[], state, begun, fun rest => rfl⟩
  | cons c text ih =>
    have shorter : column + (c :: text).length = column + 1 + text.length := by
      rw [List.length_cons]
      omega
    obtain ⟨settled, next, begun, first⟩ := scan_cons begun c
    obtain ⟨more, after, begun, later⟩ := ih begun
    refine ⟨settled ++ more, after, shorter ▸ begun, fun rest => ?_⟩
    rw [List.cons_append, first, later, shorter, List.append_assoc]

theorem scan_append_return (text : List Char) :
    scan .between 0 (text ++ ['\r']) = scan .between 0 text
      ∨ ∃ lexeme ∈ scan .between 0 (text ++ ['\r']), ∃ rest, lexeme.token = .unterminated rest := by
  have begun : ScanState.Begun 0 .between := trivial
  obtain ⟨settled, after, -, scanned⟩ := scan_append begun text
  have shorter := scanned []
  rw [List.append_nil] at shorter
  rw [scanned, shorter]
  cases after with
  | between => exact .inl rfl
  | inWord start seen => exact .inl rfl
  | inQuotes start seen =>
    exact .inr ⟨_, List.mem_append_right _ List.mem_cons_self, _, rfl⟩

theorem isComment_append_return (text : List Char) :
    isComment (text ++ ['\r']) = isComment text := by
  have blank : isBlank '\r' = true := by decide
  unfold isComment
  rw [List.dropWhile_append]
  split
  · rename_i all
    rw [List.isEmpty_iff.1 all, List.dropWhile_cons_of_pos blank]
    rfl
  · rename_i some
    rw [List.head?_append_of_ne_nil]
    simpa using some

theorem lex_trimReturn {line : List Char}
    (closed : ∀ lexeme ∈ lex line, ∀ rest, lexeme.token ≠ .unterminated rest) :
    lex (trimReturn line) = lex line := by
  rcases trimReturn_eq line with same | longer
  · rw [same]
  · generalize trimReturn line = shorter at longer
    subst longer
    unfold lex at closed ⊢
    rw [isComment_append_return] at closed ⊢
    split
    · rfl
    · rename_i code
      rw [if_neg code] at closed
      rcases scan_append_return shorter with same | ⟨lexeme, mem, rest, opened⟩
      · exact same.symm
      · exact absurd opened (closed lexeme mem rest)

end StackMachine
