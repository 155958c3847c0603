import StackMachine.Proofs.Lexing
import StackMachine.Proofs.Spelling

/-!
The text of a line is its tokens with one space between them. Scanning that text
finds the same tokens again: a space ends every word, a closed text ends itself,
and a text that is not closed is the last token. The one exception is a text
that opens like a comment. That happens only where commas stood in front of a
`#`, since a comma is passed over between tokens but is not blank.
-/

namespace StackMachine

def spaced (lexemes : List Lexeme) : List Char :=
  List.intercalate [' '] (lexemes.map fun lexeme => lexeme.token.characters)

def spacedBehind : List Lexeme → List Char
  | [] => []
  | lexemes => ' ' :: spaced lexemes

theorem spaced_cons (lexeme : Lexeme) (lexemes : List Lexeme) :
    spaced (lexeme :: lexemes) = lexeme.token.characters ++ spacedBehind lexemes := by
  cases lexemes with
  | nil => simp [spaced, spacedBehind]
  | cons next rest => simp [spaced, spacedBehind, List.intercalate_cons_cons]

theorem Line.toList_text (line : Line) : line.text.toList = spaced line.lexemes := by
  simp only [Line.text, String.toList_intercalate, List.map_map, Function.comp_def, Token.text,
    String.toList_ofList]
  rfl

theorem head?_spacedBehind (lexemes : List Lexeme) :
    ∀ c ∈ (spacedBehind lexemes).head?, isSeparator c = true := by
  intro c head
  cases lexemes with
  | nil => cases head
  | cons lexeme rest =>
    cases head
    rfl

theorem Token.Fits.scan_spaced {token : Token} {text rest : List Char} (fits : token.Fits text)
    (ends : ∀ c ∈ rest.head?, isSeparator c = true) (last : text = [] → rest = [])
    (column : Nat) :
    ∃ span next, scan .between column (token.characters ++ rest) =
      ⟨span, token⟩ :: scan .between next rest := by
  cases fits with
  | word nonempty characters =>
    rw [characters_ofWord]
    exact ⟨_, _, scan_word nonempty characters ends column⟩
  | @quoted inner text inside =>
    have other : ∀ c ∈ inner, c ≠ '"' := fun c mem same => inside (same ▸ mem)
    obtain ⟨span, next, read⟩ := scan_quoted other rest column
    refine ⟨span, next, ?_⟩
    rw [← read, Token.characters, String.toList_ofList, List.append_assoc]
    rfl
  | @unterminated inner inside =>
    have other : ∀ c ∈ inner, c ≠ '"' := fun c mem same => inside (same ▸ mem)
    refine ⟨⟨column, column + 1 + inner.length⟩, 0, ?_⟩
    rw [last rfl, Token.characters, String.toList_ofList, scan_opened other, scan, scan,
      List.reverse_reverse]

namespace Lexed

variable {column : Nat} {text : List Char} {lexemes : List Lexeme}

theorem tokens_spaced (lexed : Lexed column text lexemes) (start : Nat) :
    (scan .between start (spaced lexemes)).map Lexeme.token = lexemes.map Lexeme.token := by
  induction lexed generalizing start with
  | done => rfl
  | gap separator later ih => exact ih start
  | @token column token rest lexemes fits later ih =>
    have last : rest = [] → spacedBehind lexemes = [] := by
      rintro rfl
      rw [later.eq_nil]
      rfl
    obtain ⟨span, next, read⟩ := fits.scan_spaced (head?_spacedBehind lexemes) last start
    have others : (scan .between next (spacedBehind lexemes)).map Lexeme.token =
        lexemes.map Lexeme.token := by
      cases lexemes with
      | nil => rfl
      | cons lexeme lexemes =>
        have gap : isSeparator ' ' = true := rfl
        rw [spacedBehind, scan, if_pos gap]
        · exact ih (next + 1)
        · simp
    rw [spaced_cons, read, List.map_cons, others, List.map_cons]

end Lexed

theorem Commented.of_append {first second : List Char} (comment : Commented (first ++ second)) :
    Commented first ∨ (∀ c ∈ first, isBlank c = true) ∧ Commented second := by
  obtain ⟨blanks, rest, split, blank⟩ := comment
  rcases List.append_eq_append_iff.1 split with ⟨more, rfl, rfl⟩ | ⟨more, rfl, tail⟩
  · rw [List.forall_mem_append] at blank
    exact .inr ⟨blank.1, more, rest, rfl, blank.2⟩
  · cases more with
    | nil => exact .inr ⟨by simpa using blank, [], rest, tail.symm, by simp⟩
    | cons c more =>
      obtain ⟨rfl, -⟩ := List.cons.inj tail
      exact .inl ⟨blanks, more, rfl, blank⟩

theorem Commented.of_spacedBehind {lexemes : List Lexeme}
    (comment : Commented (spacedBehind lexemes)) : Commented (spaced lexemes) := by
  cases lexemes with
  | nil => exact comment
  | cons lexeme lexemes =>
    rcases Commented.of_append (show Commented ([' '] ++ spaced _) from comment) with space | later
    · have plain : isComment [' '] = false := by decide
      rw [← isComment_iff, plain] at space
      cases space
    · exact later.2

theorem isBlank_of_isSeparator {c : Char} (separator : isSeparator c = true) :
    isBlank c = true ∨ c = ',' := by
  simp only [isSeparator_iff, separators, List.mem_cons, List.not_mem_nil, or_false] at separator
  rcases separator with rfl | rfl | rfl | rfl | rfl
  all_goals decide

theorem Lexed.of_commented {column : Nat} {text : List Char} {lexemes : List Lexeme}
    (lexed : Lexed column text lexemes) (comment : Commented (spaced lexemes)) :
    ∃ before after, text = before ++ '#' :: after ∧ ∀ c ∈ before, isBlank c = true ∨ c = ',' := by
  induction lexed with
  | done =>
    obtain ⟨blanks, rest, nothing, -⟩ := comment
    simp [spaced] at nothing
  | @gap column c rest lexemes separator later ih =>
    obtain ⟨before, after, rfl, passed⟩ := ih comment
    exact ⟨c :: before, after, rfl,
      List.forall_mem_cons.2 ⟨isBlank_of_isSeparator separator, passed⟩⟩
  | @token column token rest lexemes fits later ih =>
    rw [spaced_cons] at comment
    obtain ⟨blanks, others, same, blank⟩ | ⟨blank, comment⟩ := comment.of_append
    · refine ⟨blanks, others ++ rest, ?_, fun c mem => .inl (blank c mem)⟩
      rw [same, List.append_assoc, List.cons_append]
    · obtain ⟨before, after, rfl, passed⟩ := ih comment.of_spacedBehind
      refine ⟨token.characters ++ before, after, (List.append_assoc _ _ _).symm, ?_⟩
      exact List.forall_mem_append.2 ⟨fun c mem => .inl (blank c mem), passed⟩

theorem comma_of_commented {text : List Char} (tokens : lex text ≠ [])
    (comment : Commented (spaced (lex text))) :
    ∃ before after, text = before ++ '#' :: after ∧ '#' ∉ before ∧ ',' ∈ before := by
  have code : isComment text = false := by
    rw [← Bool.not_eq_true]
    exact mt lex_of_isComment tokens
  obtain ⟨before, after, rfl, passed⟩ := (lexed_lex code).of_commented comment
  refine ⟨before, after, rfl, fun mem => ?_, ?_⟩
  · have visible : ¬ (isBlank '#' = true ∨ '#' = ',') := by decide
    exact visible (passed _ mem)
  · by_contra none
    -- with blanks only in front, the line itself would be a comment
    have blank : ∀ c ∈ before, isBlank c = true := fun c mem =>
      (passed c mem).resolve_right fun same => none (same ▸ mem)
    rw [isComment_iff.2 ⟨before, after, rfl, blank⟩] at code
    cases code

theorem tokens_lex_spaced {text : List Char} (code : ¬ Commented (spaced (lex text))) :
    (lex (spaced (lex text))).map Lexeme.token = (lex text).map Lexeme.token := by
  rw [← isComment_iff, Bool.not_eq_true] at code
  rw [lex.eq_1 (spaced _), code, if_neg Bool.false_ne_true]
  cases comment : isComment text with
  | true =>
    rw [lex_of_isComment comment]
    rfl
  | false => exact (lexed_lex comment).tokens_spaced 0

theorem Line.text_congr {line other : Line}
    (same : line.lexemes.map Lexeme.token = other.lexemes.map Lexeme.token) :
    line.text = other.text := by
  have texts := congrArg (List.map Token.text) same
  rw [List.map_map, List.map_map] at texts
  exact congrArg (" ".intercalate ·) texts

/-- A line's text has the same tokens as the line, and is its own text, unless it
is a comment. If it is one, though the line has tokens, then the line has a comma
before its first `#`. -/
theorem respaced_line_reads_alike (number : Nat) (text : List Char) :
    let shown := (Line.read number text).text.toList
    (¬ Commented shown →
        (lex shown).map Lexeme.token = (lex text).map Lexeme.token
          ∧ (Line.read number shown).text = (Line.read number text).text)
      ∧ (lex text ≠ [] → Commented shown →
        ∃ before after, text = before ++ '#' :: after ∧ '#' ∉ before ∧ ',' ∈ before) := by
  intro shown
  have same : shown = spaced (lex text) := Line.toList_text _
  rw [same]
  refine ⟨fun code => ?_, comma_of_commented⟩
  have tokens := tokens_lex_spaced code
  exact ⟨tokens, Line.text_congr tokens⟩

def uncoveredLine : List Char :=
  ",\u3000# x".toList

theorem respaced_line_reads_alike_of_crowdedLine :
    ((Line.read 7 crowdedLine).text = "é: : \"a, b:\" x: \"\t"
        ∧ ¬ Commented (Line.read 7 crowdedLine).text.toList
        ∧ (lex (Line.read 7 crowdedLine).text.toList).map Lexeme.token =
          (lex crowdedLine).map Lexeme.token
        ∧ (Line.read 7 (Line.read 7 crowdedLine).text.toList).text = (Line.read 7 crowdedLine).text)
      ∧ lex uncoveredLine ≠ []
        ∧ Commented (Line.read 7 uncoveredLine).text.toList
        ∧ ∃ before after, uncoveredLine = before ++ '#' :: after ∧ '#' ∉ before ∧ ',' ∈ before := by
  have code : ¬ Commented (Line.read 7 crowdedLine).text.toList := by
    rw [← isComment_iff]
    decide
  have comment : Commented (Line.read 7 uncoveredLine).text.toList := by
    rw [← isComment_iff]
    decide
  have tokens : lex uncoveredLine ≠ [] := by decide
  exact ⟨⟨by decide, code, (respaced_line_reads_alike 7 crowdedLine).1 code⟩, tokens, comment,
    (respaced_line_reads_alike 7 uncoveredLine).2 tokens comment⟩

end StackMachine
