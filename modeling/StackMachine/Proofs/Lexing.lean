import StackMachine.Proofs.Layout

/-!
What the scanner makes of a line. `Lexed` cuts a text into separators and
tokens, each token with the columns that its characters take, and says where a
token may end. The scanner cuts every text this way: at each character, what it
holds of a token and what is still to come are cut like the tokens it returns.
From the cut follow the columns, that nothing but separators lies outside of
them, and that only an odd number of quotes leaves a text open.
-/

namespace StackMachine

namespace Span

def slice (span : Span) (line : List Char) : List Char :=
  (line.drop span.start).take (span.stop - span.start)

theorem slice_append (left text right : List Char) :
    slice ⟨left.length, left.length + text.length⟩ (left ++ text ++ right) = text := by
  simp [slice, List.append_assoc]

end Span

namespace Token

def isBare : Token → Bool
  | .word _ | .label _ => true
  | .quoted _ | .unterminated _ => false

/-- The token can be cut off where `rest` follows. A word goes on as far as it
can, and a text that is not closed to the end of the line. -/
inductive Fits : Token → List Char → Prop where
  | word {word rest : List Char} (nonempty : word ≠ [])
      (characters : ∀ c ∈ word, isWordCharacter c = true)
      (ends : ∀ c ∈ rest.head?, isWordCharacter c = false) : Fits (.ofWord word) rest
  | quoted {text rest : List Char} (inside : '"' ∉ text) : Fits (.quoted (String.ofList text)) rest
  | unterminated {text : List Char} (inside : '"' ∉ text) :
      Fits (.unterminated (String.ofList ('"' :: text))) []

variable {token : Token} {rest : List Char}

theorem isBare_ofWord (word : List Char) : (ofWord word).isBare = true := by
  unfold ofWord
  split <;> rfl

theorem Fits.characters_ne_nil (fits : token.Fits rest) : token.characters ≠ [] := by
  cases fits with
  | word nonempty => rwa [characters_ofWord]
  | quoted inside => simp [characters]
  | unterminated inside => simp [characters]

theorem Fits.bare (fits : token.Fits rest) (bare : token.isBare = true) :
    token = .ofWord token.characters ∧ (∀ c ∈ token.characters, isWordCharacter c = true)
      ∧ ∀ c ∈ rest.head?, isWordCharacter c = false := by
  cases fits with
  | word nonempty characters ends =>
    rw [characters_ofWord]
    exact ⟨rfl, characters, ends⟩
  | quoted inside => cases bare
  | unterminated inside => cases bare

theorem Fits.closed (fits : token.Fits rest) (closed : token.isBare = false) :
    (∃ text, token = .quoted (String.ofList text) ∧ '"' ∉ text)
      ∨ ∃ text, token = .unterminated (String.ofList ('"' :: text)) ∧ '"' ∉ text ∧ rest = [] := by
  cases fits with
  | word nonempty characters ends =>
    rw [isBare_ofWord] at closed
    cases closed
  | quoted inside => exact .inl ⟨_, rfl, inside⟩
  | unterminated inside => exact .inr ⟨_, rfl, inside, rfl⟩

theorem Fits.not_mem_quoted {text : String} (fits : Fits (.quoted text) rest) :
    '"' ∉ text.toList := by
  obtain ⟨found, same, inside⟩ | ⟨found, same, -⟩ := fits.closed rfl
  · cases same
    rwa [String.toList_ofList]
  · cases same

theorem Fits.rest_of_unterminated {text : String} (fits : Fits (.unterminated text) rest) :
    rest = [] := by
  obtain ⟨found, same, -⟩ | ⟨found, -, -, nothing⟩ := fits.closed rfl
  · cases same
  · exact nothing

theorem Fits.count_quote (fits : token.Fits rest) :
    (∃ text, token = .unterminated text) ∧ token.characters.count '"' % 2 = 1
      ∨ (∀ text, token ≠ .unterminated text) ∧ token.characters.count '"' % 2 = 0 := by
  cases fits with
  | @word word rest nonempty characters ends =>
    have quoteless : '"' ∉ word := by
      intro mem
      have letter := characters _ mem
      cases letter
    refine .inr ⟨fun text same => ?_, ?_⟩
    · have bare := same ▸ isBare_ofWord word
      cases bare
    · rw [characters_ofWord, List.count_eq_zero_of_not_mem quoteless]
  | quoted inside =>
    refine .inr ⟨fun text => by simp, ?_⟩
    simp [Token.characters, List.count_eq_zero_of_not_mem inside]
  | unterminated inside =>
    refine .inl ⟨⟨_, rfl⟩, ?_⟩
    simp [Token.characters, List.count_eq_zero_of_not_mem inside]

end Token

/-- A text from `column` on, cut into separators and tokens. -/
inductive Lexed : Nat → List Char → List Lexeme → Prop where
  | done {column : Nat} : Lexed column [] []
  | gap {column : Nat} {c : Char} {rest : List Char} {lexemes : List Lexeme}
      (separator : isSeparator c = true) (later : Lexed (column + 1) rest lexemes) :
      Lexed column (c :: rest) lexemes
  | token {column : Nat} {token : Token} {rest : List Char} {lexemes : List Lexeme}
      (fits : token.Fits rest) (later : Lexed (column + token.characters.length) rest lexemes) :
      Lexed column (token.characters ++ rest)
        (⟨⟨column, column + token.characters.length⟩, token⟩ :: lexemes)

namespace ScanState

def origin (column : Nat) : ScanState → Nat
  | .between => column
  | .inWord start _ | .inQuotes start _ => start

def held : ScanState → List Char
  | .between => []
  | .inWord _ seen => seen.reverse
  | .inQuotes _ seen => '"' :: seen.reverse

/-- What is held are the columns up to the current one, and no token is complete yet. -/
def Holds (column : Nat) : ScanState → Prop
  | .between => True
  | .inWord start seen =>
      seen ≠ [] ∧ (∀ c ∈ seen, isWordCharacter c = true) ∧ column = start + seen.length
  | .inQuotes start seen => '"' ∉ seen ∧ column = start + seen.length + 1

end ScanState

namespace Lexed

variable {column : Nat} {text rest : List Char} {lexemes : List Lexeme}

theorem word {word : List Char} (nonempty : word ≠ [])
    (characters : ∀ c ∈ word, isWordCharacter c = true)
    (ends : ∀ c ∈ rest.head?, isWordCharacter c = false)
    (later : Lexed (column + word.length) rest lexemes) :
    Lexed column (word ++ rest)
      (⟨⟨column, column + word.length⟩, .ofWord word⟩ :: lexemes) := by
  have fits : (Token.ofWord word).Fits rest := .word nonempty characters ends
  have whole := @Lexed.token column _ rest lexemes fits
  rw [Token.characters_ofWord] at whole
  exact whole later

theorem quoted {text : List Char} (inside : '"' ∉ text)
    (later : Lexed (column + text.length + 2) rest lexemes) :
    Lexed column ('"' :: text ++ '"' :: rest)
      (⟨⟨column, column + text.length + 2⟩, .quoted (String.ofList text)⟩ :: lexemes) := by
  have fits : (Token.quoted (String.ofList text)).Fits rest := .quoted inside
  have whole := @Lexed.token column _ rest lexemes fits
  simp only [Token.characters, String.toList_ofList] at whole
  simpa [Nat.add_assoc] using whole (by simpa [Nat.add_assoc] using later)

theorem unterminated {text : List Char} (inside : '"' ∉ text) :
    Lexed column ('"' :: text)
      [⟨⟨column, column + text.length + 1⟩, .unterminated (String.ofList ('"' :: text))⟩] := by
  have fits : (Token.unterminated (String.ofList ('"' :: text))).Fits [] := .unterminated inside
  have whole := @Lexed.token column _ [] [] fits .done
  simpa [Token.characters, Nat.add_assoc] using whole

end Lexed

/-- In every state the scanner cuts what it holds together with the text to come. -/
def Cuts (text : List Char) : Prop :=
  ∀ (state : ScanState) (column : Nat), state.Holds column →
    Lexed (state.origin column) (state.held ++ text) (scan state column text)

namespace Cuts

variable {text : List Char}

theorem nil : Cuts [] := by
  intro state column holds
  cases state with
  | between => exact .done
  | inWord start seen =>
    obtain ⟨nonempty, characters, rfl⟩ := holds
    rw [scan, ScanState.held, ← List.length_reverse]
    exact .word (by simpa using nonempty) (by simpa using characters) (by simp) .done
  | inQuotes start seen =>
    obtain ⟨inside, rfl⟩ := holds
    rw [scan, ScanState.held, ← List.length_reverse, List.append_nil]
    exact .unterminated (by simpa using inside)

theorem between (cuts : Cuts text) (c : Char) (column : Nat) :
    Lexed column (c :: text) (scan .between column (c :: text)) := by
  by_cases gap : isSeparator c = true
  · rw [scan, if_pos gap]
    exact .gap gap (cuts .between (column + 1) trivial)
  rw [scan, if_neg gap]
  split
  · rename_i opens
    rw [opens]
    exact cuts (.inQuotes column []) (column + 1) ⟨by simp, rfl⟩
  · rename_i other
    have letter : isWordCharacter c = true := by simp [isWordCharacter, gap, other]
    exact cuts (.inWord column [c]) (column + 1) ⟨by simp, by simpa using letter, rfl⟩

theorem inWord (cuts : Cuts text) (c : Char) {start : Nat} {seen : List Char}
    (nonempty : seen ≠ []) (characters : ∀ c ∈ seen, isWordCharacter c = true) :
    Lexed start (seen.reverse ++ c :: text)
      (scan (.inWord start seen) (start + seen.length) (c :: text)) := by
  by_cases letter : isWordCharacter c = true
  · obtain ⟨inside, other⟩ := isSeparator_of_isWordCharacter letter
    have longer := cuts (.inWord start (c :: seen)) (start + seen.length + 1)
      ⟨by simp, List.forall_mem_cons.2 ⟨letter, characters⟩, rfl⟩
    rw [ScanState.held, List.reverse_cons, List.append_assoc] at longer
    rw [scan, if_neg (by simp [inside]), if_neg other]
    exact longer
  · have complete : scan (.inWord start seen) (start + seen.length) (c :: text) =
        ⟨⟨start, start + seen.length⟩, .ofWord seen.reverse⟩
          :: scan .between (start + seen.length) (c :: text) := by
      by_cases gap : isSeparator c = true
      · simp only [scan, gap, if_true]
      · have opens : c = '"' := by simpa [isWordCharacter, gap] using letter
        simp only [scan, if_neg gap, if_pos opens]
    have ends : ∀ d ∈ (c :: text).head?, isWordCharacter d = false := by
      rintro d ⟨⟩
      simpa using letter
    rw [complete, ← List.length_reverse]
    exact .word (by simpa using nonempty) (by simpa using characters) ends (cuts.between c _)

theorem inQuotes (cuts : Cuts text) (c : Char) {start : Nat} {seen : List Char}
    (inside : '"' ∉ seen) :
    Lexed start ('"' :: seen.reverse ++ c :: text)
      (scan (.inQuotes start seen) (start + seen.length + 1) (c :: text)) := by
  rw [scan]
  split
  · rename_i closes
    rw [closes, ← List.length_reverse]
    exact .quoted (by simpa using inside) (cuts .between _ trivial)
  · rename_i other
    have longer := cuts (.inQuotes start (c :: seen)) (start + seen.length + 1 + 1)
      ⟨by simp [inside, Ne.symm other], rfl⟩
    rw [ScanState.held, List.reverse_cons, ← List.cons_append, List.append_assoc] at longer
    exact longer

theorem cons (cuts : Cuts text) (c : Char) : Cuts (c :: text) := by
  intro state column holds
  cases state with
  | between => exact cuts.between c column
  | inWord start seen =>
    obtain ⟨nonempty, characters, rfl⟩ := holds
    exact cuts.inWord c nonempty characters
  | inQuotes start seen =>
    obtain ⟨inside, rfl⟩ := holds
    exact cuts.inQuotes c inside

end Cuts

theorem cuts (text : List Char) : Cuts text := by
  induction text with
  | nil => exact .nil
  | cons c text ih => exact ih.cons c

theorem lexed_lex {line : List Char} (code : isComment line = false) : Lexed 0 line (lex line) := by
  rw [lex, code, if_neg Bool.false_ne_true]
  exact cuts line .between 0 trivial

namespace Lexed

variable {column : Nat} {text : List Char} {lexemes : List Lexeme} {lexeme : Lexeme}

theorem split (lexed : Lexed column text lexemes) (mem : lexeme ∈ lexemes) :
    ∃ left right, text = left ++ lexeme.token.characters ++ right ∧ lexeme.token.Fits right
      ∧ lexeme.span =
        ⟨column + left.length, column + left.length + lexeme.token.characters.length⟩ := by
  induction lexed with
  | done => cases mem
  | @gap column c rest lexemes separator later ih =>
    obtain ⟨left, right, rfl, fits, place⟩ := ih mem
    refine ⟨c :: left, right, rfl, fits, ?_⟩
    rw [place, List.length_cons, Nat.add_assoc, Nat.add_comm 1]
  | @token column token rest lexemes fits later ih =>
    rcases List.mem_cons.1 mem with rfl | mem
    · exact ⟨[], rest, rfl, fits, rfl⟩
    · obtain ⟨left, right, rfl, fits, place⟩ := ih mem
      refine ⟨token.characters ++ left, right, by simp only [List.append_assoc], fits, ?_⟩
      rw [place, List.length_append, Nat.add_assoc]

theorem column_le_start (lexed : Lexed column text lexemes) (mem : lexeme ∈ lexemes) :
    column ≤ lexeme.span.start := by
  obtain ⟨left, right, -, -, place⟩ := lexed.split mem
  rw [place]
  exact Nat.le_add_right column left.length

theorem start_lt_stop (lexed : Lexed column text lexemes) (mem : lexeme ∈ lexemes) :
    lexeme.span.start < lexeme.span.stop := by
  obtain ⟨left, right, -, fits, place⟩ := lexed.split mem
  have length := List.length_pos_of_ne_nil fits.characters_ne_nil
  rw [place]
  exact Nat.lt_add_of_pos_right length

theorem slice_eq (lexed : Lexed 0 text lexemes) (mem : lexeme ∈ lexemes) :
    lexeme.span.slice text = lexeme.token.characters := by
  obtain ⟨left, right, rfl, -, place⟩ := lexed.split mem
  rw [place, Nat.zero_add, Span.slice_append]

theorem rising (lexed : Lexed column text lexemes) :
    lexemes.Pairwise fun a b => a.span.stop ≤ b.span.start := by
  induction lexed with
  | done => exact .nil
  | gap separator later ih => exact ih
  | token fits later ih => exact List.pairwise_cons.2 ⟨fun b mem => later.column_le_start mem, ih⟩

theorem isSeparator_of_outside (lexed : Lexed column text lexemes) {i : Nat} {c : Char}
    (here : text[i]? = some c) (outside : ∀ lexeme ∈ lexemes, ¬ lexeme.span.Covers (column + i)) :
    isSeparator c = true := by
  induction lexed generalizing i with
  | done => cases here
  | @gap column d rest lexemes separator later ih =>
    cases i with
    | zero =>
      cases here
      exact separator
    | succ i =>
      rw [Nat.add_comm i, ← Nat.add_assoc] at outside
      exact ih here outside
  | @token column token rest lexemes fits later ih =>
    obtain ⟨first, others⟩ := List.forall_mem_cons.1 outside
    -- a character of the first token would lie in its columns
    have behind : token.characters.length ≤ i := by
      by_contra before
      exact first ⟨Nat.le_add_right column i, by simp only; omega⟩
    rw [List.getElem?_append_right behind] at here
    have same : column + token.characters.length + (i - token.characters.length) = column + i := by
      omega
    exact ih here (same ▸ others)

theorem eq_nil (lexed : Lexed column [] lexemes) : lexemes = [] := by
  cases lexemes with
  | nil => rfl
  | cons first rest =>
    obtain ⟨left, right, nothing, fits, -⟩ := lexed.split List.mem_cons_self
    simp [fits.characters_ne_nil] at nothing

theorem getLast?_of_unterminated (lexed : Lexed column text lexemes) (mem : lexeme ∈ lexemes)
    {opened : String} (found : lexeme.token = .unterminated opened) :
    lexemes.getLast? = some lexeme := by
  induction lexed with
  | done => cases mem
  | gap separator later ih => exact ih mem
  | @token column token rest lexemes fits later ih =>
    rcases List.mem_cons.1 mem with rfl | mem
    · obtain rfl : token = .unterminated opened := found
      obtain rfl := fits.rest_of_unterminated
      rw [later.eq_nil]
      rfl
    · rw [List.getLast?_cons, ih mem]
      rfl

theorem unterminated_iff (lexed : Lexed column text lexemes) :
    (∃ lexeme ∈ lexemes, ∃ opened, lexeme.token = .unterminated opened) ↔
      text.count '"' % 2 = 1 := by
  induction lexed with
  | done => simp
  | @gap column c rest lexemes separator later ih =>
    have other : c ≠ '"' := by
      rintro rfl
      cases separator
    rw [ih, List.count_cons_of_ne other]
  | @token column token rest lexemes fits later ih =>
    rw [List.count_append]
    rcases fits.count_quote with ⟨⟨opened, rfl⟩, odd⟩ | ⟨closed, even⟩
    · obtain rfl := fits.rest_of_unterminated
      exact iff_of_true ⟨_, List.mem_cons_self, opened, rfl⟩ (by simpa using odd)
    · rw [Nat.add_mod, even, Nat.zero_add, Nat.mod_mod, ← ih]
      simp [closed]

end Lexed

def separators : List Char :=
  [' ', '\t', '\r', '\n', ',']

theorem isSeparator_iff {c : Char} : isSeparator c = true ↔ c ∈ separators := by
  simp [isSeparator, separators, or_assoc]

/-- The first character behind the blanks is `#`. -/
def Commented (line : List Char) : Prop :=
  ∃ blanks rest, line = blanks ++ '#' :: rest ∧ ∀ c ∈ blanks, isBlank c = true

theorem isComment_iff {line : List Char} : isComment line = true ↔ Commented line := by
  rw [isComment, beq_iff_eq]
  constructor
  · intro first
    obtain ⟨rest, visible⟩ := List.head?_eq_some_iff.1 first
    refine ⟨line.takeWhile isBlank, rest, ?_, List.all_eq_true.1 List.all_takeWhile⟩
    rw [← visible, List.takeWhile_append_dropWhile]
  · rintro ⟨blanks, rest, rfl, blank⟩
    have visible : isBlank '#' = false := by decide
    rw [List.dropWhile_append_of_pos blank, List.dropWhile_cons_of_neg (by simp [visible])]
    rfl

/-- The tokens of a line and the separators between them are the whole line, and
no token could have gone on. -/
structure Lossless (characters : List Char) (lexemes : List Lexeme) : Prop where
  within : ∀ lexeme ∈ lexemes,
    lexeme.span.start < lexeme.span.stop ∧ lexeme.span.stop ≤ characters.length
  rising : lexemes.Pairwise fun a b =>
    a.span.start < b.span.start ∧ a.span.stop ≤ b.span.start
  spelt : ∀ lexeme ∈ lexemes, String.ofList (lexeme.span.slice characters) = lexeme.token.text
  gaps : ∀ column c, characters[column]? = some c →
    (∀ lexeme ∈ lexemes, ¬ lexeme.span.Covers column) → c ∈ separators
  bare : ∀ lexeme ∈ lexemes, lexeme.token.isBare = true →
    (∀ c ∈ lexeme.span.slice characters, c ∉ separators ∧ c ≠ '"')
      ∧ ∀ c, characters[lexeme.span.stop]? = some c → c ∈ separators ∨ c = '"'
  labels : ∀ lexeme ∈ lexemes, lexeme.token.isBare = true →
    ((∃ name, lexeme.token = .label name) ↔
      1 < (lexeme.span.slice characters).length
        ∧ (lexeme.span.slice characters).getLast? = some ':')
  quoted : ∀ lexeme ∈ lexemes, ∀ text, lexeme.token = .quoted text → '"' ∉ text.toList
  unterminated : ∀ lexeme ∈ lexemes, ∀ text, lexeme.token = .unterminated text →
    lexemes.getLast? = some lexeme ∧ lexeme.span.stop = characters.length
  odd : (∃ lexeme ∈ lexemes, ∃ text, lexeme.token = .unterminated text) ↔
    characters.count '"' % 2 = 1

theorem Token.ofWord_eq_label_iff {word : List Char} :
    (∃ name, ofWord word = .label name) ↔ 1 < word.length ∧ word.getLast? = some ':' := by
  unfold ofWord
  split <;> simp_all

theorem Lexed.lossless {line : List Char} {lexemes : List Lexeme} (lexed : Lexed 0 line lexemes) :
    Lossless line lexemes where
  within lexeme mem := by
    obtain ⟨left, right, rfl, fits, place⟩ := lexed.split mem
    refine ⟨lexed.start_lt_stop mem, ?_⟩
    simp only [place, List.length_append]
    omega
  rising := by
    refine lexed.rising.imp_of_mem fun {a b} first second behind => ⟨?_, behind⟩
    exact Nat.lt_of_lt_of_le (lexed.start_lt_stop first) behind
  spelt lexeme mem := by
    rw [lexed.slice_eq mem]
    rfl
  gaps column c here outside :=
    isSeparator_iff.1 (lexed.isSeparator_of_outside here (by simpa using outside))
  bare lexeme mem bare := by
    rw [lexed.slice_eq mem]
    obtain ⟨left, right, rfl, fits, place⟩ := lexed.split mem
    obtain ⟨-, characters, ends⟩ := fits.bare bare
    simp only [← isSeparator_iff, Bool.not_eq_true]
    refine ⟨fun c inside => isSeparator_of_isWordCharacter (characters c inside), fun c next => ?_⟩
    have follows : right[0]? = some c := by
      rwa [place, Nat.zero_add, ← List.length_append, List.getElem?_append_right (Nat.le_refl _),
        Nat.sub_self] at next
    have other := ends c (by rwa [List.head?_eq_getElem?])
    simpa [isWordCharacter, imp_iff_not_or, or_comm] using other
  labels lexeme mem bare := by
    rw [lexed.slice_eq mem]
    obtain ⟨left, right, -, fits, -⟩ := lexed.split mem
    have word := (fits.bare bare).1
    rw [← Token.ofWord_eq_label_iff, ← word]
  quoted lexeme mem text token := by
    obtain ⟨left, right, -, fits, -⟩ := lexed.split mem
    rw [token] at fits
    exact fits.not_mem_quoted
  unterminated lexeme mem text token := by
    refine ⟨lexed.getLast?_of_unterminated mem token, ?_⟩
    obtain ⟨left, right, rfl, fits, place⟩ := lexed.split mem
    rw [token] at fits
    rw [place, fits.rest_of_unterminated, List.append_nil, List.length_append, Nat.zero_add]
  odd := lexed.unterminated_iff

/-- A comment has no tokens. Every other line is its tokens, each at its columns
and as long as it can be, with nothing but separators outside of them. -/
theorem lex_loses_nothing (line : List Char) :
    (Commented line → lex line = []) ∧ (¬ Commented line → Lossless line (lex line)) := by
  rw [← isComment_iff, Bool.not_eq_true]
  exact ⟨lex_of_isComment, fun code => (lexed_lex code).lossless⟩

/-- Words and texts without a separator between them, a colon of its own, a
label next to a quote, characters of several bytes, and a quote that stays open. -/
def crowdedLine : List Char :=
  "é:,: \"a, b:\"x:\"\t".toList

theorem lex_loses_nothing_of_crowdedLine :
    ¬ Commented crowdedLine
      ∧ lex crowdedLine = [⟨⟨0, 2⟩, .label "é"⟩, ⟨⟨3, 4⟩, .word ":"⟩, ⟨⟨5, 12⟩, .quoted "a, b:"⟩,
        ⟨⟨12, 14⟩, .label "x"⟩, ⟨⟨14, 16⟩, .unterminated "\"\t"⟩]
      ∧ Lossless crowdedLine (lex crowdedLine)
      ∧ Commented " \u3000# é".toList ∧ lex " \u3000# é".toList = [] := by
  have code : ¬ Commented crowdedLine := by
    rw [← isComment_iff]
    decide
  have comment : Commented " \u3000# é".toList := by
    rw [← isComment_iff]
    decide
  exact ⟨code, by decide, (lex_loses_nothing crowdedLine).2 code, comment,
    (lex_loses_nothing _).1 comment⟩

end StackMachine
