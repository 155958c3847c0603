import StackMachine.Proofs.Acceptance
import StackMachine.Proofs.Layout

/-!
Joined sources. Two sources with a newline between them assemble to the code of
the first and, behind it, the code of the second with its labels moved up by the
size of the first. Labels must not be declared in both of them: the first one
that is declared again is the error.
-/

namespace StackMachine

theorem LineForm.closed {lexemes : List Lexeme} {names : List String}
    {statement : Option (Opcode × List Lexeme)} (form : LineForm lexemes names statement) :
    ∀ lexeme ∈ lexemes, ∀ rest, lexeme.token ≠ .unterminated rest := by
  induction form with
  | blank => nofun
  | statement spells count kinds =>
    refine List.forall_mem_cons.2 ⟨fun rest => nofun, fun operand mem rest opened => ?_⟩
    have kind := kinds operand mem
    rw [opened] at kind
    cases kind
  | label form ih => exact List.forall_mem_cons.2 ⟨fun rest => nofun, ih⟩

namespace Line

@[simp]
theorem labels_renumber (f : Nat → Nat) (line : Line) :
    (line.renumber f).labels = line.labels := rfl

@[simp]
theorem statement?_renumber (f : Nat → Nat) (line : Line) :
    (line.renumber f).statement? = line.statement?.map (Statement.renumber f) := by
  obtain ⟨number, lexemes⟩ := line
  unfold statement? renumber
  induction lexemes with
  | nil => rfl
  | cons lexeme lexemes ih =>
    obtain ⟨span, token⟩ := lexeme
    cases token with
    | label name => exact ih
    | word word =>
      simp only [Statement.ofLexemes?, Option.map_map]
      rfl
    | quoted text => rfl
    | unterminated text => rfl

end Line

namespace Draft

variable {base small large : Draft}

/-- The larger draft holds what the smaller one holds, behind a base. -/
structure Behind (base small large : Draft) : Prop where
  nextAddress : large.nextAddress = small.nextAddress + base.nextAddress
  address? : ∀ name, large.address? name =
    ((small.address? name).map (· + base.nextAddress)).or (base.address? name)

theorem nextAddress_extend (draft : Draft) (line : Line) :
    (draft.extend line).nextAddress = draft.nextAddress + line.statement?.toList.length := by
  have length := congrArg List.length (statements_extend draft line)
  rwa [List.length_append] at length

theorem Behind.extend (behind : Behind base small large) (f : Nat → Nat) (line : Line) :
    Behind base (small.extend line) (large.extend (line.renumber f)) := by
  refine ⟨?_, fun name => ?_⟩
  · rw [nextAddress_extend, nextAddress_extend, behind.nextAddress, Line.statement?_renumber]
    cases line.statement? with
    | none => rfl
    | some statement => exact Nat.add_right_comm _ _ _
  · rw [address?_extend, address?_extend, Line.labels_renumber, behind.nextAddress, behind.address?]
    split <;> rfl

theorem Behind.foldl (behind : Behind base small large) (f : Nat → Nat) (lines : List Line) :
    Behind base (lines.foldl Draft.extend small)
      ((lines.map (Line.renumber f)).foldl Draft.extend large) := by
  induction lines generalizing small large with
  | nil => exact behind
  | cons line lines ih => exact ih (behind.extend f line)

end Draft

/-- What an operand stands for in code that is moved: labels go along, all else stays. -/
def Token.moved (labels : String → Option Nat) (distance : Nat) : Token → Value → Value
  | .word name, value => (labels name).elim value fun address => .ofNat (address + distance)
  | _, value => value

namespace Denotes

variable {labels others : String → Option Nat} {token : Token} {value : Value}

theorem moved {distance : Nat}
    (names : ∀ name address, labels name = some address → IsLabelName name)
    (risen : ∀ name address, labels name = some address → others name = some (address + distance))
    (denotes : Denotes labels token value) :
    Denotes others token (token.moved labels distance value) := by
  -- no label is called like `nil` or like a literal
  have unlabelled : ∀ word, ¬ IsLabelName word → labels word = none := by
    intro word other
    rw [Option.eq_none_iff_forall_ne_some]
    exact fun address found => other (names word address found)
  cases denotes with
  | text text => exact .text text
  | label found =>
    rw [Token.moved, found]
    exact .label (risen _ _ found)
  | nil =>
    rw [Token.moved, unlabelled "nil" fun name => name.ne_nil rfl]
    exact .nil
  | @literal word n literal =>
    rw [Token.moved, unlabelled word fun name => name.isName.not_isLiteral n literal]
    exact .literal literal

end Denotes

namespace Statement

variable {symbols others : Symbols} {statement : Statement} {instruction : Instruction}

def moved (labels : String → Option Nat) (distance : Nat) (statement : Statement)
    (instruction : Instruction) : Instruction :=
  ⟨instruction.opcode, List.zipWith (fun lexeme => lexeme.token.moved labels distance)
    statement.operands instruction.operands⟩

end Statement

structure Declaration where
  name : String
  line : Nat
  column : Span
deriving DecidableEq

namespace Declaration

def renumber (f : Nat → Nat) (declaration : Declaration) : Declaration :=
  { declaration with line := f declaration.line }

def duplicate (declaration : Declaration) : SourceError :=
  ⟨.duplicateLabel declaration.name, some declaration.line, declaration.column⟩

end Declaration

namespace Draft

variable {draft : Draft} {declaration : Declaration} (taken : String → Bool)

end Draft

section Joined

variable {first second : String} {left right : Program}

end Joined

end StackMachine
