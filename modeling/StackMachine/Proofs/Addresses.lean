import StackMachine.Proofs.Acceptance
import StackMachine.Proofs.Bursts
import StackMachine.Proofs.Instructions

/-!
Labels as addresses. The address of a label is the number of lines with a
statement above its declaration, and what stands at that address is the first
statement written at the declaration or below it. A jump to the label, taken by
any machine that holds the program, goes on exactly there.
-/

namespace StackMachine

theorem le_number_of_mem_readLines {first : Nat} {texts : List (List Char)} {line : Line}
    (mem : line ∈ readLines first texts) : first ≤ line.number := by
  induction texts generalizing first with
  | nil => cases mem
  | cons text texts ih =>
    rcases List.mem_cons.1 mem with rfl | later
    · exact Nat.le_refl first
    · exact Nat.le_of_succ_le (ih later)

theorem rising_readLines (first : Nat) (texts : List (List Char)) :
    (readLines first texts).Pairwise fun a b => a.number < b.number := by
  induction texts generalizing first with
  | nil => exact List.Pairwise.nil
  | cons text texts ih =>
    exact List.pairwise_cons.2 ⟨fun line later => le_number_of_mem_readLines later, ih (first + 1)⟩

theorem rising_sourceLines (source : String) :
    (sourceLines source).Pairwise fun a b => a.number < b.number :=
  (rising_readLines 1 _).filter _

/-- The number of lines with a statement strictly above a line. -/
def statementsAbove (source : String) (number : Nat) : Nat :=
  (sourceLines source).countP fun line => decide (line.number < number) && line.hasStatement

/-- The first line with a statement that is not above a line. -/
def firstStatement? (source : String) (number : Nat) : Option Line :=
  (sourceLines source).find? fun line => line.hasStatement && decide (number ≤ line.number)

theorem getElem?_countP_number {lines : List Line}
    (rising : lines.Pairwise fun a b => a.number < b.number) (number : Nat) :
    lines[lines.countP fun line => decide (line.number < number)]? =
      lines.find? fun line => decide (number ≤ line.number) := by
  induction lines with
  | nil => rfl
  | cons line lines ih =>
    obtain ⟨above, rising⟩ := List.pairwise_cons.1 rising
    by_cases lower : line.number < number
    · rw [List.countP_cons_of_pos (by simpa using lower), List.getElem?_cons_succ, ih rising,
        List.find?_cons_of_neg (by simpa using lower)]
    -- the first line is not above, so no later one is
    · have none_above : lines.countP (fun line => decide (line.number < number)) = 0 := by
        rw [List.countP_eq_zero]
        intro other mem
        have later := above other mem
        simp only [decide_eq_true_eq]
        omega
      rw [List.countP_cons_of_neg (by simpa using lower), none_above,
        List.find?_cons_of_pos (by simpa using lower)]
      rfl

theorem getElem?_statementsAbove (source : String) (number : Nat) :
    ((sourceLines source).filter Line.hasStatement)[statementsAbove source number]? =
      firstStatement? source number := by
  have rising := (rising_sourceLines source).filter Line.hasStatement
  rw [statementsAbove, ← List.countP_filter, getElem?_countP_number rising, List.find?_filter,
    firstStatement?]
  congr 1
  funext line
  rw [Bool.decide_and, Bool.decide_eq_true, Bool.decide_eq_true]

theorem numbers_of_split {source : String} {before after : List Line} {line : Line}
    (split : sourceLines source = before ++ line :: after) :
    (∀ other ∈ before, other.number < line.number)
      ∧ ∀ other ∈ line :: after, line.number ≤ other.number := by
  have rising := rising_sourceLines source
  rw [split, List.pairwise_append, List.pairwise_cons] at rising
  obtain ⟨-, ⟨later, -⟩, earlier⟩ := rising
  refine ⟨fun other mem => earlier other mem line List.mem_cons_self, fun other mem => ?_⟩
  rcases List.mem_cons.1 mem with rfl | mem
  · exact Nat.le_refl _
  · exact Nat.le_of_lt (later other mem)

theorem statementsAbove_of_split {source : String} {before after : List Line} {line : Line}
    (split : sourceLines source = before ++ line :: after) :
    statementsAbove source line.number = before.countP Line.hasStatement := by
  obtain ⟨earlier, later⟩ := numbers_of_split split
  have here : before.countP (fun other => decide (other.number < line.number) && other.hasStatement)
      = before.countP Line.hasStatement := by
    refine List.countP_congr fun other mem => ?_
    simp [earlier other mem]
  have there : (line :: after).countP
      (fun other => decide (other.number < line.number) && other.hasStatement) = 0 := by
    rw [List.countP_eq_zero]
    intro other mem
    simp [Nat.not_lt.2 (later other mem)]
  rw [statementsAbove, split, List.countP_append, here, there, Nat.add_zero]

theorem firstStatement?_of_hasStatement {source : String} {line : Line}
    (mem : line ∈ sourceLines source) (bears : line.hasStatement = true) :
    firstStatement? source line.number = some line := by
  obtain ⟨before, after, split⟩ := List.append_of_mem mem
  refine List.find?_eq_some_iff_append.2 ⟨by simp [bears], before, after, split, fun other mem => ?_⟩
  simp [(numbers_of_split split).1 other mem]

theorem rel_getElem?_of_forall₂ {α β : Type} {R : α → β → Prop} {xs : List α} {ys : List β}
    (related : List.Forall₂ R xs ys) (i : Nat) : Option.Rel R xs[i]? ys[i]? := by
  induction related generalizing i with
  | nil => exact .none
  | cons first rest ih =>
    cases i with
    | zero => exact .some first
    | succ i => exact ih i

namespace Translation

variable {source : String} {program : Program}

theorem instruction_at (translation : Translation source program) (number : Nat) :
    Option.Rel (Translates program.label?) (firstStatement? source number)
      program.instructions[statementsAbove source number]? := by
  rw [← getElem?_statementsAbove, ← Array.getElem?_toList]
  exact rel_getElem?_of_forall₂ translation.instructions _

theorem statementsAbove_le (translation : Translation source program) (number : Nat) :
    statementsAbove source number ≤ program.size := by
  have length := translation.instructions.length_eq
  rw [← List.countP_eq_length_filter, Array.length_toList] at length
  rw [Program.size, ← length]
  exact List.countP_mono_left fun line _ both => (Bool.and_eq_true _ _ ▸ both).2

theorem label?_eq (translation : Translation source program) {line : Line} {name : String}
    (mem : line ∈ sourceLines source) (declares : name ∈ line.labels) :
    program.label? name = some (statementsAbove source line.number) := by
  obtain ⟨before, after, split⟩ := List.append_of_mem mem
  rw [statementsAbove_of_split split]
  exact translation.addresses before line after split name declares

end Translation

namespace Core

variable {core : Core} {instruction : Instruction} {place : Value} {target : Nat}

theorem perform_goto (op : instruction.opcode = .goto)
    (operand : instruction.operand 0 = .ok place) (whole : place.count? = some target) :
    perform instruction core = .ok ⟨.jump target, none⟩ core := by
  simp only [perform, op, Action.bind_eq_ok, Action.check_eq_ok, goto_eq_ok]
  exact ⟨place, core, ⟨operand, rfl⟩, target, whole, rfl, rfl⟩

theorem perform_branch_of_holds {relation : Relation} {next top : Value} {lower : Stack}
    (op : instruction.opcode = .branch relation) (operand : instruction.operand 0 = .ok place)
    (whole : place.count? = some target)
    (popped : Stack.popTwo core.stack = .ok (next, top) lower)
    (holds : relation.holds top next = .ok true) :
    perform instruction core = .ok ⟨.jump target, none⟩ { core with stack := lower } := by
  obtain ⟨two, topmost, second, rfl⟩ := Stack.popTwo_eq_ok.1 popped
  simp only [perform, op, Action.bind_eq_ok, Action.check_eq_ok, branch_eq_ok]
  exact ⟨place, core, ⟨operand, rfl⟩, target, next, top, true, whole, two, topmost, second, holds,
    rfl, rfl⟩

theorem perform_call_flow {after : Core} {effect : Effect} (op : instruction.opcode = .call)
    (operand : instruction.operand 0 = .ok place) (whole : place.count? = some target)
    (performed : perform instruction core = .ok effect after) : effect = ⟨.jump target, none⟩ := by
  have goal : instruction.count? 0 = some target :=
    (Instruction.count?_of_operand operand).trans whole
  cases executes_of_perform performed with
  | call _ found _ _ _ =>
    cases goal.symm.trans found
    rfl
  | _ => simp_all

end Core

namespace Machine

/-- When a jump is taken: a `goto` always, a call that succeeds, and a branch
whose relation holds from the topmost value to the one below it. -/
inductive JumpTaken (m : Machine) : Opcode → Prop where
  | goto : JumpTaken m .goto
  | call {continues : Bool} {after : Machine} (succeeds : step m = .ok continues after) :
      JumpTaken m .call
  | branch {relation : Relation} {next top : Value} {lower : Stack}
      (popped : Stack.popTwo m.core.stack = .ok (next, top) lower)
      (holds : relation.holds top next = .ok true) : JumpTaken m (.branch relation)

theorem JumpTaken.perform {m : Machine} {instruction : Instruction} {place : Value} {target : Nat}
    (taken : m.JumpTaken instruction.opcode) (running : m.status = .running)
    (fetched : m.fetched? = some instruction) (operand : instruction.operand 0 = .ok place)
    (whole : place.count? = some target) :
    ∃ core, Core.perform instruction m.core = .ok ⟨.jump target, none⟩ core := by
  generalize op : instruction.opcode = opcode at taken
  cases taken with
  | goto => exact ⟨m.core, Core.perform_goto op operand whole⟩
  | call succeeds =>
    cases performed : Core.perform instruction m.core with
    | ok effect core => exact ⟨core, by rw [Core.perform_call_flow op operand whole performed]⟩
    | error fault core => cases succeeds.symm.trans (step_of_error running fetched performed)
  | branch popped holds =>
    exact ⟨_, Core.perform_branch_of_holds op operand whole popped holds⟩

/-- The machine goes on from a line of the source: its address is the number of
statements above the line, and its next step executes the first statement that
is not above it, or stops where there is none. -/
structure GoesOnFrom (source : String) (number : Nat) (m : Machine) : Prop where
  ip : m.core.ip = statementsAbove source number
  executes : ∀ line, firstStatement? source number = some line →
    ∃ instruction, Translates m.program.label? line instruction
      ∧ m.executing? = some ⟨m.core, instruction⟩
  stops : firstStatement? source number = none → step m = .ok false { m with status := .stopped }

theorem goesOnFrom_of_ip {source : String} {number : Nat} {m : Machine}
    (translation : Translation source m.program) (running : m.status = .running)
    (ip : m.core.ip = statementsAbove source number) : m.GoesOnFrom source number := by
  have related := translation.instruction_at number
  rw [← ip] at related
  generalize first : firstStatement? source number = found at related
  generalize fetched : m.program.instructions[m.core.ip]? = instruction at related
  cases related with
  | none =>
    refine ⟨ip, fun line other => ?_, fun _ => step_of_end running fetched⟩
    cases first.symm.trans other
  | some translates =>
    refine ⟨ip, fun line same => ?_, fun past => ?_⟩
    · cases first.symm.trans same
      exact ⟨_, translates, executing?_eq_some.2 ⟨running, fetched, rfl⟩⟩
    · cases first.symm.trans past

end Machine

theorem Translates.operand_of_label {source : String} {program : Program} {line : Line}
    {instruction : Instruction} {names : List String} {op : Opcode} {operand : Lexeme}
    {operands : List Lexeme} {name : String} {address : Nat}
    (assembled : assemble source = .ok program)
    (translates : Translates program.label? line instruction)
    (form : LineForm line.lexemes names (some (op, operand :: operands)))
    (token : operand.token = .word name) (found : program.label? name = some address) :
    instruction.opcode = op ∧ instruction.operand 0 = .ok (.ofNat address) := by
  obtain ⟨names', operands', form', denoted⟩ := translates
  obtain ⟨rfl, rfl⟩ : op = instruction.opcode ∧ operand :: operands = operands' := by
    simpa using form'.unique form
  refine ⟨rfl, Instruction.operand_eq_ok_iff.2 ?_⟩
  generalize values : instruction.operands = list at denoted
  cases denoted with
  | cons first rest =>
    rw [token] at first
    rw [denotes_unique assembled first (.label found)]
    rfl

/-- A label has the number of statements above its line as its address, and a
jump to it that is taken goes on from that line. -/
theorem jumps_reach_their_labels {source : String} {program : Program}
    (assembled : assemble source = .ok program) (small : program.size < 2 ^ 53) {line : Line}
    (mem : line ∈ sourceLines source) {name : String} (declares : name ∈ line.labels) :
    program.label? name = some (statementsAbove source line.number)
      ∧ statementsAbove source line.number ≤ program.size
      ∧ ∀ user ∈ sourceLines source, ∀ names op operand operands,
        LineForm user.lexemes names (some (op, operand :: operands)) →
          operand.token = .word name →
            ∀ m : Machine, m.program = program → m.status = .running →
              m.core.ip = statementsAbove source user.number → m.JumpTaken op →
                ∃ after, Machine.step m = .ok true after
                  ∧ after.GoesOnFrom source line.number := by
  have translation : Translation source program := translation_of_assemble assembled
  have found := translation.label?_eq mem declares
  have inside := translation.statementsAbove_le line.number
  refine ⟨found, inside, ?_⟩
  rintro user written names op operand operands form token m rfl running ip taken
  have bears : user.hasStatement = true := form.isSome_statement.symm
  obtain ⟨instruction, translates, executing⟩ :=
    (Machine.goesOnFrom_of_ip translation running ip).executes user
      (firstStatement?_of_hasStatement written bears)
  have fetched := (Machine.executing?_eq_some.1 executing).2.1
  obtain ⟨rfl, address⟩ := translates.operand_of_label assembled form token found
  have whole := Value.count?_ofNat (Nat.lt_of_le_of_lt inside small)
  obtain ⟨core, performed⟩ := taken.perform running fetched address whole
  refine ⟨_, Machine.step_of_ok running fetched performed, ?_⟩
  exact Machine.goesOnFrom_of_ip translation rfl rfl

def skippingSource : String :=
  "goto end\nhalt\n\nend:"

theorem jumps_reach_their_labels_of_skippingSource :
    ∃ program, assemble skippingSource = .ok program ∧ program.size = 2
      ∧ program.label? "end" = some 2
      ∧ ∃ after, Machine.step (.load program ⟨8, 0, false⟩) = .ok true after
        ∧ after.core.ip = 2 ∧ Machine.step after = .ok false { after with status := .stopped } := by
  let operand : Lexeme := ⟨⟨5, 8⟩, .word "end"⟩
  let user : Line := ⟨1, [⟨⟨0, 4⟩, .word "goto"⟩, operand]⟩
  let declaration : Line := ⟨4, [⟨⟨0, 4⟩, .label "end"⟩]⟩
  have lines : sourceLines skippingSource = [user, ⟨2, [⟨⟨0, 4⟩, .word "halt"⟩]⟩, declaration] := by
    decide +kernel
  have size : (assemble skippingSource).toOption.map Program.size = some 2 := by decide +kernel
  have above : statementsAbove skippingSource 4 = 2 := by rw [statementsAbove, lines]; rfl
  have start : statementsAbove skippingSource 1 = 0 := by rw [statementsAbove, lines]; rfl
  have past : firstStatement? skippingSource 4 = none := by rw [firstStatement?, lines]; rfl
  have form : LineForm user.lexemes [] (some (.goto, [operand])) := .statement rfl rfl (by decide)
  cases assembled : assemble skippingSource with
  | error error =>
    rw [assembled] at size
    cases size
  | ok program =>
    rw [assembled] at size
    have two : program.size = 2 := Option.some.inj size
    have small : program.size < 2 ^ 53 := by rw [two]; decide
    have declares : "end" ∈ declaration.labels := by decide
    obtain ⟨found, -, jumps⟩ :=
      jumps_reach_their_labels assembled small (lines ▸ by simp : declaration ∈ _) declares
    obtain ⟨after, stepped, goesOn⟩ := jumps user (lines ▸ by simp) [] .goto operand [] form rfl
      (.load program ⟨8, 0, false⟩) rfl rfl start.symm .goto
    exact ⟨program, rfl, two, found.trans (congrArg some above), after, stepped,
      goesOn.ip.trans above, goesOn.stops past⟩

end StackMachine
