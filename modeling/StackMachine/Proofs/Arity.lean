import StackMachine.Proofs.Addresses
import StackMachine.Proofs.Failures
import StackMachine.Proofs.Tracing

/-!
Operands and the arity of opcodes. Execution reads the first operands of an
instruction, as many as its opcode takes, and nothing behind them. Where one of
them is missing the instruction fails before anything has changed. Assembled
instructions have exactly the operands their opcodes take, so that a code error
in a run of an assembled program is the error of a return.
-/

namespace StackMachine

namespace Action

variable {σ α β : Type}

/-- Whatever state it finds, the action raises no fault of the class of code errors. -/
def Codeless (action : Action σ α) : Prop :=
  ∀ s fault t, action s = .error fault t → fault.errorClass ≠ .code

theorem codeless_pure (a : α) : Codeless (pure a : Action σ α) :=
  fun _ _ _ failed => absurd failed pure_ne_error

theorem Codeless.bind {x : Action σ α} {f : α → Action σ β} (first : Codeless x)
    (rest : ∀ a, Codeless (f a)) : Codeless (x >>= f) := by
  intro s fault u failed
  obtain failed | ⟨a, t, -, failed⟩ := bind_eq_error.1 failed
  · exact first s fault u failed
  · exact rest a t fault u failed

theorem codeless_inspect {look : σ → Except Fault α}
    (look_error : ∀ s fault, look s = .error fault → fault.errorClass ≠ .code) :
    Codeless (inspect look) :=
  fun s fault _ failed => look_error s fault (inspect_eq_error.1 failed).1

end Action

open StackMachine.Action (Codeless codeless_pure codeless_inspect)

theorem Value.whole_codeless {what : String} {value : Value} {fault : Fault}
    (h : value.whole what = .error fault) : fault.errorClass ≠ .code := by
  rcases whole_error h with ⟨n, rfl⟩ | rfl <;> nofun

namespace Stack

theorem slotValue_codeless {s : Stack} {index : Nat} {fault : Fault}
    (h : s.slotValue index = .error fault) : fault.errorClass ≠ .code := by
  unfold slotValue at h
  split at h <;> cases h
  nofun

theorem peek_codeless {s : Stack} {fault : Fault} (h : s.peek = .error fault) :
    fault.errorClass ≠ .code := by
  unfold peek at h
  split at h
  · cases h
    nofun
  · exact slotValue_codeless h

theorem slot_codeless {address : Value} {s : Stack} {fault : Fault}
    (h : s.slot address = .error fault) : fault.errorClass ≠ .code := by
  cases found : address.whole "address" with
  | error other =>
    simp only [slot, found, bind, Except.bind] at h
    cases h
    exact Value.whole_codeless found
  | ok place =>
    simp only [slot, found, bind, Except.bind] at h
    split at h <;> cases h
    intro same
    cases same

theorem read_codeless {address : Value} {s : Stack} {fault : Fault}
    (h : s.read address = .error fault) : fault.errorClass ≠ .code := by
  cases found : s.slot address with
  | error other =>
    simp only [read, found, bind, Except.bind] at h
    cases h
    exact slot_codeless found
  | ok index =>
    simp only [read, found, bind, Except.bind] at h
    exact slotValue_codeless h

theorem codeless_push (value : Value) : Codeless (push value) := by
  intro s fault t failed
  obtain ⟨-, rfl, -⟩ := push_eq_error.1 failed
  nofun

theorem codeless_pop : Codeless pop :=
  fun _ _ _ failed => peek_codeless (pop_eq_error.1 failed).1

theorem codeless_popTwo : Codeless popTwo := by
  refine (codeless_inspect fun s fault failed => ?_).bind fun _ =>
    codeless_pop.bind fun _ => codeless_pop.bind fun _ => codeless_pure _
  unfold requireTwo at failed
  split at failed <;> cases failed
  nofun

theorem codeless_setPointer (pointer : Int) : Codeless (setPointer pointer) := by
  intro s fault t failed
  unfold setPointer at failed
  split at failed <;> cases failed
  nofun

theorem codeless_writeSlot (index : Nat) (value : Value) : Codeless (writeSlot index value) := by
  intro s fault t failed
  unfold writeSlot at failed
  split at failed <;> cases failed
  nofun

theorem codeless_write (address value : Value) : Codeless (write address value) :=
  (codeless_inspect fun _ _ => slot_codeless).bind fun index => codeless_writeSlot index value

theorem codeless_store (address : Value) : Codeless (store address) :=
  (codeless_inspect fun _ _ => slot_codeless).bind fun index =>
    codeless_pop.bind fun value => (codeless_writeSlot index value).bind fun _ => codeless_pure _

theorem codeless_fetch (address : Value) : Codeless (fetch address) :=
  (codeless_inspect fun _ _ => read_codeless).bind fun value =>
    (codeless_push value).bind fun _ => codeless_pure _

theorem codeless_drop (count : Nat) : Codeless (drop count) := by
  induction count with
  | zero => exact codeless_pure ()
  | succ count ih => exact codeless_pop.bind fun _ => ih

theorem codeless_popWhole (what : String) : Codeless (popWhole what) :=
  codeless_pop.bind fun _ => codeless_inspect fun _ _ => Value.whole_codeless

theorem codeless_unwind (frame : Nat) : Codeless (unwind frame) :=
  codeless_pop.bind fun result => (codeless_setPointer frame).bind fun _ =>
    (codeless_popWhole _).bind fun _ => (codeless_popWhole _).bind fun _ =>
      (codeless_popWhole _).bind fun count => (codeless_drop count).bind fun _ =>
        (codeless_push result).bind fun _ => codeless_pure _

theorem codeless_pushHeader (count caller site : Nat) : Codeless (pushHeader count caller site) :=
  (codeless_push _).bind fun _ => (codeless_push _).bind fun _ => codeless_push _

end Stack

namespace Core

theorem codeless_onStack {α : Type} {action : Action Stack α} (h : Codeless action) :
    Codeless (onStack action) := by
  intro core fault after failed
  obtain ⟨t, failed, -⟩ := onStack_eq_error.1 failed
  exact h _ _ _ failed

theorem codeless_onGlobals {α : Type} {action : Action Stack α} (h : Codeless action) :
    Codeless (onGlobals action) := by
  intro core fault after failed
  obtain ⟨t, failed, -⟩ := onGlobals_eq_error.1 failed
  exact h _ _ _ failed

theorem codeless_setFrame (change : Core → Nat × Nat) : Codeless (setFrame change) :=
  fun _ _ _ failed => nomatch failed

theorem codeless_const (value : Value) : Codeless (const value) :=
  (codeless_onStack (Stack.codeless_push value)).bind fun _ => codeless_pure _

theorem codeless_store (address : Value) : Codeless (store address) :=
  (codeless_onStack (Stack.codeless_store address)).bind fun _ => codeless_pure _

theorem codeless_fetch (address : Value) : Codeless (fetch address) :=
  (codeless_onStack (Stack.codeless_fetch address)).bind fun _ => codeless_pure _

theorem codeless_gstore (address : Value) : Codeless (gstore address) :=
  (codeless_inspect fun _ _ => Stack.slot_codeless).bind fun _ =>
    (codeless_onStack Stack.codeless_pop).bind fun value =>
      (codeless_onGlobals (Stack.codeless_write address value)).bind fun _ => codeless_pure _

theorem codeless_gfetch (address : Value) : Codeless (gfetch address) :=
  (codeless_inspect fun _ _ => Stack.read_codeless).bind fun value =>
    (codeless_onStack (Stack.codeless_push value)).bind fun _ => codeless_pure _

theorem codeless_pop : Codeless pop :=
  (codeless_onStack Stack.codeless_pop).bind fun _ => codeless_pure _

theorem codeless_binary (operator : Operator) : Codeless (binary operator) := by
  refine (codeless_onStack Stack.codeless_popTwo).bind fun pair =>
    (codeless_inspect fun _ fault mismatch => ?_).bind fun value =>
      (codeless_onStack (Stack.codeless_push value)).bind fun _ => codeless_pure _
  rw [Operator.apply_error mismatch]
  nofun

theorem codeless_branch (relation : Relation) (operand : Value) :
    Codeless (branch relation operand) := by
  refine (codeless_inspect fun _ _ => Value.whole_codeless).bind fun target =>
    (codeless_onStack Stack.codeless_popTwo).bind fun pair =>
      (codeless_inspect fun _ fault mismatch => ?_).bind fun taken => ?_
  · rw [Relation.holds_error mismatch]
    nofun
  · cases taken <;> exact codeless_pure _

theorem codeless_goto (operand : Value) : Codeless (goto operand) :=
  (codeless_inspect fun _ _ => Value.whole_codeless).bind fun _ => codeless_pure _

theorem codeless_call (target count : Nat) : Codeless (call target count) := by
  refine (codeless_inspect fun core fault refused => ?_).bind fun site =>
    (codeless_onStack (Stack.codeless_pushHeader count _ _)).bind fun _ =>
      (codeless_setFrame _).bind fun _ => codeless_pure _
  unfold callSite at refused
  split at refused
  · cases refused
    nofun
  · split at refused <;> cases refused
    nofun

theorem codeless_print : Codeless print :=
  (codeless_inspect fun _ _ => Stack.peek_codeless).bind fun _ => codeless_pure _

theorem ret_code_error {core after : Core} {fault : Fault} (h : ret core = .error fault after)
    (code : fault.errorClass = .code) :
    fault = .returnWithoutCall ∨ fault = .nothingReturned := by
  obtain failed | ⟨frame, c, -, later⟩ := Action.bind_eq_error.1 h
  · exact openFrame_error (Action.inspect_eq_error.1 failed).1
  · refine absurd code ((?_ : Codeless _) c fault after later)
    refine (codeless_onStack (Stack.codeless_unwind frame)).bind fun pair =>
      (codeless_setFrame _).bind fun _ => ?_
    split
    · exact codeless_pure _
    · intro s other t failed same
      cases failed
      cases same

variable {core after : Core} {instruction : Instruction} {fault : Fault}

/-- One of the operands that the opcode takes is not there, and the fault says so. -/
def MissesOperand (instruction : Instruction) (fault : Fault) : Prop :=
  instruction.operands.length < instruction.opcode.arity
    ∧ fault = .missingOperand instruction.opcode

theorem missesOperand_of_operand {index : Nat} (taken : index < instruction.opcode.arity)
    (h : instruction.operand index = .error fault) : MissesOperand instruction fault := by
  refine ⟨?_, Instruction.operand_error h⟩
  unfold Instruction.operand at h
  split at h
  · cases h
  · rename_i absent
    exact Nat.lt_of_le_of_lt (List.getElem?_eq_none_iff.1 absent) taken

theorem missesOperand_of_check {α : Type} {index : Nat} {run : Value → Action Core α}
    (taken : index < instruction.opcode.arity) (codeless : ∀ value, Codeless (run value))
    (h : (Action.check (instruction.operand index) >>= run) core = .error fault after)
    (code : fault.errorClass = .code) : MissesOperand instruction fault := by
  obtain failed | ⟨value, c, -, later⟩ := Action.bind_eq_error.1 h
  · exact missesOperand_of_operand taken (Action.check_eq_error.1 failed).1
  · exact absurd code (codeless value c fault after later)

theorem missesOperand_of_whole {index : Nat} {what : String}
    (taken : index < instruction.opcode.arity)
    (h : (do (← instruction.operand index).whole what) = Except.error fault)
    (code : fault.errorClass = .code) : MissesOperand instruction fault := by
  cases found : instruction.operand index with
  | ok value =>
    simp only [found, bind, Except.bind] at h
    exact absurd code (Value.whole_codeless h)
  | error missing =>
    simp only [found, bind, Except.bind] at h
    cases h
    exact missesOperand_of_operand taken found

theorem perform_code_error (h : perform instruction core = .error fault after)
    (code : fault.errorClass = .code) :
    (instruction.opcode = .ret ∧ (fault = .returnWithoutCall ∨ fault = .nothingReturned))
      ∨ MissesOperand instruction fault := by
  unfold perform at h
  cases op : instruction.opcode with
  | halt =>
    simp only [op] at h
    exact absurd h Action.pure_ne_error
  | const =>
    simp only [op] at h
    exact .inr (missesOperand_of_check (by simp [op, Opcode.arity]) codeless_const h code)
  | store =>
    simp only [op] at h
    exact .inr (missesOperand_of_check (by simp [op, Opcode.arity]) codeless_store h code)
  | fetch =>
    simp only [op] at h
    exact .inr (missesOperand_of_check (by simp [op, Opcode.arity]) codeless_fetch h code)
  | gstore =>
    simp only [op] at h
    exact .inr (missesOperand_of_check (by simp [op, Opcode.arity]) codeless_gstore h code)
  | gfetch =>
    simp only [op] at h
    exact .inr (missesOperand_of_check (by simp [op, Opcode.arity]) codeless_gfetch h code)
  | pop =>
    simp only [op] at h
    exact absurd code (codeless_pop _ _ _ h)
  | binary operator =>
    simp only [op] at h
    exact absurd code (codeless_binary operator _ _ _ h)
  | branch relation =>
    simp only [op] at h
    exact .inr (missesOperand_of_check (by simp [op, Opcode.arity]) (codeless_branch relation) h
      code)
  | goto =>
    simp only [op] at h
    exact .inr (missesOperand_of_check (by simp [op, Opcode.arity]) codeless_goto h code)
  | call =>
    simp only [op] at h
    obtain failed | ⟨target, c, -, h⟩ := Action.bind_eq_error.1 h
    · exact .inr (missesOperand_of_whole (by simp [op, Opcode.arity])
        (Action.check_eq_error.1 failed).1 code)
    obtain failed | ⟨count, c, -, h⟩ := Action.bind_eq_error.1 h
    · exact .inr (missesOperand_of_whole (by simp [op, Opcode.arity])
        (Action.check_eq_error.1 failed).1 code)
    exact absurd code (codeless_call target count _ _ _ h)
  | ret =>
    simp only [op] at h
    exact .inl ⟨rfl, ret_code_error h code⟩
  | print =>
    simp only [op] at h
    exact absurd code (codeless_print _ _ _ h)

theorem perform_of_short (short : instruction.operands.length < instruction.opcode.arity) :
    ∃ fault, perform instruction core = .error fault core := by
  obtain ⟨op, operands⟩ := instruction
  have missing : ∀ (index : Nat), operands.length ≤ index →
      (⟨op, operands⟩ : Instruction).operand index = .error (.missingOperand op) := by
    intro index absent
    simp only [Instruction.operand, List.getElem?_eq_none absent]
  cases op with
  | halt | pop | binary operator | ret | print => exact absurd short (Nat.not_lt_zero _)
  | const | store | fetch | gstore | gfetch | branch relation | goto =>
    exact ⟨_, Action.bind_error (Action.inspect_error (missing 0 (Nat.le_of_lt_succ short)))⟩
  | call =>
    -- the first operand is judged before the second is asked for
    cases first : (Action.check (do
        (← (⟨.call, operands⟩ : Instruction).operand 0).whole "target") : Action Core Nat) core with
    | error fault after =>
      obtain ⟨-, rfl⟩ := Action.check_eq_error.1 first
      exact ⟨fault, Action.bind_error first⟩
    | ok target after =>
      obtain ⟨-, rfl⟩ := Action.check_eq_ok.1 first
      refine ⟨.missingOperand .call, (Action.bind_ok first).trans ?_⟩
      refine Action.bind_error (Action.inspect_error ?_)
      rw [missing 1 (Nat.le_of_lt_succ short)]
      rfl

end Core

namespace Instruction

/-- The same opcode, and the same operands as far as the opcode takes any. -/
def Agrees (first second : Instruction) : Prop :=
  first.opcode = second.opcode
    ∧ first.operands.take first.opcode.arity = second.operands.take second.opcode.arity

theorem Agrees.operand {first second : Instruction} (agrees : first.Agrees second) (index : Nat)
    (taken : index < first.opcode.arity) : second.operand index = first.operand index := by
  obtain ⟨op, same⟩ := agrees
  have found : second.operands[index]? = first.operands[index]? := by
    have at_index := congrArg (·[index]?) same
    simp only [List.getElem?_take_of_lt taken, List.getElem?_take_of_lt (op ▸ taken)] at at_index
    exact at_index.symm
  rw [Instruction.operand, Instruction.operand, found, op]

theorem Agrees.perform {first second : Instruction} (agrees : first.Agrees second) :
    Core.perform second = Core.perform first := by
  funext core
  unfold Core.perform
  rw [← agrees.1]
  cases op : first.opcode with
  | halt | pop | binary operator | ret | print => rfl
  | const | store | fetch | gstore | gfetch | branch relation | goto =>
    rw [agrees.operand 0 (by simp [op, Opcode.arity])]
  | call =>
    rw [agrees.operand 0 (by simp [op, Opcode.arity]),
      agrees.operand 1 (by simp [op, Opcode.arity])]

end Instruction

namespace Machine

def withProgram (m : Machine) (program : Program) : Machine :=
  { m with program }

/-- Without tracing, a program whose instructions agree with those of the machine's
own, position by position, can take its place. -/
structure Admits (m : Machine) (program : Program) : Prop where
  untraced : m.tracing = false
  code : List.Forall₂ Instruction.Agrees m.program.instructions.toList program.instructions.toList

variable {m : Machine} {program : Program}

theorem Admits.fetched (admits : m.Admits program) :
    Option.Rel Instruction.Agrees m.fetched? (m.withProgram program).fetched? := by
  have related := rel_getElem?_of_forall₂ admits.code m.core.ip
  rwa [Array.getElem?_toList, Array.getElem?_toList] at related

theorem Admits.step (admits : m.Admits program) :
    (m.withProgram program).outcome = m.outcome
      ∧ (m.withProgram program).next = m.next.withProgram program := by
  have related := admits.fetched
  unfold outcome next
  obtain ⟨rest, stepped⟩ | ⟨running, past, stepped⟩
    | ⟨instruction, fault, core, running, fetched, performed, stepped⟩
    | ⟨instruction, effect, core, running, fetched, performed, stepped⟩ := m.step_cases
  · have other : Machine.step (m.withProgram program) = .ok false (m.withProgram program) :=
      step_of_not_running rest
    simp only [stepped, other, and_self]
  · rw [past] at related
    generalize found : (m.withProgram program).fetched? = option at related
    cases related
    have other := step_of_end (m := m.withProgram program) running found
    simp only [stepped, other, true_and]
    rfl
  · rw [fetched] at related
    generalize found : (m.withProgram program).fetched? = option at related
    cases related with
    | some agrees =>
      have other := step_of_error (m := m.withProgram program) running found
        ((congrFun agrees.perform _).trans performed)
      simp only [stepped, other]
      exact ⟨rfl, rfl⟩
  · rw [fetched] at related
    generalize found : (m.withProgram program).fetched? = option at related
    cases related with
    | @some _ second agrees =>
      have other := step_of_ok (m := m.withProgram program) running found
        ((congrFun agrees.perform _).trans performed)
      -- the instruction itself would show in a trace line only
      have shown : (m.withProgram program).continueWith second effect core
          = (m.continueWith instruction effect core).withProgram program := by
        simp only [continueWith, withProgram, outputs, admits.untraced, Bool.false_eq_true,
          if_false]
      simp only [stepped, other, shown, and_self]

theorem Admits.next (admits : m.Admits program) : m.next.Admits program := by
  have moves := moves_next m
  exact ⟨moves.tracing.trans admits.untraced, moves.program ▸ admits.code⟩

theorem step_eq_outcome (m : Machine) :
    Machine.step m =
      match m.outcome with
      | .ok continues => .ok continues m.next
      | .error error => .error error m.next := by
  unfold outcome Machine.next
  cases Machine.step m <;> rfl

theorem settle_withProgram (m : Machine) (program : Program) :
    (m.withProgram program).settle = (m.settle.1, m.settle.2.withProgram program) := by
  obtain ⟨own, tracing, core, status, interrupted, waiting⟩ := m
  cases waiting <;> rfl

theorem Admits.settle (admits : m.Admits program) : m.settle.2.Admits program := by
  obtain ⟨own, tracing, core, status, interrupted, waiting⟩ := m
  cases waiting <;> exact ⟨admits.untraced, admits.code⟩

theorem Admits.advance (admits : m.Admits program) (steps : Nat) :
    (m.withProgram program).advance steps =
        ((m.advance steps).1, (m.advance steps).2.withProgram program)
      ∧ (m.advance steps).2.Admits program := by
  induction steps generalizing m with
  | zero => exact ⟨settle_withProgram m program, admits.settle⟩
  | succ steps ih =>
    have calm : ({ m with interrupted := false } : Machine).Admits program :=
      ⟨admits.untraced, admits.code⟩
    obtain ⟨outcome, next⟩ := calm.step
    have later := calm.next
    unfold Machine.advance
    have running : (m.withProgram program).isRunning = m.isRunning := rfl
    have asked : (m.withProgram program).interrupted = m.interrupted := rfl
    have cleared : { m.withProgram program with interrupted := false }
        = ({ m with interrupted := false } : Machine).withProgram program := rfl
    rw [running, asked, cleared, step_eq_outcome, step_eq_outcome, outcome, next]
    split
    · exact ⟨rfl, admits.untraced, admits.code⟩
    · generalize ({ m with interrupted := false } : Machine).outcome = result
      generalize ({ m with interrupted := false } : Machine).next = after at later
      cases result with
      | error error => exact ⟨rfl, later⟩
      | ok continues =>
        cases continues with
        | false => exact ⟨settle_withProgram after program, later.settle⟩
        | true =>
          have waiting : (after.withProgram program).waiting = after.waiting := rfl
          dsimp only
          rw [waiting]
          split
          · exact ih later
          · exact ⟨settle_withProgram after program, later.settle⟩

theorem Admits.burst (admits : m.Admits program) (steps : Nat) :
    (m.withProgram program).burst steps =
        ((m.burst steps).1, (m.burst steps).2.withProgram program)
      ∧ (m.burst steps).2.Admits program := by
  have waiting : (m.withProgram program).waiting = m.waiting := rfl
  unfold Machine.burst
  rw [waiting]
  split
  · exact admits.advance steps
  · exact ⟨settle_withProgram m program, admits.settle⟩

theorem Admits.collect (admits : m.Admits program) (ends : Event → Bool) (steps bursts : Nat)
    (seen : List Event) :
    Machine.collect ends steps bursts (m.withProgram program) seen =
        ((Machine.collect ends steps bursts m seen).1,
          (Machine.collect ends steps bursts m seen).2.withProgram program)
      ∧ (Machine.collect ends steps bursts m seen).2.Admits program := by
  induction bursts generalizing m seen with
  | zero => exact ⟨rfl, admits⟩
  | succ bursts ih =>
    obtain ⟨same, later⟩ := admits.burst steps
    unfold Machine.collect
    rw [same]
    dsimp only
    split
    · exact ⟨rfl, later⟩
    · exact ih later _

theorem Admits.obey (admits : m.Admits program) (control : Control) :
    (m.withProgram program).obey control = (m.obey control).withProgram program
      ∧ (m.withProgram program).answers control = m.answers control
      ∧ (m.obey control).Admits program := by
  cases control with
  | step => exact ⟨admits.step.2, rfl, admits.next⟩
  | burst steps =>
    obtain ⟨same, later⟩ := admits.burst steps
    refine ⟨congrArg Prod.snd same, ?_, later⟩
    rw [Machine.answers, Machine.answers, same]
  | run bursts =>
    obtain ⟨same, later⟩ := admits.collect Event.isFinal longBurst bursts []
    have events : (m.withProgram program).events Event.isFinal longBurst bursts
        = ((m.events Event.isFinal longBurst bursts).1,
          (m.events Event.isFinal longBurst bursts).2.withProgram program) := by
      simp only [Machine.events, same]
    refine ⟨?_, ?_, ?_⟩
    · rw [Machine.obey, Machine.obey, run_machine, run_machine, events]
    · rw [Machine.answers, Machine.answers, events]
    · rw [Machine.obey, run_machine]
      exact later
  | interrupt => exact ⟨rfl, rfl, admits.untraced, admits.code⟩

theorem Admits.obeyAll (admits : m.Admits program) (controls : List Control) :
    (m.withProgram program).obeyAll controls = (m.obeyAll controls).withProgram program
      ∧ (m.withProgram program).answersAll controls = m.answersAll controls
      ∧ (m.obeyAll controls).Admits program := by
  induction controls generalizing m with
  | nil => exact ⟨rfl, rfl, admits⟩
  | cons control later ih =>
    obtain ⟨obeyed, answered, admits⟩ := admits.obey control
    obtain ⟨same, answers, kept⟩ := ih admits
    refine ⟨?_, ?_, kept⟩
    · rw [Machine.obeyAll, List.foldl_cons, obeyed]
      exact same
    · rw [answersAll, answersAll, answered, obeyed, answers]

end Machine

theorem Translation.operands_length {source : String} {program : Program}
    (translation : Translation source program) {instruction : Instruction}
    (mem : instruction ∈ program.instructions) :
    instruction.operands.length = instruction.opcode.arity := by
  obtain ⟨address, found⟩ := List.mem_iff_getElem?.1 (Array.mem_toList_iff.2 mem)
  have related := rel_getElem?_of_forall₂ translation.instructions address
  rw [found] at related
  generalize ((sourceLines source).filter Line.hasStatement)[address]? = line at related
  cases related with
  | some translates =>
    obtain ⟨names, operands, form, denoted⟩ := translates
    rw [← denoted.length_eq]
    exact form.operands.1

namespace Machine

/-- Assembled instructions have exactly the operands that their opcodes take, and
a step of a machine with an assembled program raises a code error at a return
only. Whatever the program, a step at an instruction that lacks operands fails
and changes nothing but the status, a step at one with enough of them never
misses one, and operands beyond these make no difference to a machine that does
not trace, however it is driven. -/
theorem decoding_reads_the_arity :
    (∀ source program, assemble source = .ok program →
      (∀ instruction ∈ program.instructions,
          instruction.operands.length = instruction.opcode.arity)
        ∧ ∀ m : Machine, m.program = program → ∀ error after, step m = .error error after →
          error.fault.errorClass = .code →
            ∃ instruction, m.fetched? = some instruction ∧ instruction.opcode = .ret)
      ∧ (∀ (m : Machine) (instruction : Instruction), m.status = .running →
        m.fetched? = some instruction →
          (instruction.operands.length < instruction.opcode.arity →
              ∃ fault, step m = .error ⟨fault, m.core.ip⟩ { m with status := .failed })
            ∧ (instruction.opcode.arity ≤ instruction.operands.length →
              ∀ error after, step m = .error error after → ∀ op, error.fault ≠ .missingOperand op))
      ∧ ∀ first second : Program,
        List.Forall₂ Instruction.Agrees first.instructions.toList second.instructions.toList →
          ∀ stackSize entry controls,
            let m := load first ⟨stackSize, entry, false⟩
            let n := load second ⟨stackSize, entry, false⟩
            n.obeyAll controls = (m.obeyAll controls).withProgram second
              ∧ n.answersAll controls = m.answersAll controls
              ∧ (n.obeyAll controls).outcome = (m.obeyAll controls).outcome := by
  refine ⟨fun source program assembled => ?_, fun m instruction running fetched => ⟨?_, ?_⟩, ?_⟩
  · have translation : Translation source program := translation_of_assemble assembled
    refine ⟨fun instruction => translation.operands_length, ?_⟩
    rintro m rfl error after failed code
    obtain ⟨instruction, core, -, fetched, performed, -, -⟩ := step_eq_error failed
    refine ⟨instruction, fetched, ?_⟩
    obtain ⟨op, -⟩ | ⟨short, -⟩ := Core.perform_code_error performed code
    · exact op
    · have exactly := translation.operands_length (Array.mem_of_getElem? fetched)
      omega
  · intro short
    obtain ⟨fault, performed⟩ : ∃ fault, Core.perform instruction m.core = .error fault m.core :=
      Core.perform_of_short short
    exact ⟨fault, step_of_error running fetched performed⟩
  · intro enough error after failed op missing
    obtain ⟨other, core, -, found, performed, -, -⟩ := step_eq_error failed
    cases fetched.symm.trans found
    have code : error.fault.errorClass = .code := by rw [missing]; rfl
    obtain ⟨-, fault⟩ | ⟨short, -⟩ := Core.perform_code_error performed code
    · rw [missing] at fault
      rcases fault with fault | fault <;> cases fault
    · omega
  · intro first second code stackSize entry controls m n
    have admits : m.Admits second := ⟨rfl, code⟩
    obtain ⟨obeyed, answered, kept⟩ := admits.obeyAll controls
    exact ⟨obeyed, answered, (congrArg outcome obeyed).trans kept.step.1⟩

def looseOperands : Program :=
  .ofInstructions #[⟨.call, [.ofNat 1, .ofNat 0, .text "unread"]⟩, ⟨.print, [.nil]⟩,
    ⟨.call, [.ofNat 1]⟩]

def tightOperands : Program :=
  .ofInstructions #[⟨.call, [.ofNat 1, .ofNat 0]⟩, ⟨.print, []⟩, ⟨.call, [.ofNat 1]⟩]

/-- A return outside of calls, a call that lacks an operand, and operands that are never read. -/
theorem decoding_reads_the_arity_of_looseOperands :
    (∃ program, assemble "RET" = .ok program
        ∧ (∀ instruction ∈ program.instructions,
          instruction.operands.length = instruction.opcode.arity)
        ∧ ∃ instruction, (load program ⟨4, 0, false⟩).fetched? = some instruction
          ∧ instruction.opcode = .ret)
      ∧ (let m := (load looseOperands ⟨8, 0, false⟩).obeyAll [.step, .step]
        m.core.ip = 2 ∧ ∃ fault, step m = .error ⟨fault, 2⟩ { m with status := .failed })
      ∧ (load looseOperands ⟨8, 0, false⟩).answersAll [.burst 9, .burst 9, .run 2]
        = (load tightOperands ⟨8, 0, false⟩).answersAll [.burst 9, .burst 9, .run 2] := by
  obtain ⟨assembled, decoded, extra⟩ := decoding_reads_the_arity
  refine ⟨?_, ?_, ?_⟩
  · have source : assemble "RET" = .ok (.ofInstructions #[⟨.ret, []⟩]) := by decide +kernel
    obtain ⟨exactly, returns⟩ := assembled "RET" _ source
    exact ⟨_, source, exactly, returns (load _ ⟨4, 0, false⟩) rfl ⟨.returnWithoutCall, 0⟩ _ rfl rfl⟩
  · intro m
    have fetched : m.fetched? = some ⟨.call, [.ofNat 1]⟩ := by decide +kernel
    have running : m.status = .running := by decide +kernel
    have ip : m.core.ip = 2 := by decide +kernel
    obtain ⟨short, -⟩ := decoded m _ running fetched
    obtain ⟨fault, failed⟩ := short (by decide)
    exact ⟨ip, fault, ip ▸ failed⟩
  · have code : List.Forall₂ Instruction.Agrees tightOperands.instructions.toList
        looseOperands.instructions.toList :=
      .cons ⟨rfl, rfl⟩ (.cons ⟨rfl, rfl⟩ (.cons ⟨rfl, rfl⟩ .nil))
    exact (extra tightOperands looseOperands code 8 0 _).2.1

end Machine

end StackMachine
