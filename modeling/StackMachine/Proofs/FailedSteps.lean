import StackMachine.Proofs.Refinement
import StackMachine.Proofs.Safety

/-!
Failing steps and what comes after them. A step that fails changes nothing but
the status and, in two cases, the height of the stack. After it the machine
stands still: nothing that is asked of it moves its core, and no error is
reported a second time.
-/

namespace StackMachine

namespace Core

theorem perform_mismatch {core after : Core} {instruction : Instruction} {verb : String}
    {left right : Kind} (valid : core.stack.Valid)
    (op : (∃ operator, instruction.opcode = .binary operator)
      ∨ ∃ relation, instruction.opcode = .branch relation)
    (h : perform instruction core = .error (.kindMismatch verb left right) after) :
    2 ≤ core.stack.height ∧ after = core.lowered (core.stack.height - 2) := by
  unfold perform at h
  obtain ⟨operator, op⟩ | ⟨relation, op⟩ := op
  · simp only [op] at h
    obtain ⟨other, -⟩ | ⟨_, _, -, popped⟩ := binary_error valid h
    · cases other
    · exact popped
  · simp only [op] at h
    obtain failed | ⟨operand, c, found, later⟩ := Action.bind_eq_error.1 h
    · have other := Instruction.operand_error (Action.check_eq_error.1 failed).1
      cases other
    · obtain ⟨-, rfl⟩ := Action.check_eq_ok.1 found
      obtain ⟨⟨_, other⟩ | other | other, -⟩ | ⟨_, _, -, popped⟩ := branch_error valid later
      · cases other
      · cases other
      · cases other
      · exact popped

end Core

namespace Machine

def Mismatch (instruction : Instruction) (fault : Fault) : Prop :=
  ((∃ operator, instruction.opcode = .binary operator)
      ∨ ∃ relation, instruction.opcode = .branch relation)
    ∧ ∃ verb left right, fault = .kindMismatch verb left right

/-- A return that passes its two guards: a call is open, and a value lies above its header. -/
def Returning (m : Machine) (instruction : Instruction) : Prop :=
  instruction.opcode = .ret ∧ 0 < m.core.depth ∧ (m.core.fp : Int) < m.core.stack.pointer

/-- What a failing instruction leaves: all but the status and the pointer is as before. -/
structure FailsTo (m : Machine) (instruction : Instruction) (fault : Fault) (after : Machine) :
    Prop where
  ip : after.core.ip = m.core.ip
  fp : after.core.fp = m.core.fp
  depth : after.core.depth = m.core.depth
  globals : after.core.globals = m.core.globals
  cells : after.core.stack.cells = m.core.stack.cells
  waiting : after.waiting = m.waiting
  mismatch : Mismatch instruction fault → after.core.stack.pointer = m.core.stack.pointer - 2
  returning : m.Returning instruction → after.core.stack.pointer < m.core.stack.pointer
  other : ¬ Mismatch instruction fault → ¬ m.Returning instruction →
    after.core.stack.pointer = m.core.stack.pointer
  status : after.status = .failed

theorem returning_iff {m : Machine} {instruction : Instruction} :
    m.Returning instruction ↔
      instruction.opcode = .ret ∧ Core.openFrame m.core = .ok m.core.fp := by
  rw [Returning, Core.openFrame_eq_ok, Stack.pointer]
  refine and_congr_right fun _ => and_congr_right fun _ => ?_
  omega

theorem failsTo_of_perform {m : Machine} {instruction : Instruction} {fault : Fault} {core : Core}
    (valid : m.core.stack.Valid)
    (performed : Core.perform instruction m.core = .error fault core) :
    m.FailsTo instruction fault { m with core := core, status := .failed } := by
  have fails := Core.fails_of_perform valid performed
  obtain ⟨height, rfl⟩ := fails.lowers
  refine ⟨rfl, rfl, rfl, rfl, rfl, rfl, ?_, ?_, ?_, rfl⟩
  · rintro ⟨op, verb, left, right, rfl⟩
    obtain ⟨two, same⟩ := Core.perform_mismatch valid op performed
    have height_eq : height = m.core.stack.height - 2 := congrArg (fun c => c.stack.height) same
    simp only [Core.lowered, Stack.pointer, Stack.lowered_height]
    omega
  · intro returning
    obtain ⟨op, opened⟩ := returning_iff.1 returning
    rw [Core.perform_ret op] at performed
    obtain ⟨-, lower, below, same⟩ := Core.ret_error_of_open valid opened performed
    have height_eq : height = lower := congrArg (fun c => c.stack.height) same
    simp only [Core.lowered, Stack.pointer, Stack.lowered_height]
    omega
  · intro fits stays
    generalize m.core.lowered height = after at fails
    cases fails with
    | early inside => rfl
    | @mismatch verb left right op two => exact absurd ⟨op, verb, left, right, rfl⟩ fits
    | unwinding op opened inside lower => exact absurd (returning_iff.2 ⟨op, opened⟩) stays

/-- The error that a control reports: a step and a run by their results, a burst by its event. -/
def reported? (m : Machine) : Control → Option RuntimeError
  | .step =>
      match step m with
      | .ok _ _ => none
      | .error error _ => some error
  | .burst steps => (m.burst steps).1.error?
  | .run bursts =>
      match (m.run bursts).1 with
      | some (.error error) => some error
      | _ => none
  | .interrupt => none

theorem Alike.rest {m n : Machine} (alike : Alike m n) (rest : n.status ≠ .running) :
    m.status ≠ .running :=
  alike.status ▸ rest

theorem Bursts.of_rest {steps : Nat} {m after : Machine} {log : List Executed} {event : Event}
    (rest : m.status ≠ .running) (h : Bursts steps m log event after) :
    Alike after m ∧ event.error? = none := by
  cases h with
  | returns waits => exact ⟨⟨rfl, rfl, rfl, rfl⟩, rfl⟩
  | breaks empty asked running => exact absurd running rest
  | nothing empty zero =>
    refine ⟨⟨rfl, rfl, rfl, rfl⟩, ?_⟩
    cases m.isRunning <;> rfl
  | advances empty calm advanced =>
    have still : ∀ n, next^[n] { m with interrupted := false } = { m with interrupted := false } :=
      Function.iterate_fixed (next_of_rest rest)
    cases advanced with
    | spent clean running =>
      rw [still] at running
      exact absurd running rest
    | shows le clean fresh =>
      rw [still]
      exact ⟨⟨rfl, rfl, rfl, rfl⟩, rfl⟩
    | stops =>
      rw [still]
      exact ⟨⟨rfl, rfl, rfl, rfl⟩, rfl⟩
    | fails lt clean quiet executing =>
      rw [still] at executing
      exact absurd (executing?_eq_some.1 executing).1 rest

theorem run_of_rest {m : Machine} (rest : m.status ≠ .running) (bursts : Nat) :
    Alike (m.obey (.run bursts)) m ∧ ∀ event ∈ m.answers (.run bursts), event.error? = none := by
  have kept : ∀ h : History, Alike h.machine m ∧ (∀ event ∈ h.events, event.error? = none) →
      Alike (h.run bursts).machine m ∧ ∀ event ∈ (h.run bursts).events, event.error? = none := by
    refine fun h => History.holds_run_of_kept_by_bursts (P := fun h => Alike h.machine m
      ∧ ∀ event ∈ h.events, event.error? = none) (fun steps h holds => ?_) bursts
    obtain ⟨alike, silent⟩ := holds
    obtain ⟨same, quiet⟩ := (bursts_burst steps h.machine).of_rest (alike.rest rest)
    rw [History.burst_eq]
    refine ⟨same.trans alike, fun event mem => ?_⟩
    rcases List.mem_append.1 mem with before | last
    · exact silent event before
    · rw [List.mem_singleton.1 last]
      exact quiet
  have run := kept ⟨m, [], []⟩ ⟨⟨rfl, rfl, rfl, rfl⟩, by simp⟩
  have machine := History.extend_machine ⟨m, [], []⟩ (.run bursts)
  have events := History.extend_events ⟨m, [], []⟩ (.run bursts)
  simp only [History.extend, List.nil_append] at machine events
  rwa [machine, events] at run

theorem obey_of_rest {m : Machine} (rest : m.status ≠ .running) (control : Control) :
    Alike (m.obey control) m := by
  cases control with
  | step =>
    rw [obey, next_of_rest rest]
    exact ⟨rfl, rfl, rfl, rfl⟩
  | burst steps => exact ((bursts_burst steps m).of_rest rest).1
  | run bursts => exact (run_of_rest rest bursts).1
  | interrupt => exact ⟨rfl, rfl, rfl, rfl⟩

theorem obeyAll_of_rest {m : Machine} (rest : m.status ≠ .running) (controls : List Control) :
    Alike (m.obeyAll controls) m := by
  induction controls generalizing m with
  | nil => exact ⟨rfl, rfl, rfl, rfl⟩
  | cons control later ih =>
    have alike := obey_of_rest rest control
    exact (ih (alike.rest rest)).trans alike

theorem reported?_run {m : Machine} {bursts : Nat} {error : RuntimeError}
    (h : m.reported? (.run bursts) = some error) :
    Event.failed error ∈ m.answers (.run bursts) := by
  simp only [reported?, run] at h
  cases last : (m.events Event.isFinal longBurst bursts).1.getLast? with
  | none => simp [last] at h
  | some event =>
    cases event with
    | failed found =>
      simp only [last, Option.some.injEq] at h
      rw [← h]
      exact List.mem_of_getLast? last
    | interrupted address => simp [last, Event.isFinal] at h
    | output shown => simp [last, Event.isFinal] at h
    | running => simp [last, Event.isFinal] at h
    | stopped => simp [last, Event.isFinal] at h

theorem reported?_of_rest {m : Machine} (rest : m.status ≠ .running) (control : Control) :
    m.reported? control = none := by
  cases control with
  | step => rw [reported?, step_of_not_running rest]
  | burst steps => exact ((bursts_burst steps m).of_rest rest).2
  | run bursts =>
    rw [Option.eq_none_iff_forall_ne_some]
    intro error reported
    have silent := (run_of_rest rest bursts).2 _ (reported?_run reported)
    cases silent
  | interrupt => rfl

/-- A step that fails, however its machine was driven before, reports where it
failed and leaves the core as it was but for the pointer, which is lower in two
cases only. Nothing that is asked of the machine later moves its core or makes
it report an error. -/
theorem failed_step_is_final (program : Program) (settings : Settings) (controls : List Control)
    (m after : Machine) (error : RuntimeError)
    (reached : m = (load program settings).obeyAll controls)
    (failed : step m = .error error after) :
    error.diagnostic.address = some m.core.ip ∧ error.diagnostic.line = none
      ∧ (∃ instruction, m.fetched? = some instruction ∧ m.FailsTo instruction error.fault after)
      ∧ ∀ later, (after.obeyAll later).core = after.core
        ∧ (after.obeyAll later).status = .failed
        ∧ ∀ control, (after.obeyAll later).reported? control = none := by
  obtain ⟨instruction, core, running, fetched, performed, address, rfl⟩ := step_eq_error failed
  have secure : (History.of program settings controls).Secure program settings.stackSize :=
    History.secure_of controls
  have valid : m.core.stack.Valid := by
    rw [reached, ← History.of_machine]
    exact secure.bounded.valid
  refine ⟨by rw [← address]; rfl, rfl, ⟨instruction, fetched, failsTo_of_perform valid performed⟩,
    fun later => ?_⟩
  have rest : ({ m with core := core, status := .failed } : Machine).status ≠ .running := by simp
  have alike := obeyAll_of_rest rest later
  exact ⟨alike.core, alike.status, reported?_of_rest (alike.rest rest)⟩

def sumOfKinds : Program :=
  .ofInstructions #[
    ⟨.const, [.ofNat 1]⟩, ⟨.print, []⟩, ⟨.const, [.text "a"]⟩, ⟨.binary .add, []⟩]

/-- The sum fails with both values gone and the printed line still waiting; the
burst after it returns that line, and no error. -/
theorem failed_step_is_final_of_sumOfKinds :
    let m := (load sumOfKinds ⟨8, 0, false⟩).obeyAll [.burst 1, .step, .step, .interrupt]
    m.core.stack.pointer = 1 ∧ m.waiting = [.printed "1\n"]
      ∧ ∃ after, step m = .error ⟨.kindMismatch "add" .number .text, 3⟩ after
        ∧ m.FailsTo ⟨.binary .add, []⟩ (.kindMismatch "add" .number .text) after
        ∧ after.core.stack.pointer = -1
        ∧ (after.burst 5).1 = .output (.printed "1\n")
        ∧ (after.obeyAll [.burst 5, .run 2, .step]).core = after.core := by
  intro m
  have failed : step m = .error ⟨.kindMismatch "add" .number .text, 3⟩ m.next := rfl
  obtain ⟨-, -, ⟨instruction, fetched, fails⟩, final⟩ := failed_step_is_final sumOfKinds
    ⟨8, 0, false⟩ [.burst 1, .step, .step, .interrupt] m m.next _ rfl failed
  obtain rfl : instruction = ⟨.binary .add, []⟩ :=
    Option.some.inj (fetched.symm.trans (by decide +kernel))
  exact ⟨by decide +kernel, by decide +kernel, m.next, failed, fails, by decide +kernel,
    by decide +kernel, (final _).1⟩

end Machine

end StackMachine
