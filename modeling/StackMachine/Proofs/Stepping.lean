import Mathlib.Logic.Function.Iterate
import StackMachine.Machine

/-!
Steps as a function on machines, so that a run is an iterate of `next`. The four
rules of `Moves` are all that a step can do: nothing on a machine at rest, a
stop behind the last instruction, and an instruction that fails or succeeds.
-/

namespace StackMachine

namespace Machine

def next (m : Machine) : Machine :=
  match step m with
  | .ok _ m => m
  | .error _ m => m

inductive Moves (m : Machine) : Machine → Prop where
  | idle (rest : m.status ≠ .running) : Moves m m
  | ended (running : m.status = .running) (past : m.fetched? = none) :
      Moves m { m with status := .stopped }
  | failed {instruction : Instruction} {fault : Fault} {core : Core}
      (running : m.status = .running) (fetched : m.fetched? = some instruction)
      (performed : Core.perform instruction m.core = .error fault core) :
      Moves m { m with core := core, status := .failed }
  | done {instruction : Instruction} {effect : Effect} {core : Core}
      (running : m.status = .running) (fetched : m.fetched? = some instruction)
      (performed : Core.perform instruction m.core = .ok effect core) :
      Moves m (m.continueWith instruction effect core)

theorem step_cases (m : Machine) :
    (m.status ≠ .running ∧ step m = .ok false m)
      ∨ (m.status = .running ∧ m.fetched? = none
        ∧ step m = .ok false { m with status := .stopped })
      ∨ (∃ instruction fault core, m.status = .running ∧ m.fetched? = some instruction
        ∧ Core.perform instruction m.core = .error fault core
        ∧ step m = .error ⟨fault, m.core.ip⟩ { m with core := core, status := .failed })
      ∨ ∃ instruction effect core, m.status = .running ∧ m.fetched? = some instruction
        ∧ Core.perform instruction m.core = .ok effect core
        ∧ step m = .ok (effect.flow.status == .running)
          (m.continueWith instruction effect core) := by
  by_cases running : m.status = .running
  · right
    cases fetched : m.fetched? with
    | none => exact .inl ⟨running, rfl, step_of_end running fetched⟩
    | some instruction =>
      right
      cases performed : Core.perform instruction m.core with
      | ok effect core =>
        exact .inr ⟨instruction, effect, core, running, rfl, performed,
          step_of_ok running fetched performed⟩
      | error fault core =>
        exact .inl ⟨instruction, fault, core, running, rfl, performed,
          step_of_error running fetched performed⟩
  · exact .inl ⟨running, step_of_not_running running⟩

theorem moves_next (m : Machine) : Moves m m.next := by
  unfold next
  obtain ⟨rest, stepped⟩ | ⟨running, past, stepped⟩
    | ⟨instruction, fault, core, running, fetched, performed, stepped⟩
    | ⟨instruction, effect, core, running, fetched, performed, stepped⟩ := m.step_cases
  · rw [stepped]
    exact .idle rest
  · rw [stepped]
    exact .ended running past
  · rw [stepped]
    exact .failed running fetched performed
  · rw [stepped]
    exact .done running fetched performed

theorem step_eq_error {m after : Machine} {error : RuntimeError} (h : step m = .error error after) :
    ∃ instruction core, m.status = .running ∧ m.fetched? = some instruction
      ∧ Core.perform instruction m.core = .error error.fault core ∧ error.address = m.core.ip
      ∧ after = { m with core := core, status := .failed } := by
  obtain ⟨-, stepped⟩ | ⟨-, -, stepped⟩
    | ⟨instruction, fault, core, running, fetched, performed, stepped⟩
    | ⟨_, _, _, -, -, -, stepped⟩ := m.step_cases
  · cases h.symm.trans stepped
  · cases h.symm.trans stepped
  · cases h.symm.trans stepped
    exact ⟨instruction, core, running, fetched, performed, rfl, rfl⟩
  · cases h.symm.trans stepped

theorem Moves.program {m after : Machine} (h : Moves m after) : after.program = m.program := by
  cases h <;> rfl

theorem iterate_load_program (program : Program) (settings : Settings) (n : Nat) :
    (next^[n] (load program settings)).program = program := by
  induction n with
  | zero => rfl
  | succ n ih => rw [Function.iterate_succ_apply', (moves_next _).program, ih]

end Machine

end StackMachine
