import StackMachine.Proofs.Stepping

/-!
Bursts, told by the steps they take. `executed` lists what a number of steps
executes, and `burstRecorded` is a burst that lists what it executes; leaving the
list out gives the burst back. The rules of `Advances` are all that a burst can
do once nothing is waiting and no stop was asked for.
-/

namespace StackMachine

structure Executed where
  core : Core
  instruction : Instruction
deriving DecidableEq

namespace Executed

def shown (tracing : Bool) (e : Executed) : List Output :=
  match Core.perform e.instruction e.core with
  | .ok effect core => Machine.outputs tracing e.core.ip e.instruction effect core.stack
  | .error _ _ => []

def error? (e : Executed) : Option RuntimeError :=
  match Core.perform e.instruction e.core with
  | .ok _ _ => none
  | .error fault _ => some ⟨fault, e.core.ip⟩

end Executed

namespace Machine

def executing? (m : Machine) : Option Executed :=
  if m.isRunning then m.fetched?.map fun instruction => ⟨m.core, instruction⟩ else none

def executed : Nat → Machine → List Executed
  | 0, _ => []
  | n + 1, m => m.executing?.toList ++ m.next.executed n

theorem executing?_of_rest {m : Machine} (rest : m.status ≠ .running) : m.executing? = none := by
  have idle : m.isRunning = false := by
    simpa [isRunning] using rest
  rw [executing?, idle]
  rfl

theorem executing?_of_running {m : Machine} (running : m.status = .running) :
    m.executing? = m.fetched?.map fun instruction => ⟨m.core, instruction⟩ := by
  have busy : m.isRunning = true := by
    simpa [isRunning] using running
  rw [executing?, busy]
  rfl

theorem executing?_eq_some {m : Machine} {e : Executed} :
    m.executing? = some e ↔
      m.status = .running ∧ m.fetched? = some e.instruction ∧ e.core = m.core := by
  by_cases running : m.status = .running
  · rw [executing?_of_running running, Option.map_eq_some_iff]
    refine ⟨fun h => ?_, fun h => ?_⟩
    · obtain ⟨instruction, fetched, rfl⟩ := h
      exact ⟨running, fetched, rfl⟩
    · exact ⟨e.instruction, h.2.1, by rw [← h.2.2]⟩
  · simp [executing?_of_rest running, running]

theorem step_eq_ok {m after : Machine} {continues : Bool} (h : step m = .ok continues after) :
    after = m.next ∧ continues = after.isRunning ∧ ∀ e ∈ m.executing?, e.error? = none := by
  refine ⟨by rw [next, h], ?_⟩
  obtain ⟨rest, stepped⟩ | ⟨running, past, stepped⟩ | ⟨_, _, _, -, -, -, stepped⟩
    | ⟨instruction, effect, core, running, fetched, performed, stepped⟩ := m.step_cases
  · cases h.symm.trans stepped
    rw [executing?_of_rest rest]
    exact ⟨by simpa [isRunning] using rest, by simp⟩
  · cases h.symm.trans stepped
    rw [executing?_of_running running, past]
    exact ⟨rfl, by simp⟩
  · cases h.symm.trans stepped
  · cases h.symm.trans stepped
    rw [executing?_of_running running, fetched]
    exact ⟨rfl, by simp [Executed.error?, performed]⟩

theorem executing?_of_step_error {m after : Machine} {error : RuntimeError}
    (h : step m = .error error after) :
    ∃ e, m.executing? = some e ∧ e.error? = some error := by
  obtain ⟨instruction, core, running, fetched, performed, address, -⟩ := step_eq_error h
  refine ⟨⟨m.core, instruction⟩, executing?_eq_some.2 ⟨running, fetched, rfl⟩, ?_⟩
  simp only [Executed.error?, performed, ← address]

theorem Moves.waiting {m after : Machine} (h : Moves m after) :
    after.waiting = m.waiting ++ m.executing?.toList.flatMap (Executed.shown m.tracing) := by
  cases h with
  | idle rest =>
    rw [executing?_of_rest rest]
    simp
  | ended running past =>
    rw [executing?_of_running running, past]
    simp
  | failed running fetched performed =>
    rw [executing?_of_running running, fetched]
    simp [Executed.shown, performed]
  | done running fetched performed =>
    rw [executing?_of_running running, fetched]
    simp [continueWith, Executed.shown, performed]

theorem Moves.tracing {m after : Machine} (h : Moves m after) : after.tracing = m.tracing := by
  cases h <;> rfl

theorem Moves.interrupted {m after : Machine} (h : Moves m after) :
    after.interrupted = m.interrupted := by
  cases h <;> rfl

theorem iterate_tracing (m : Machine) (n : Nat) : (next^[n] m).tracing = m.tracing := by
  induction n with
  | zero => rfl
  | succ n ih => rw [Function.iterate_succ_apply', (moves_next _).tracing, ih]

theorem iterate_interrupted (m : Machine) (n : Nat) :
    (next^[n] m).interrupted = m.interrupted := by
  induction n with
  | zero => rfl
  | succ n ih => rw [Function.iterate_succ_apply', (moves_next _).interrupted, ih]

theorem next_of_rest {m : Machine} (rest : m.status ≠ .running) : m.next = m := by
  rw [next, step_of_not_running rest]

theorem executed_add (m : Machine) (a b : Nat) :
    m.executed (a + b) = m.executed a ++ (next^[a] m).executed b := by
  induction a generalizing m with
  | zero => rw [Nat.zero_add]; rfl
  | succ a ih =>
    rw [Nat.succ_add, executed, executed, ih, List.append_assoc]
    rfl

theorem executed_succ (m : Machine) (n : Nat) :
    m.executed (n + 1) = m.executed n ++ (next^[n] m).executing?.toList := by
  rw [executed_add, executed, executed, List.append_nil]

theorem executed_concat {m : Machine} {n : Nat} {e : Executed}
    (executing : (next^[n] m).executing? = some e) : m.executed (n + 1) = m.executed n ++ [e] := by
  rw [executed_succ, executing, Option.toList_some]

theorem waiting_iterate (m : Machine) (n : Nat) :
    (next^[n] m).waiting = m.waiting ++ (m.executed n).flatMap (Executed.shown m.tracing) := by
  induction n with
  | zero => simp [executed]
  | succ n ih =>
    rw [Function.iterate_succ_apply', (moves_next _).waiting, ih, executed_succ, iterate_tracing,
      List.flatMap_append, List.append_assoc]

theorem length_executed_le (m : Machine) (n : Nat) : (m.executed n).length ≤ n := by
  induction n with
  | zero => exact Nat.le_refl 0
  | succ n ih =>
    rw [executed_succ, List.length_append]
    have one : (next^[n] m).executing?.toList.length ≤ 1 := Option.length_toList_le
    omega

theorem length_executed_of_running {m : Machine} {n : Nat}
    (running : (next^[n] m).status = .running) : (m.executed n).length = n := by
  induction n with
  | zero => rfl
  | succ n ih =>
    rw [Function.iterate_succ_apply'] at running
    have before : (next^[n] m).status = .running := by
      by_contra rest
      rw [next_of_rest rest] at running
      exact rest running
    rw [executed_succ, List.length_append, ih before, executing?_of_running before]
    cases fetched : (next^[n] m).fetched? with
    | none =>
      rw [next, step_of_end before fetched] at running
      cases running
    | some instruction => rfl

/-- `advance` with a list of what it executes. -/
def advanceRecorded : Nat → Machine → List Executed × Event × Machine
  | 0, m => ([], m.settle)
  | steps + 1, m =>
      if m.interrupted && m.isRunning then
        ([], .interrupted m.core.ip, { m with interrupted := false, status := .stopped })
      else
        let done := m.executing?.toList
        match step { m with interrupted := false } with
        | .error error m => (done, .failed error, m)
        | .ok true m =>
            if m.waiting.isEmpty then
              let (later, result) := m.advanceRecorded steps
              (done ++ later, result)
            else
              (done, m.settle)
        | .ok false m => (done, m.settle)

def burstRecorded (steps : Nat) (m : Machine) : List Executed × Event × Machine :=
  if m.waiting.isEmpty then m.advanceRecorded steps else ([], m.settle)

theorem advanceRecorded_result (steps : Nat) (m : Machine) :
    (m.advanceRecorded steps).2 = m.advance steps := by
  induction steps generalizing m with
  | zero => rfl
  | succ steps ih =>
    unfold advanceRecorded advance
    split
    · rfl
    · cases step { m with interrupted := false } with
      | error error after => rfl
      | ok continues after =>
        cases continues with
        | false => rfl
        | true =>
          dsimp only
          split
          · exact ih after
          · rfl

theorem burstRecorded_result (steps : Nat) (m : Machine) :
    (m.burstRecorded steps).2 = m.burst steps := by
  unfold burstRecorded burst
  split
  · exact advanceRecorded_result steps m
  · rfl

/-- What a burst does with nothing waiting and no stop asked for: the list of
what it executes, its event and the machine it leaves. -/
inductive Advances (steps : Nat) (m : Machine) : List Executed → Event → Machine → Prop where
  | spent (clean : ∀ e ∈ m.executed steps, e.error? = none)
      (running : (next^[steps] m).status = .running)
      (silent : (next^[steps] m).waiting = []) :
      Advances steps m (m.executed steps) .running (next^[steps] m)
  | shows {n : Nat} {shown : Output} {rest : List Output} (le : n ≤ steps)
      (clean : ∀ e ∈ m.executed n, e.error? = none)
      (fresh : (next^[n] m).waiting = shown :: rest) :
      Advances steps m (m.executed n) (.output shown) { next^[n] m with waiting := rest }
  | stops {n : Nat} (le : n ≤ steps) (clean : ∀ e ∈ m.executed n, e.error? = none)
      (rest : (next^[n] m).status ≠ .running) (silent : (next^[n] m).waiting = []) :
      Advances steps m (m.executed n) .stopped (next^[n] m)
  | fails {n : Nat} {e : Executed} {error : RuntimeError} (lt : n < steps)
      (clean : ∀ e ∈ m.executed n, e.error? = none) (silent : (next^[n] m).waiting = [])
      (executing : (next^[n] m).executing? = some e) (failed : e.error? = some error) :
      Advances steps m (m.executed n ++ [e]) (.failed error) (next^[n + 1] m)

theorem settle_of_waiting {m : Machine} {shown : Output} {rest : List Output}
    (h : m.waiting = shown :: rest) : m.settle = (.output shown, { m with waiting := rest }) := by
  simp only [settle, h]

theorem settle_of_running {m : Machine} (empty : m.waiting = []) (running : m.status = .running) :
    m.settle = (.running, m) := by
  simp [settle, empty, isRunning, running]

theorem settle_of_rest {m : Machine} (empty : m.waiting = []) (rest : m.status ≠ .running) :
    m.settle = (.stopped, m) := by
  simp [settle, empty, isRunning, rest]

theorem Advances.cons {steps : Nat} {m after : Machine} {log : List Executed} {event : Event}
    (clean : ∀ e ∈ m.executing?, e.error? = none) (h : Advances steps m.next log event after) :
    Advances (steps + 1) m (m.executing?.toList ++ log) event after := by
  have first : ∀ n, (∀ e ∈ m.next.executed n, e.error? = none) →
      ∀ e ∈ m.executed (n + 1), e.error? = none := by
    intro n later e mem
    rw [executed, List.mem_append, Option.mem_toList] at mem
    exact mem.elim (clean e) (later e)
  cases h with
  | spent later running silent => exact .spent (first steps later) running silent
  | @shows n shown rest le later fresh =>
    exact .shows (n := n + 1) (Nat.succ_le_succ le) (first n later) fresh
  | @stops n le later rest silent =>
    exact .stops (n := n + 1) (Nat.succ_le_succ le) (first n later) rest silent
  | @fails n e error lt later silent executing failed =>
    rw [← List.append_assoc]
    exact .fails (n := n + 1) (Nat.succ_lt_succ lt) (first n later) silent executing failed

theorem advances_settle {steps : Nat} {m : Machine}
    (clean : ∀ e ∈ m.executing?, e.error? = none)
    (done : m.next.waiting ≠ [] ∨ m.next.status ≠ .running) :
    Advances (steps + 1) m m.executing?.toList m.next.settle.1 m.next.settle.2 := by
  have one : m.executed 1 = m.executing?.toList := List.append_nil _
  have clean : ∀ e ∈ m.executed 1, e.error? = none := by
    intro e mem
    rw [one, Option.mem_toList] at mem
    exact clean e mem
  rw [← one]
  cases waiting : m.next.waiting with
  | nil =>
    have rest : m.next.status ≠ .running := done.resolve_left (absurd waiting)
    rw [settle_of_rest waiting rest]
    exact .stops (Nat.succ_le_succ (Nat.zero_le steps)) clean rest waiting
  | cons shown later =>
    rw [settle_of_waiting waiting]
    exact .shows (Nat.succ_le_succ (Nat.zero_le steps)) clean waiting

theorem advances_advance {m : Machine} (steps : Nat) (calm : m.interrupted = false)
    (empty : m.waiting = []) :
    Advances steps m (m.advanceRecorded steps).1 (m.advanceRecorded steps).2.1
      (m.advanceRecorded steps).2.2 := by
  induction steps generalizing m with
  | zero =>
    unfold advanceRecorded
    by_cases running : m.status = .running
    · rw [settle_of_running empty running]
      exact .spent (by simp [executed]) running empty
    · rw [settle_of_rest empty running]
      exact .stops (n := 0) (Nat.le_refl 0) (by simp [executed]) running empty
  | succ steps ih =>
    -- one step is taken; the rest of the burst starts from a calm machine with nothing waiting
    have same : { m with interrupted := false } = m := by rw [← calm]
    have quiet : (m.interrupted && m.isRunning) = false := by rw [calm]; rfl
    unfold advanceRecorded
    rw [same, quiet, if_neg Bool.false_ne_true]
    cases stepped : step m with
    | error error after =>
      obtain ⟨e, executing, failed⟩ := executing?_of_step_error stepped
      have after_eq : after = m.next := by rw [next, stepped]
      simp only [executing, Option.toList_some, after_eq]
      exact .fails (n := 0) (Nat.succ_pos steps) (by simp [executed]) empty executing failed
    | ok continues after =>
      obtain ⟨rfl, continues_eq, clean⟩ := step_eq_ok stepped
      cases continues with
      | false =>
        have rest : m.next.status ≠ .running := by
          simpa [isRunning] using continues_eq.symm
        exact advances_settle clean (.inr rest)
      | true =>
        dsimp only
        split
        · rename_i nothing
          have nothing := List.isEmpty_iff.1 nothing
          exact (ih ((moves_next m).interrupted.trans calm) nothing).cons clean
        · rename_i something
          exact advances_settle clean (.inl fun nothing => something (List.isEmpty_iff.2 nothing))

/-- What a burst does: it returns what is waiting, acts on a stop that was asked
for, leaves the machine alone, or advances. -/
inductive Bursts (steps : Nat) (m : Machine) : List Executed → Event → Machine → Prop where
  | returns {shown : Output} {rest : List Output} (waits : m.waiting = shown :: rest) :
      Bursts steps m [] (.output shown) { m with waiting := rest }
  | breaks (empty : m.waiting = []) (asked : m.interrupted = true)
      (running : m.status = .running) :
      Bursts steps m [] (.interrupted m.core.ip)
        { m with interrupted := false, status := .stopped }
  | nothing (empty : m.waiting = []) (zero : steps = 0) :
      Bursts steps m [] (if m.isRunning then .running else .stopped) m
  | advances {log : List Executed} {event : Event} {after : Machine} (empty : m.waiting = [])
      (calm : m.interrupted = true → m.status ≠ .running)
      (advanced : Advances steps { m with interrupted := false } log event after) :
      Bursts steps m log event after

theorem bursts_burst (steps : Nat) (m : Machine) :
    Bursts steps m (m.burstRecorded steps).1 (m.burst steps).1 (m.burst steps).2 := by
  rw [← burstRecorded_result]
  cases waiting : m.waiting with
  | cons shown rest =>
    have held : m.burstRecorded steps = ([], .output shown, { m with waiting := rest }) := by
      simp [burstRecorded, waiting, settle]
    rw [held]
    exact .returns waiting
  | nil =>
    have opened : m.burstRecorded steps = m.advanceRecorded steps := by
      simp [burstRecorded, waiting]
    rw [opened]
    cases steps with
    | zero =>
      have settled : m.advanceRecorded 0 = ([], if m.isRunning then .running else .stopped, m) := by
        simp [advanceRecorded, settle, waiting]
      rw [settled]
      exact .nothing waiting rfl
    | succ steps =>
      by_cases asked : m.interrupted = true ∧ m.status = .running
      · have broken : m.advanceRecorded (steps + 1) = ([], .interrupted m.core.ip,
            { m with interrupted := false, status := .stopped }) := by
          simp [advanceRecorded, isRunning, asked]
        rw [broken]
        exact .breaks waiting asked.1 asked.2
      · have dropped : m.advanceRecorded (steps + 1)
            = advanceRecorded (steps + 1) { m with interrupted := false } := by
          have quiet : (m.interrupted && m.isRunning) = false := by
            simpa [isRunning] using asked
          simp only [advanceRecorded, quiet, Bool.false_and]
          rfl
        rw [dropped]
        exact .advances waiting (fun set running => asked ⟨set, running⟩)
          (advances_advance (steps + 1) rfl waiting)

end Machine

end StackMachine
