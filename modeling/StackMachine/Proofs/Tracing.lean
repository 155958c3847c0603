import StackMachine.Proofs.Bounds
import StackMachine.Proofs.Refinement

/-!
Tracing only observes. Taking the flag and the trace lines away from a machine,
`untraced`, commutes with every step, so two machines that differ in the flag
alone go through the same cores with the same results. What a traced step shows
is told by `shownByStep`. Driven by bursts until they stop, both print the same
and report the same error, though the bursts are cut at different places.
-/

namespace StackMachine

namespace Output

def isPrinted : Output → Bool
  | .printed _ => true
  | .traced _ => false

end Output

namespace Event

def printedText (events : List Event) : String :=
  String.join (((events.filterMap output?).filter Output.isPrinted).map Output.text)

end Event

namespace Machine

def outcome (m : Machine) : Except RuntimeError Bool :=
  match step m with
  | .ok continues _ => .ok continues
  | .error error _ => .error error

def untraced (m : Machine) : Machine :=
  { m with tracing := false, waiting := m.waiting.filter Output.isPrinted }

theorem outputs_untraced (tracing : Bool) (address : Nat) (instruction : Instruction)
    (effect : Effect) (stack : Stack) :
    (outputs tracing address instruction effect stack).filter Output.isPrinted =
      outputs false address instruction effect stack := by
  obtain ⟨flow, printed⟩ := effect
  cases printed <;> cases tracing <;> rfl

theorem continueWith_untraced (m : Machine) (instruction : Instruction) (effect : Effect)
    (core : Core) :
    m.untraced.continueWith instruction effect core =
      (m.continueWith instruction effect core).untraced := by
  simp only [continueWith, untraced, List.filter_append, outputs_untraced]

theorem step_untraced (m : Machine) :
    m.untraced.outcome = m.outcome ∧ m.untraced.next = m.next.untraced := by
  unfold outcome next
  obtain ⟨rest, stepped⟩ | ⟨running, past, stepped⟩
    | ⟨instruction, fault, core, running, fetched, performed, stepped⟩
    | ⟨instruction, effect, core, running, fetched, performed, stepped⟩ := m.step_cases
  · have plain : step m.untraced = .ok false m.untraced := step_of_not_running rest
    simp only [stepped, plain, and_self]
  · have plain : step m.untraced = .ok false { m.untraced with status := .stopped } :=
      step_of_end running past
    simp only [stepped, plain, true_and]
    rfl
  · have plain : step m.untraced =
        .error ⟨fault, m.core.ip⟩ { m.untraced with core := core, status := .failed } :=
      step_of_error running fetched performed
    simp only [stepped, plain, true_and]
    rfl
  · have plain : step m.untraced = .ok (effect.flow.status == .running)
        (m.untraced.continueWith instruction effect core) :=
      step_of_ok running fetched performed
    simp only [stepped, plain, true_and, continueWith_untraced]

theorem iterate_untraced (m : Machine) (n : Nat) :
    next^[n] m.untraced = (next^[n] m).untraced := by
  induction n with
  | zero => rfl
  | succ n ih =>
    rw [Function.iterate_succ_apply', Function.iterate_succ_apply', ih, (step_untraced _).2]

theorem executed_untraced (m : Machine) (n : Nat) : m.untraced.executed n = m.executed n := by
  induction n with
  | zero => rfl
  | succ n ih =>
    rw [executed_succ, executed_succ, ih, iterate_untraced]
    rfl

/-- A trace line by the values that are live: the address of the instruction, the
instruction, the values from the bottom up, the one on top, and the index of its slot. -/
def lineOn (address : Nat) (instruction : Instruction) (live : List Value) : String :=
  addressText address ++ " " ++ instruction.column
    ++ " stack " ++ ("[" ++ ", ".intercalate (live.map Value.quoted) ++ "]")
    ++ " (" ++ live.getLast?.elim "empty" Value.quoted ++ ") *"
    ++ toString ((live.length : Int) - 1) ++ "\n"

theorem traceLine_eq (address : Nat) (instruction : Instruction) {stack : Stack}
    (valid : stack.Valid) :
    traceLine address instruction stack = lineOn address instruction stack.live := by
  unfold traceLine lineOn
  rw [← Stack.toOption_peek valid, Stack.length_live valid]
  cases stack.peek <;> rfl

/-- What a traced step is to show: the top of the stack if it is a print, then
one trace line with the address of the instruction and the stack as the step
leaves it. A step that fails or executes nothing shows nothing. -/
def shownByStep (m : Machine) : List Output :=
  match m.executing?, m.outcome with
  | some e, .ok _ =>
      (if e.instruction.opcode = .print then
        m.core.stack.live.getLast?.toList.map fun value => .printed (value.plain ++ "\n")
      else [])
        ++ [.traced (lineOn m.core.ip e.instruction m.next.core.stack.live)]
  | _, _ => []

theorem printed_of_perform {core after : Core} {instruction : Instruction} {effect : Effect}
    (valid : core.stack.Valid)
    (performed : Core.perform instruction core = .ok effect after) :
    (effect.printed.map Output.printed).toList =
      if instruction.opcode = .print then
        core.stack.live.getLast?.toList.map fun value => .printed (value.plain ++ "\n")
      else [] := by
  rw [← Stack.toOption_peek valid]
  cases Core.executes_of_perform performed with
  | print op top => simp [op, top, Except.toOption]
  | _ op => simp [op]

theorem next_waiting_of_tracing {m : Machine} (tracing : m.tracing = true)
    (valid : m.core.stack.Valid) (valid' : m.next.core.stack.Valid) :
    m.next.waiting = m.waiting ++ m.shownByStep := by
  unfold shownByStep outcome
  unfold next at valid' ⊢
  obtain ⟨rest, stepped⟩ | ⟨running, past, stepped⟩
    | ⟨instruction, fault, core, running, fetched, performed, stepped⟩
    | ⟨instruction, effect, core, running, fetched, performed, stepped⟩ := m.step_cases
  · rw [stepped, executing?_of_rest rest, List.append_nil]
  · rw [stepped, executing?_of_running running, past]
    exact (List.append_nil _).symm
  · rw [stepped, executing?_of_running running, fetched]
    exact (List.append_nil _).symm
  -- the line is written when the step is done, so it tells the stack that the step leaves
  · rw [stepped] at valid'
    have line : traceLine m.core.ip instruction core.stack =
        lineOn m.core.ip instruction core.stack.live := traceLine_eq _ _ valid'
    rw [stepped, executing?_of_running running, fetched]
    simp only [continueWith, outputs, tracing, if_true, printed_of_perform valid performed, line]
    rfl

theorem waiting_of_tracing {m : Machine} (tracing : m.tracing = true)
    (valid : ∀ k, (next^[k] m).core.stack.Valid) (n : Nat) :
    (next^[n] m).waiting =
      m.waiting ++ (List.range n).flatMap fun k => (next^[k] m).shownByStep := by
  induction n with
  | zero => simp
  | succ n ih =>
    have flag : (next^[n] m).tracing = true := (m.iterate_tracing n).trans tracing
    have after := valid (n + 1)
    rw [Function.iterate_succ_apply'] at after ⊢
    rw [next_waiting_of_tracing flag (valid n) after, ih, List.range_succ,
      List.flatMap_append, List.append_assoc, List.flatMap_singleton]

theorem executed_of_rest {m : Machine} (rest : m.status ≠ .running) (n : Nat) :
    m.executed n = [] := by
  induction n with
  | zero => rfl
  | succ n ih => rw [executed, executing?_of_rest rest, next_of_rest rest, ih]; rfl

theorem executed_eq_of_rest {m : Machine} {a b : Nat} (first : (next^[a] m).status ≠ .running)
    (second : (next^[b] m).status ≠ .running) : m.executed a = m.executed b := by
  -- a machine at rest executes nothing more, so both logs are the one of `a + b` steps
  calc m.executed a
      = m.executed (a + b) := by rw [executed_add, executed_of_rest first, List.append_nil]
    _ = m.executed (b + a) := by rw [Nat.add_comm]
    _ = m.executed b := by rw [executed_add, executed_of_rest second, List.append_nil]

theorem Bursts.errors {steps : Nat} {m after : Machine} {log : List Executed} {event : Event}
    (h : Bursts steps m log event after) :
    log.filterMap Executed.error? = event.error?.toList := by
  have none_of_clean : ∀ log : List Executed, (∀ e ∈ log, e.error? = none) →
      log.filterMap Executed.error? = [] :=
    fun log => List.filterMap_eq_nil_iff.2
  cases h with
  | returns waits => rfl
  | breaks empty asked running => rfl
  | nothing empty zero => cases m.isRunning <;> rfl
  | advances empty calm advanced =>
    cases advanced with
    | spent clean running silent => exact none_of_clean _ clean
    | shows le clean fresh => exact none_of_clean _ clean
    | stops le clean rest silent => exact none_of_clean _ clean
    | fails lt clean silent executing failed =>
      rw [List.filterMap_append, none_of_clean _ clean, List.filterMap_cons_some failed]
      rfl

end Machine

namespace History

variable {program : Program} {settings : Settings}

/-- What a history of bursts keeps: every error is reported once, and a machine
that has reported its stop is at rest. -/
structure Reported (h : History) : Prop where
  errors : h.events.filterMap Event.error? = h.executed.filterMap Executed.error?
  stopped : .stopped ∈ h.events → h.machine.AtRest

theorem Reported.burst {h : History} (reported : h.Reported) (steps : Nat) :
    (h.burst steps).Reported := by
  have taken := Machine.bursts_burst steps h.machine
  rw [burst_eq]
  refine ⟨?_, fun mem => ?_⟩
  · rw [List.filterMap_append, List.filterMap_append, reported.errors, taken.errors]
    cases event : (h.machine.burst steps).1.error? <;> simp [event]
  · rcases List.mem_append.1 mem with before | last
    · exact (taken.atRest (reported.stopped before)).2
    · exact taken.faithful.stopped (List.mem_singleton.1 last).symm

theorem reported_of_bursts (budgets : List Nat) :
    (of program settings (budgets.map .burst)).Reported := by
  have along : ∀ h : History, h.Reported → ((budgets.map .burst).foldl extend h).Reported := by
    induction budgets with
    | nil => exact fun h reported => reported
    | cons steps rest ih => exact fun h reported => ih _ (reported.burst steps)
  exact along (start program settings) ⟨rfl, by simp [start]⟩

theorem returned_of_stopped {budgets : List Nat}
    (stopped : .stopped ∈ (Machine.load program settings).answersAll (budgets.map .burst)) :
    ∃ n, (Machine.next^[n] (Machine.load program settings)).status ≠ .running
      ∧ ((Machine.load program settings).answersAll (budgets.map .burst)).filterMap Event.output?
        = ((Machine.load program settings).executed n).flatMap (Executed.shown settings.tracing)
      ∧ ((Machine.load program settings).answersAll (budgets.map .burst)).filterMap Event.error?
        = ((Machine.load program settings).executed n).filterMap Executed.error? := by
  have aligned : (of program settings (budgets.map .burst)).Aligned program settings :=
    aligned_of (by simp)
  have reported : (of program settings (budgets.map .burst)).Reported := reported_of_bursts budgets
  obtain ⟨-, ⟨n, alike, same⟩, outputs⟩ := aligned
  obtain ⟨errors, ended⟩ := reported
  rw [of_events] at errors ended
  obtain ⟨rest, silent⟩ := ended stopped
  rw [of_events, silent, List.append_nil, same] at outputs
  rw [same] at errors
  exact ⟨n, alike.status ▸ rest, outputs, errors⟩

end History

theorem Executed.filter_shown (tracing : Bool) (e : Executed) :
    (e.shown tracing).filter Output.isPrinted = e.shown false := by
  unfold shown
  split
  · exact Machine.outputs_untraced _ _ _ _ _
  · rfl

theorem Executed.filter_flatMap_shown (tracing : Bool) (log : List Executed) :
    (log.flatMap (shown tracing)).filter Output.isPrinted = log.flatMap (shown false) := by
  induction log with
  | nil => rfl
  | cons e rest ih => rw [List.flatMap_cons, List.filter_append, filter_shown, ih]; rfl

namespace Machine

/-- Two machines that differ in the tracing flag alone have the same results,
cores and statuses after every number of steps, and what waits differs by the
trace lines; the traced one has one such line for each instruction that
succeeded. Bursts up to the stop print the same and report the same error. -/
theorem tracing_only_observes (program : Program) (stackSize entry : Nat) :
    let traced := load program ⟨stackSize, entry, true⟩
    let plain := load program ⟨stackSize, entry, false⟩
    (∀ n, (next^[n] plain).outcome = (next^[n] traced).outcome
        ∧ (next^[n] plain).core = (next^[n] traced).core
        ∧ (next^[n] plain).status = (next^[n] traced).status
        ∧ (next^[n] plain).waiting = (next^[n] traced).waiting.filter Output.isPrinted
        ∧ (next^[n] traced).waiting
          = (List.range n).flatMap fun k => (next^[k] traced).shownByStep)
      ∧ ∀ tracedBudgets plainBudgets : List Nat,
        let tracedEvents := traced.answersAll (tracedBudgets.map .burst)
        let plainEvents := plain.answersAll (plainBudgets.map .burst)
        .stopped ∈ tracedEvents → .stopped ∈ plainEvents →
          Event.printedText plainEvents = Event.printedText tracedEvents
            ∧ plainEvents.filterMap Event.error? = tracedEvents.filterMap Event.error? := by
  intro traced plain
  have same : plain = traced.untraced := rfl
  refine ⟨fun n => ?_, ?_⟩
  · rw [same, iterate_untraced, (step_untraced _).1]
    have valid : ∀ k, (next^[k] traced).core.stack.Valid :=
      fun k => (bounded_iterate program ⟨stackSize, entry, true⟩ k).valid
    exact ⟨rfl, rfl, rfl, rfl, waiting_of_tracing rfl valid n⟩
  · intro tracedBudgets plainBudgets tracedEvents plainEvents stopped ended
    obtain ⟨a, rest, outputs, errors⟩ := History.returned_of_stopped stopped
    obtain ⟨b, rest', outputs', errors'⟩ := History.returned_of_stopped ended
    have done : (next^[b] traced).status ≠ .running := fun running =>
      rest' ((congrArg status (traced.iterate_untraced b)).trans running)
    -- the bursts end at different steps, but nothing is executed behind the first stop
    have executed : plain.executed b = traced.executed a :=
      (traced.executed_untraced b).trans (executed_eq_of_rest done rest)
    refine ⟨?_, errors'.trans (executed ▸ errors.symm)⟩
    unfold tracedEvents plainEvents Event.printedText
    rw [outputs, outputs', executed, Executed.filter_flatMap_shown, Executed.filter_flatMap_shown]

/-- The bursts are cut at different places, and the same is printed before the same error. -/
theorem tracing_only_observes_of_printThenFail :
    let traced := load printThenFail ⟨4, 0, true⟩
    let plain := load printThenFail ⟨4, 0, false⟩
    let tracedEvents := traced.answersAll ([1, 0, 7, 1, 2, 1, 1].map .burst)
    let plainEvents := plain.answersAll ([9, 9, 9].map .burst)
    tracedEvents =
        [.output (.traced "0000 const 1          stack [1] (1) *0\n"), .running,
          .output (.printed "1\n"), .output (.traced "0001 print            stack [1] (1) *0\n"),
          .output (.traced "0002 pop              stack [] (empty) *-1\n"),
          .failed ⟨.empty "stack", 3⟩, .stopped]
      ∧ plainEvents = [.output (.printed "1\n"), .failed ⟨.empty "stack", 3⟩, .stopped]
      ∧ Event.printedText plainEvents = Event.printedText tracedEvents
      ∧ plainEvents.filterMap Event.error? = tracedEvents.filterMap Event.error?
      ∧ (List.range 4).flatMap (fun k => (next^[k] traced).shownByStep) =
        [.traced "0000 const 1          stack [1] (1) *0\n", .printed "1\n",
          .traced "0001 print            stack [1] (1) *0\n",
          .traced "0002 pop              stack [] (empty) *-1\n"] := by
  intro traced plain tracedEvents plainEvents
  obtain ⟨steps, same⟩ := tracing_only_observes printThenFail 4 0
  have stopped : .stopped ∈ tracedEvents := by decide +kernel
  have stopped' : .stopped ∈ plainEvents := by decide +kernel
  obtain ⟨printed, errors⟩ := same _ _ stopped stopped'
  obtain ⟨-, -, -, -, waiting⟩ := steps 4
  refine ⟨by decide +kernel, by decide +kernel, printed, errors, waiting.symm.trans ?_⟩
  decide +kernel

end Machine

end StackMachine
