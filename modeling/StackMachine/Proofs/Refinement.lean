import StackMachine.Proofs.Histories

/-!
Bursts refine single steps. However a machine is driven, as long as nobody asks
for a stop, its core and its status are those of a number of plain steps, and
what it has returned together with what is waiting is what these steps show.
`Faithful` is what one burst keeps.
-/

namespace StackMachine

namespace Event

def output? : Event → Option Output
  | .output shown => some shown
  | _ => none

end Event

namespace Machine

/-- Machines that differ at most in what waits and in a stop that was asked for. -/
structure Alike (m n : Machine) : Prop where
  program : m.program = n.program
  tracing : m.tracing = n.tracing
  core : m.core = n.core
  status : m.status = n.status

namespace Alike

variable {m n : Machine}

theorem fetched (alike : Alike m n) : m.fetched? = n.fetched? := by
  rw [fetched?, fetched?, alike.program, alike.core]

theorem executing (alike : Alike m n) : m.executing? = n.executing? := by
  rw [executing?, executing?, isRunning, isRunning, alike.status, alike.fetched, alike.core]

theorem trans {o : Machine} (first : Alike m n) (second : Alike n o) : Alike m o :=
  ⟨first.program.trans second.program, first.tracing.trans second.tracing,
    first.core.trans second.core, first.status.trans second.status⟩

theorem next (alike : Alike m n) : Alike m.next n.next := by
  have fetched := alike.fetched
  obtain ⟨program, tracing, core, status⟩ := alike
  by_cases running : m.status = .running
  · have running' : n.status = .running := status ▸ running
    cases found : m.fetched? with
    | none =>
      rw [Machine.next, Machine.next, step_of_end running found,
        step_of_end running' (fetched ▸ found)]
      exact ⟨program, tracing, core, rfl⟩
    | some instruction =>
      cases performed : Core.perform instruction m.core with
      | ok effect after =>
        rw [Machine.next, Machine.next, step_of_ok running found performed,
          step_of_ok running' (fetched ▸ found) (core ▸ performed)]
        refine ⟨program, tracing, ?_, rfl⟩
        rw [continueWith, continueWith, core]
      | error fault after =>
        rw [Machine.next, Machine.next, step_of_error running found performed,
          step_of_error running' (fetched ▸ found) (core ▸ performed)]
        exact ⟨program, tracing, rfl, rfl⟩
  · have rest : n.status ≠ .running := status ▸ running
    rw [next_of_rest running, next_of_rest rest]
    exact ⟨program, tracing, core, status⟩

theorem iterate (alike : Alike m n) (k : Nat) : Alike (Machine.next^[k] m) (Machine.next^[k] n) := by
  induction k with
  | zero => exact alike
  | succ k ih =>
    rw [Function.iterate_succ_apply', Function.iterate_succ_apply']
    exact ih.next

theorem executed (alike : Alike m n) (k : Nat) : m.executed k = n.executed k := by
  induction k with
  | zero => rfl
  | succ k ih => rw [executed_succ, executed_succ, ih, (alike.iterate k).executing]

end Alike

def AtRest (m : Machine) : Prop :=
  m.status ≠ .running ∧ m.waiting = []

theorem Bursts.atRest {steps : Nat} {m after : Machine} {log : List Executed} {event : Event}
    (rest : m.AtRest) (h : Bursts steps m log event after) : event = .stopped ∧ after.AtRest := by
  obtain ⟨status, silent⟩ := rest
  cases h with
  | returns waits =>
    rw [silent] at waits
    cases waits
  | breaks empty asked running => exact absurd running status
  | nothing empty zero => exact ⟨by simp [isRunning, status], status, silent⟩
  | advances empty calm advanced =>
    have still : ∀ n, next^[n] { m with interrupted := false } = { m with interrupted := false } :=
      Function.iterate_fixed (next_of_rest status)
    cases advanced with
    | spent clean running =>
      rw [still] at running
      exact absurd running status
    | shows le clean fresh =>
      rw [still] at fresh
      exact absurd (fresh.symm.trans silent) (List.cons_ne_nil _ _)
    | stops =>
      rw [still]
      exact ⟨rfl, status, silent⟩
    | fails lt clean quiet executing =>
      rw [still] at executing
      exact absurd (executing?_eq_some.1 executing).1 status

theorem AtRest.obey {m : Machine} (rest : m.AtRest) (control : Control) : (m.obey control).AtRest := by
  cases control with
  | step =>
    show m.next.AtRest
    rw [next_of_rest rest.1]
    exact rest
  | burst steps => exact ((bursts_burst steps m).atRest rest).2
  | run bursts =>
    have kept : ((⟨m, [], []⟩ : History).run bursts).machine.AtRest := by
      refine History.holds_run_of_kept_by_bursts (P := fun h => h.machine.AtRest)
        (fun steps h rest => ?_) bursts rest
      rw [History.burst_eq]
      exact ((bursts_burst steps h.machine).atRest rest).2
    exact History.extend_machine ⟨m, [], []⟩ (.run bursts) ▸ kept
  | interrupt => exact rest

theorem AtRest.obeyAll {m : Machine} (rest : m.AtRest) (controls : List Control) :
    (m.obeyAll controls).AtRest := by
  induction controls generalizing m with
  | nil => exact rest
  | cons control later ih => exact ih (rest.obey control)

/-- What a burst of at most `steps` instructions keeps when it executes `log`,
returns `event` and leaves the machine as `after`. -/
structure Faithful (steps : Nat) (m : Machine) (log : List Executed) (event : Event)
    (after : Machine) : Prop where
  within : log.length ≤ steps
  held : m.waiting ≠ [] → log = []
  running : event = .running → after.status = .running ∧ log.length = steps
    ∧ log.flatMap (Executed.shown m.tracing) = []
  /-- A failing instruction is the last one, and all that was shown before it has been returned. -/
  failing : ∀ e ∈ log, ∀ error, e.error? = some error → event = .failed error ∧ m.waiting = []
    ∧ ∃ earlier, log = earlier ++ [e] ∧ earlier.flatMap (Executed.shown m.tracing) = []
  failed : ∀ error, event = .failed error →
    (∃ e, log.getLast? = some e ∧ e.error? = some error) ∧ after.AtRest
  stopped : event = .stopped → after.AtRest

theorem Faithful.of_clean {steps : Nat} {m after : Machine} {log : List Executed} {event : Event}
    (clean : ∀ e ∈ log, e.error? = none) (within : log.length ≤ steps)
    (held : m.waiting ≠ [] → log = [])
    (running : event = .running → after.status = .running ∧ log.length = steps
      ∧ log.flatMap (Executed.shown m.tracing) = [])
    (unfailed : ∀ error, event ≠ .failed error) (stopped : event = .stopped → after.AtRest) :
    Faithful steps m log event after where
  within := within
  held := held
  running := running
  failing e mem error failed := by
    rw [clean e mem] at failed
    cases failed
  failed error same := absurd same (unfailed error)
  stopped := stopped

theorem Faithful.of_nothing {steps : Nat} {m after : Machine} {event : Event}
    (running : event = .running → after.status = .running ∧ steps = 0)
    (unfailed : ∀ error, event ≠ .failed error) (stopped : event = .stopped → after.AtRest) :
    Faithful steps m [] event after := by
  refine .of_clean (by simp) (Nat.zero_le steps) (fun _ => rfl) (fun spent => ?_) unfailed stopped
  obtain ⟨status, zero⟩ := running spent
  exact ⟨status, zero.symm, rfl⟩

theorem next_of_failing {m : Machine} {e : Executed} {error : RuntimeError}
    (executing : m.executing? = some e) (failed : e.error? = some error) :
    m.next.status ≠ .running ∧ m.next.waiting = m.waiting := by
  obtain ⟨running, fetched, same⟩ := executing?_eq_some.1 executing
  unfold Executed.error? at failed
  split at failed
  · cases failed
  · rename_i fault core performed
    rw [same] at performed
    rw [next, step_of_error running fetched performed]
    exact ⟨by simp, rfl⟩

theorem Advances.faithful {steps : Nat} {m after : Machine} {log : List Executed} {event : Event}
    (empty : m.waiting = []) (h : Advances steps m log event after) :
    Faithful steps m log event after := by
  have shown : ∀ n, (m.executed n).flatMap (Executed.shown m.tracing) = (next^[n] m).waiting := by
    intro n
    rw [waiting_iterate, empty, List.nil_append]
  have short := m.length_executed_le
  cases h with
  | spent clean running silent =>
    have length := length_executed_of_running running
    exact .of_clean clean (short steps) (absurd empty)
      (fun _ => ⟨running, length, (shown steps).trans silent⟩) (by simp) (by simp)
  | shows le clean fresh =>
    exact .of_clean clean (Nat.le_trans (short _) le) (absurd empty) (by simp) (by simp) (by simp)
  | stops le clean rest silent =>
    exact .of_clean clean (Nat.le_trans (short _) le) (absurd empty) (by simp) (by simp)
      fun _ => ⟨rest, silent⟩
  | @fails n e error lt clean silent executing failed =>
    have rest : (next^[n + 1] m).AtRest := by
      obtain ⟨status, waiting⟩ := next_of_failing executing failed
      rw [Function.iterate_succ_apply']
      exact ⟨status, waiting.trans silent⟩
    refine ⟨?_, absurd empty, by simp, ?_, ?_, by simp⟩
    · have bound := short n
      rw [List.length_append, List.length_singleton]
      omega
    · intro e' mem error' failed'
      obtain before | last := List.mem_append.1 mem
      · rw [clean e' before] at failed'
        cases failed'
      · obtain rfl := List.mem_singleton.1 last
        obtain rfl := Option.some.inj (failed.symm.trans failed')
        exact ⟨rfl, empty, _, rfl, (shown n).trans silent⟩
    · intro error' same
      cases same
      exact ⟨⟨e, List.getLast?_concat, failed⟩, rest⟩

theorem Bursts.faithful {steps : Nat} {m after : Machine} {log : List Executed} {event : Event}
    (h : Bursts steps m log event after) : Faithful steps m log event after := by
  cases h with
  | returns waits => exact .of_nothing (by simp) (by simp) (by simp)
  | breaks empty asked running => exact .of_nothing (by simp) (by simp) (by simp)
  | nothing empty zero =>
    by_cases running : m.status = .running
    · have busy : m.isRunning = true := by simpa [isRunning] using running
      rw [busy]
      exact .of_nothing (fun _ => ⟨running, zero⟩) (by simp) (by simp)
    · have idle : m.isRunning = false := by simpa [isRunning] using running
      rw [idle]
      exact .of_nothing (by simp) (by simp) fun _ => ⟨running, empty⟩
  | advances empty calm advanced =>
    have faithful := advanced.faithful
    obtain ⟨within, held, running, failing, failed, stopped⟩ := faithful empty
    exact ⟨within, held, running, failing, failed, stopped⟩

end Machine

namespace History

/-- The machine is that of a number of plain steps, which executed the same and
showed what was returned or waits. -/
structure Aligned (program : Program) (settings : Settings) (h : History) : Prop where
  calm : h.machine.interrupted = false
  steps : ∃ n, Machine.Alike h.machine (Machine.next^[n] (.load program settings))
    ∧ h.executed = (Machine.load program settings).executed n
  outputs : h.events.filterMap Event.output? ++ h.machine.waiting
    = h.executed.flatMap (Executed.shown settings.tracing)

variable {program : Program} {settings : Settings} {h : History}

theorem aligned_start : (start program settings).Aligned program settings where
  calm := rfl
  steps := ⟨0, ⟨rfl, rfl, rfl, rfl⟩, rfl⟩
  outputs := rfl

namespace Aligned

theorem tracing (aligned : h.Aligned program settings) : h.machine.tracing = settings.tracing := by
  obtain ⟨n, alike, -⟩ := aligned.steps
  rw [alike.tracing, Machine.iterate_tracing]
  rfl

theorem iterate (aligned : h.Aligned program settings) (k : Nat) :
    Aligned program settings
      ⟨Machine.next^[k] h.machine, h.executed ++ h.machine.executed k, h.events⟩ := by
  obtain ⟨n, alike, executed⟩ := aligned.steps
  refine ⟨(h.machine.iterate_interrupted k).trans aligned.calm, ⟨n + k, ?_, ?_⟩, ?_⟩
  · rw [Nat.add_comm, Function.iterate_add_apply]
    exact alike.iterate k
  · rw [Machine.executed_add, ← executed, alike.executed k]
  · rw [Machine.waiting_iterate, ← List.append_assoc, aligned.outputs, aligned.tracing,
      List.flatMap_append]

theorem returns (aligned : h.Aligned program settings) {shown : Output} {rest : List Output}
    (waits : h.machine.waiting = shown :: rest) :
    Aligned program settings
      ⟨{ h.machine with waiting := rest }, h.executed, h.events ++ [.output shown]⟩ := by
  obtain ⟨n, ⟨program, tracing, core, status⟩, executed⟩ := aligned.steps
  refine ⟨aligned.calm, ⟨n, ⟨program, tracing, core, status⟩, executed⟩, ?_⟩
  have outputs := aligned.outputs
  rw [waits] at outputs
  rw [List.filterMap_append, List.append_assoc]
  exact outputs

theorem reports (aligned : h.Aligned program settings) {event : Event}
    (silent : event.output? = none) :
    Aligned program settings ⟨h.machine, h.executed, h.events ++ [event]⟩ := by
  refine ⟨aligned.calm, aligned.steps, ?_⟩
  rw [List.filterMap_append, List.filterMap_cons_none silent, List.filterMap_nil, List.append_nil]
  exact aligned.outputs

theorem bursts {steps : Nat} {log : List Executed} {event : Event} {after : Machine}
    (aligned : h.Aligned program settings) (taken : Machine.Bursts steps h.machine log event after) :
    Aligned program settings ⟨after, h.executed ++ log, h.events ++ [event]⟩ := by
  cases taken with
  | returns waits =>
    rw [List.append_nil]
    exact aligned.returns waits
  | breaks empty asked =>
    rw [aligned.calm] at asked
    cases asked
  | nothing empty zero =>
    rw [List.append_nil]
    refine aligned.reports ?_
    cases h.machine.isRunning <;> rfl
  | advances empty calm advanced =>
    have same : { h.machine with interrupted := false } = h.machine := by rw [← aligned.calm]
    rw [same] at advanced
    cases advanced with
    | spent clean running silent => exact (aligned.iterate steps).reports rfl
    | shows le clean fresh => exact (aligned.iterate _).returns fresh
    | stops le clean rest silent => exact (aligned.iterate _).reports rfl
    | @fails n e error lt clean silent executing failed =>
      rw [← Machine.executed_concat executing]
      exact (aligned.iterate (n + 1)).reports rfl

end Aligned

theorem aligned_of {controls : List Control} (calm : Control.interrupt ∉ controls) :
    (of program settings controls).Aligned program settings := by
  refine holds_of_kept_by_controls aligned_start (fun h aligned => ?_) (fun steps h aligned => ?_)
    fun asked => absurd asked calm
  · have stepped := aligned.iterate 1
    rw [Machine.executed, Machine.executed, List.append_nil] at stepped
    exact stepped
  · rw [burst_eq]
    exact aligned.bursts (Machine.bursts_burst steps h.machine)

end History

namespace Machine

/-- However a machine is driven by steps, bursts and runs, it is where single
steps would have taken it, it neither loses nor repeats nor reorders what is
shown, every burst is faithful, and a burst that reports an error or a stop is
followed by stops only. -/
theorem bursts_refine_steps (program : Program) (settings : Settings) (controls : List Control)
    (calm : Control.interrupt ∉ controls) :
    let start := load program settings
    let m := start.obeyAll controls
    let executed := (History.of program settings controls).executed
    (History.of program settings controls).machine = m
      ∧ (∃ n, m.core = (next^[n] start).core ∧ m.status = (next^[n] start).status
        ∧ executed = start.executed n)
      ∧ (start.answersAll controls).filterMap Event.output? ++ m.waiting
        = executed.flatMap (Executed.shown settings.tracing)
      ∧ ∀ steps, (m.burstRecorded steps).2 = m.burst steps
        ∧ m.Faithful steps (m.burstRecorded steps).1 (m.burst steps).1 (m.burst steps).2
        ∧ ((m.burst steps).1 = .stopped ∨ (∃ error, (m.burst steps).1 = .failed error) →
          ∀ later more, (((m.burst steps).2.obeyAll later).burst more).1 = .stopped) := by
  intro start m executed
  have machine : (History.of program settings controls).machine = m := History.of_machine _ _ _
  have aligned : (History.of program settings controls).Aligned program settings :=
    History.aligned_of calm
  obtain ⟨-, ⟨n, alike, same⟩, outputs⟩ := aligned
  rw [machine] at alike outputs
  rw [History.of_events] at outputs
  refine ⟨machine, ⟨n, alike.core, alike.status, same⟩, outputs, fun steps => ?_⟩
  have faithful := (bursts_burst steps m).faithful
  refine ⟨burstRecorded_result steps m, faithful, fun ended later more => ?_⟩
  have rest : (m.burst steps).2.AtRest := by
    obtain stopped | ⟨error, failed⟩ := ended
    · exact faithful.stopped stopped
    · exact (faithful.failed error failed).2
  exact ((bursts_burst more _).atRest (rest.obeyAll later)).1

def printThenFail : Program :=
  .ofInstructions #[⟨.const, [.ofNat 1]⟩, ⟨.print, []⟩, ⟨.pop, []⟩, ⟨.pop, []⟩]

/-- The second burst returns the line that the single step printed, and the
trace of that step waits for the third. -/
theorem bursts_refine_steps_of_printThenFail :
    let start := load printThenFail ⟨4, 0, true⟩
    let controls : List Control := [.burst 2, .step, .burst 0]
    Control.interrupt ∉ controls
      ∧ start.answersAll controls =
        [.output (.traced "0000 const 1          stack [1] (1) *0\n"), .output (.printed "1\n")]
      ∧ (start.obeyAll controls).waiting = [.traced "0001 print            stack [1] (1) *0\n"]
      ∧ ∃ n, (start.obeyAll controls).core = (next^[n] start).core := by
  obtain ⟨-, ⟨n, core, -, -⟩, -, -⟩ :=
    bursts_refine_steps printThenFail ⟨4, 0, true⟩ [.burst 2, .step, .burst 0] (by decide)
  exact ⟨by decide, by decide +kernel, by decide +kernel, n, core⟩

end Machine

end StackMachine
