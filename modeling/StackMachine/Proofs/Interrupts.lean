import StackMachine.Proofs.FailedSteps
import StackMachine.Proofs.Tracing

/-!
Interrupts. A stop that is asked for while the machine runs holds it where it
stands: bursts go on to return what is waiting, the first burst with a step to
spend after that reports the stop, and all later ones report that the machine
has stopped. `replies` tells this as a function of the steps that the bursts are
given. On a machine that does not run, asking for a stop changes nothing.
-/

namespace StackMachine

namespace Event

def isBreak : Event → Bool
  | .interrupted _ => true
  | _ => false

end Event

namespace Control

def budget? : Control → Option Nat
  | .burst steps => some steps
  | _ => none

/-- The controls of a caller that executes by bursts only. A step would not heed an interrupt. -/
def heeds : Control → Bool
  | .burst _ | .interrupt => true
  | .step | .run _ => false

end Control

namespace Machine

/-- What bursts return when a stop was asked for before the instruction at
`address`, by what was waiting then and by the steps that each burst is given. -/
def replies (address : Nat) : List Output → List Nat → List Event
  | _, [] => []
  | shown :: rest, _ :: budgets => .output shown :: replies address rest budgets
  | [], 0 :: budgets => .running :: replies address [] budgets
  | [], (_ + 1) :: budgets => .interrupted address :: List.replicate budgets.length .stopped

def farewells : List Output → Nat → List Event
  | _, 0 => []
  | shown :: rest, bursts + 1 => .output shown :: farewells rest bursts
  | [], bursts + 1 => .stopped :: farewells [] bursts

theorem farewells_nil (bursts : Nat) : farewells [] bursts = List.replicate bursts .stopped := by
  induction bursts with
  | zero => rfl
  | succ bursts ih => rw [farewells, ih, List.replicate_succ]

theorem isBreak_of_mem_farewells {waiting : List Output} {bursts : Nat} {event : Event}
    (mem : event ∈ farewells waiting bursts) : event.isBreak = false := by
  induction bursts generalizing waiting with
  | zero => simp [farewells] at mem
  | succ bursts ih =>
    cases waiting with
    | nil =>
      obtain rfl | later := List.mem_cons.1 mem
      · rfl
      · exact ih later
    | cons shown rest =>
      obtain rfl | later := List.mem_cons.1 mem
      · rfl
      · exact ih later

theorem answersAll_of_rest {m : Machine} {later : List Control} (rest : m.status ≠ .running)
    (heeding : ∀ control ∈ later, control.heeds = true) :
    m.answersAll later = farewells m.waiting (later.filterMap Control.budget?).length := by
  induction later generalizing m with
  | nil => simp [answersAll, farewells]
  | cons control later ih =>
    obtain ⟨here, there⟩ := List.forall_mem_cons.1 heeding
    cases control with
    | step => cases here
    | run bursts => cases here
    | interrupt => exact ih (m := m.interrupt) rest there
    | burst steps =>
      have given : Control.budget? (.burst steps) = some steps := rfl
      rw [List.filterMap_cons_some given, List.length_cons, answersAll, answers, obey]
      cases waiting : m.waiting with
      | nil =>
        obtain ⟨event, status, silent⟩ := (bursts_burst steps m).atRest ⟨rest, waiting⟩
        rw [event, ih status there, silent]
        rfl
      | cons shown more =>
        rw [burst_of_waiting steps waiting]
        exact congrArg (Event.output shown :: ·) (ih (m := { m with waiting := more }) rest there)

theorem answersAll_of_asked {m : Machine} {later : List Control} (asked : m.interrupted = true)
    (running : m.status = .running) (heeding : ∀ control ∈ later, control.heeds = true) :
    m.answersAll later = replies m.core.ip m.waiting (later.filterMap Control.budget?) := by
  induction later generalizing m with
  | nil => simp [answersAll, replies]
  | cons control later ih =>
    obtain ⟨here, there⟩ := List.forall_mem_cons.1 heeding
    cases control with
    | step => cases here
    | run bursts => cases here
    | interrupt => exact ih (m := m.interrupt) rfl running there
    | burst steps =>
      have given : Control.budget? (.burst steps) = some steps := rfl
      rw [List.filterMap_cons_some given, answersAll, answers, obey]
      cases waiting : m.waiting with
      | cons shown more =>
        rw [burst_of_waiting steps waiting]
        exact congrArg (Event.output shown :: ·)
          (ih (m := { m with waiting := more }) asked running there)
      | nil =>
        rw [burst_of_empty steps waiting]
        cases steps with
        | zero =>
          rw [advance, settle_of_running waiting running, ih asked running there, waiting]
          rfl
        | succ steps =>
          -- this burst reports the stop, and those behind it find a machine at rest
          have broken : m.advance (steps + 1) = (.interrupted m.core.ip,
              { m with interrupted := false, status := .stopped }) := by
            simp [advance, isRunning, asked, running]
          rw [broken, answersAll_of_rest (by simp) there, waiting, farewells_nil]
          rfl

/-- A burst of this machine executes nothing: it does not run, or a stop is asked for. -/
def Held (m : Machine) : Prop :=
  m.status = .running → m.interrupted = true

theorem Bursts.log_of_rest {steps : Nat} {m after : Machine} {log : List Executed} {event : Event}
    (rest : m.status ≠ .running) (h : Bursts steps m log event after) : log = [] := by
  cases h with
  | returns waits => rfl
  | breaks empty asked running => rfl
  | nothing empty zero => rfl
  | advances empty calm advanced =>
    have dropped : ({ m with interrupted := false } : Machine).status ≠ .running := rest
    cases advanced with
    | spent clean running silent => exact executed_of_rest dropped _
    | shows le clean fresh => exact executed_of_rest dropped _
    | stops le clean still silent => exact executed_of_rest dropped _
    | fails lt clean silent executing failed =>
      rw [Function.iterate_fixed (next_of_rest dropped)] at executing
      exact absurd (executing?_eq_some.1 executing).1 rest

theorem Bursts.of_held {steps : Nat} {m after : Machine} {log : List Executed} {event : Event}
    (held : m.Held) (h : Bursts steps m log event after) :
    log = [] ∧ after.core = m.core ∧ after.Held := by
  by_cases running : m.status = .running
  · cases h with
    | returns waits => exact ⟨rfl, rfl, held⟩
    | breaks empty asked running => exact ⟨rfl, rfl, by simp [Held]⟩
    | nothing empty zero => exact ⟨rfl, rfl, held⟩
    | advances empty calm advanced => exact absurd running (calm (held running))
  · have alike := (h.of_rest running).1
    exact ⟨h.log_of_rest running, alike.core, fun started => absurd started (alike.rest running)⟩

theorem Bursts.of_isBreak {steps : Nat} {m after : Machine} {log : List Executed} {event : Event}
    (broken : event.isBreak = true) (h : Bursts steps m log event after) :
    m.status = .running ∧ after.AtRest := by
  cases h with
  | returns waits => cases broken
  | breaks empty asked running => exact ⟨running, by simp, empty⟩
  | nothing empty zero => split at broken <;> cases broken
  | advances empty calm advanced => cases advanced <;> cases broken

end Machine

namespace History

variable {program : Program} {settings : Settings} {h : History}

theorem foldl_of_held {later : List Control} (held : h.machine.Held)
    (heeding : ∀ control ∈ later, control.heeds = true) :
    (later.foldl extend h).executed = h.executed
      ∧ (later.foldl extend h).machine.core = h.machine.core := by
  induction later generalizing h with
  | nil => exact ⟨rfl, rfl⟩
  | cons control later ih =>
    obtain ⟨here, there⟩ := List.forall_mem_cons.1 heeding
    rw [List.foldl_cons]
    cases control with
    | step => cases here
    | run bursts => cases here
    | interrupt => exact ih (h := h.interrupt) (fun _ => rfl) there
    | burst steps =>
      obtain ⟨log, core, held'⟩ := (Machine.bursts_burst steps h.machine).of_held held
      have burst := h.burst_eq steps
      rw [log, List.append_nil] at burst
      rw [extend, burst]
      obtain ⟨executed, same⟩ := ih (h := ⟨(h.machine.burst steps).2, h.executed,
        h.events ++ [(h.machine.burst steps).1]⟩) held' there
      exact ⟨executed, same.trans core⟩

/-- At most one interrupt has taken effect, and if one has, the machine does not run. -/
def BrokenOnce (h : History) : Prop :=
  h.events.countP Event.isBreak = 0
    ∨ h.events.countP Event.isBreak = 1 ∧ h.machine.status ≠ .running

theorem BrokenOnce.burst (once : h.BrokenOnce) (steps : Nat) : (h.burst steps).BrokenOnce := by
  have taken := Machine.bursts_burst steps h.machine
  rw [burst_eq]
  unfold BrokenOnce
  rw [List.countP_append, List.countP_singleton]
  by_cases broken : (h.machine.burst steps).1.isBreak = true
  · obtain ⟨running, rest, -⟩ := taken.of_isBreak broken
    obtain none | ⟨-, stopped⟩ := once
    · rw [none, if_pos broken]
      exact .inr ⟨rfl, rest⟩
    · exact absurd running stopped
  · rw [if_neg broken, Nat.add_zero]
    exact once.imp_right fun ⟨one, stopped⟩ => ⟨one, (taken.of_rest stopped).1.rest stopped⟩

theorem brokenOnce_of (controls : List Control) : (of program settings controls).BrokenOnce := by
  refine holds_of_kept_by_controls (.inl rfl) (fun h once => ?_)
    (fun steps h once => once.burst steps) fun _ h once => once
  refine once.imp_right fun ⟨one, stopped⟩ => ⟨one, ?_⟩
  rw [step, Machine.next_of_rest stopped]
  exact stopped

/-- What was executed is what a number of plain steps execute, and the core is
theirs; so is all the rest that steps look at, unless a stop took effect. -/
def Placed (program : Program) (settings : Settings) (h : History) : Prop :=
  ∃ n, h.executed = (Machine.load program settings).executed n
    ∧ h.machine.core = (Machine.next^[n] (Machine.load program settings)).core
    ∧ (h.machine.status = .running →
      Machine.Alike h.machine (Machine.next^[n] (Machine.load program settings)))

namespace Placed

theorem alike (placed : h.Placed program settings) {m : Machine} (events : List Event)
    (same : Machine.Alike m h.machine) : Placed program settings ⟨m, h.executed, events⟩ := by
  obtain ⟨n, executed, core, running⟩ := placed
  exact ⟨n, executed, same.core.trans core, fun started =>
    same.trans (running (same.status ▸ started))⟩

theorem iterate (placed : h.Placed program settings) (k : Nat) :
    Placed program settings
      ⟨Machine.next^[k] h.machine, h.executed ++ h.machine.executed k, h.events⟩ := by
  by_cases running : h.machine.status = .running
  · obtain ⟨n, executed, -, alike⟩ := placed
    have alike := alike running
    have same := alike.iterate k
    rw [← Function.iterate_add_apply, Nat.add_comm] at same
    refine ⟨n + k, ?_, same.core, fun _ => same⟩
    rw [Machine.executed_add, ← executed, alike.executed k]
  · rw [Function.iterate_fixed (Machine.next_of_rest running), Machine.executed_of_rest running,
      List.append_nil]
    exact placed

theorem burst (placed : h.Placed program settings) (steps : Nat) :
    (h.burst steps).Placed program settings := by
  have taken := Machine.bursts_burst steps h.machine
  rw [burst_eq]
  generalize (h.machine.burstRecorded steps).1 = log, (h.machine.burst steps).1 = event,
    (h.machine.burst steps).2 = after at taken
  cases taken with
  | returns waits =>
    rw [List.append_nil]
    exact placed.alike _ ⟨rfl, rfl, rfl, rfl⟩
  | breaks empty asked running =>
    obtain ⟨n, executed, core, -⟩ := placed
    rw [List.append_nil]
    exact ⟨n, executed, core, nofun⟩
  | nothing empty zero =>
    rw [List.append_nil]
    exact placed.alike _ ⟨rfl, rfl, rfl, rfl⟩
  | advances empty calm advanced =>
    have dropped : Placed program settings
        ⟨{ h.machine with interrupted := false }, h.executed, h.events⟩ :=
      placed.alike _ ⟨rfl, rfl, rfl, rfl⟩
    cases advanced with
    | spent clean running silent => exact (dropped.iterate steps).alike _ ⟨rfl, rfl, rfl, rfl⟩
    | shows le clean fresh => exact (dropped.iterate _).alike _ ⟨rfl, rfl, rfl, rfl⟩
    | stops le clean rest silent => exact (dropped.iterate _).alike _ ⟨rfl, rfl, rfl, rfl⟩
    | @fails n e error lt clean silent executing failed =>
      rw [← Machine.executed_concat executing]
      exact (dropped.iterate (n + 1)).alike _ ⟨rfl, rfl, rfl, rfl⟩

end Placed

theorem placed_of (controls : List Control) :
    (of program settings controls).Placed program settings := by
  refine holds_of_kept_by_controls ⟨0, rfl, rfl, fun _ => ⟨rfl, rfl, rfl, rfl⟩⟩ (fun h placed => ?_)
    (fun steps h placed => placed.burst steps) fun _ h placed => ?_
  · have stepped := placed.iterate 1
    rw [Machine.executed, Machine.executed, List.append_nil] at stepped
    exact stepped
  · exact placed.alike _ ⟨rfl, rfl, rfl, rfl⟩

end History

namespace Machine

/-- A stop that is asked for while the machine runs, `before` and `later` being
all that is asked of it otherwise. Nothing more is executed, and the bursts reply
as they should, the break naming the address that the next plain step would
execute. Asked of a machine that does not run, it makes no difference and no
break. Behind a break there are stops only, and no machine reports two breaks. -/
theorem interrupt_takes_effect_once (program : Program) (settings : Settings)
    (before later : List Control) (heeding : ∀ control ∈ later, control.heeds = true) :
    let start := load program settings
    let m := start.obeyAll before
    let executed := (History.of program settings before).executed
    (m.status = .running →
        m.interrupt.answersAll later
          = replies m.core.ip m.waiting (later.filterMap Control.budget?)
        ∧ (m.interrupt.obeyAll later).core = m.core
        ∧ (History.of program settings (before ++ .interrupt :: later)).executed = executed
        ∧ ∃ n, executed = start.executed n ∧ m.core = (next^[n] start).core
          ∧ (next^[n] start).status = .running)
      ∧ (m.status ≠ .running →
        m.interrupt.answersAll later = m.answersAll later
        ∧ ∀ event ∈ m.interrupt.answersAll later, event.isBreak = false)
      ∧ (∀ steps, (m.burst steps).1.isBreak = true →
        ∀ controls more, (((m.burst steps).2.obeyAll controls).burst more).1 = .stopped)
      ∧ (start.answersAll before).countP Event.isBreak ≤ 1 := by
  intro start m executed
  have machine : (History.of program settings before).machine = m := History.of_machine _ _ _
  refine ⟨fun running => ⟨?_, ?_⟩, fun rest => ⟨?_, ?_⟩, fun steps broken controls more => ?_, ?_⟩
  · exact answersAll_of_asked (m := m.interrupt) rfl running heeding
  · have joined : History.of program settings (before ++ .interrupt :: later)
        = later.foldl History.extend (History.of program settings before).interrupt :=
      List.foldl_append
    have after : (History.of program settings (before ++ .interrupt :: later)).machine
        = m.interrupt.obeyAll later :=
      (History.of_machine _ _ _).trans List.foldl_append
    have held : (History.of program settings before).interrupt.machine.Held := fun _ => rfl
    obtain ⟨same, core⟩ := History.foldl_of_held held heeding
    rw [← joined] at same core
    rw [after] at core
    have placed : (History.of program settings before).Placed program settings :=
      History.placed_of before
    obtain ⟨n, executed, place, alike⟩ := placed
    rw [machine] at place alike
    exact ⟨core.trans (congrArg Machine.core machine :), same, n, executed, place,
      (alike running).status.symm.trans running⟩
  · exact (answersAll_of_rest (m := m.interrupt) rest heeding).trans
      (answersAll_of_rest rest heeding).symm
  · intro event mem
    rw [answersAll_of_rest (m := m.interrupt) rest heeding] at mem
    exact isBreak_of_mem_farewells mem
  · obtain ⟨-, rest⟩ := (bursts_burst steps m).of_isBreak broken
    exact ((bursts_burst more _).atRest (rest.obeyAll controls)).1
  · have once : (History.of program settings before).BrokenOnce := History.brokenOnce_of before
    rw [← History.of_events]
    rcases once with none | ⟨one, -⟩
    · omega
    · omega

/-- Two outputs wait when the stop is asked for. They are returned first, a
burst without steps comes to nothing, and the next one reports the stop. -/
theorem interrupt_takes_effect_once_of_printThenFail :
    let m := (load printThenFail ⟨4, 0, true⟩).obeyAll [.burst 2, .step]
    let later : List Control :=
      [.burst 0, .interrupt, .burst 5, .burst 0, .interrupt, .burst 3, .interrupt, .burst 1]
    m.status = .running
      ∧ (∀ control ∈ later, control.heeds = true)
      ∧ m.interrupt.answersAll later =
        [.output (.printed "1\n"), .output (.traced "0001 print            stack [1] (1) *0\n"),
          .running, .interrupted 2, .stopped]
      ∧ (m.interrupt.obeyAll later).core = m.core := by
  intro m later
  have running : m.status = .running := by decide +kernel
  have heeding : ∀ control ∈ later, control.heeds = true := by decide
  obtain ⟨answers, core, -⟩ := (interrupt_takes_effect_once printThenFail ⟨4, 0, true⟩
    [.burst 2, .step] later heeding).1 running
  refine ⟨running, heeding, answers.trans ?_, core⟩
  decide +kernel

end Machine

end StackMachine
