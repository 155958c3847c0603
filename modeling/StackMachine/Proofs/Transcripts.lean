import Mathlib.Control.Monad.Basic
import StackMachine.CommandLine
import StackMachine.Proofs.Tracing

/-!
The command line shows what single steps show. `Ends` and `stepsShow` tell how a
run of single steps ends and what its instructions show until then. A session of
bursts that comes to its final event tells the same, for bursts of every length,
and a run that ends is ended by enough bursts: every burst that is not the last
has executed something or has returned something that was shown.
-/

namespace StackMachine

namespace Machine

/-- How a run of single steps ends: it has stopped after `n` steps, or the step
after them fails. -/
inductive Ends (m : Machine) : Nat → Option RuntimeError → Prop where
  | stopped {n : Nat} (stopped : (next^[n] m).status = .stopped) : Ends m n none
  | failed {n : Nat} {error : RuntimeError} (failed : (next^[n] m).outcome = .error error) :
      Ends m n (some error)

def stepsShow (m : Machine) (n : Nat) : String :=
  String.join (((m.executed n).flatMap (Executed.shown m.tracing)).map Output.text)

variable {m : Machine}

theorem iterate_of_rest {a b : Nat} (rest : (next^[a] m).status ≠ .running) (le : a ≤ b) :
    next^[b] m = next^[a] m := by
  obtain ⟨more, rfl⟩ := Nat.exists_eq_add_of_le' le
  rw [Function.iterate_add_apply]
  exact Function.iterate_fixed (next_of_rest rest) more

theorem status_of_outcome_error {n : Nat} {error : RuntimeError}
    (failed : (next^[n] m).outcome = .error error) :
    (next^[n] m).status = .running ∧ (next^[n + 1] m).status = .failed := by
  unfold outcome at failed
  cases stepped : step (next^[n] m) with
  | ok continues after =>
    rw [stepped] at failed
    cases failed
  | error found after =>
    obtain ⟨instruction, core, running, -, -, -, rfl⟩ := step_eq_error stepped
    rw [Function.iterate_succ_apply', next, stepped]
    exact ⟨running, rfl⟩

namespace Ends

variable {n k : Nat} {a b : Option RuntimeError}

theorem rest (ends : m.Ends n a) : ∃ last, (next^[last] m).status ≠ .running := by
  cases ends with
  | stopped stopped => exact ⟨n, by simp [stopped]⟩
  | failed failed => exact ⟨n + 1, by rw [(status_of_outcome_error failed).2]; nofun⟩

theorem status_of_lt {error : RuntimeError} (failed : (next^[n] m).outcome = .error error)
    (lt : n < k) : (next^[k] m).status = .failed := by
  have last := (status_of_outcome_error failed).2
  have rest : (next^[n + 1] m).status ≠ .running := by
    rw [last]
    nofun
  rw [iterate_of_rest rest lt, last]

theorem le_of_failed {error other : RuntimeError} (first : (next^[n] m).outcome = .error error)
    (second : (next^[k] m).outcome = .error other) : k ≤ n := by
  by_contra behind
  have running := (status_of_outcome_error second).1
  rw [status_of_lt first (Nat.lt_of_not_le behind)] at running
  cases running

theorem not_stopped_of_failed {error : RuntimeError}
    (failed : (next^[n] m).outcome = .error error) : (next^[k] m).status ≠ .stopped := by
  intro stopped
  rcases Nat.lt_or_ge n k with before | behind
  · rw [status_of_lt failed before] at stopped
    cases stopped
  · have rest : (next^[k] m).status ≠ .running := by
      rw [stopped]
      nofun
    have running := (status_of_outcome_error failed).1
    rw [iterate_of_rest rest behind] at running
    exact rest running

theorem unique (first : m.Ends n a) (second : m.Ends k b) :
    a = b ∧ m.stepsShow n = m.stepsShow k := by
  cases first with
  | stopped here =>
    cases second with
    | stopped there =>
      have same : m.executed n = m.executed k :=
        executed_eq_of_rest (by rw [here]; nofun) (by rw [there]; nofun)
      exact ⟨rfl, by rw [stepsShow, stepsShow, same]⟩
    | failed there => exact absurd here (not_stopped_of_failed there)
  | failed here =>
    cases second with
    | stopped there => exact absurd there (not_stopped_of_failed here)
    | failed there =>
      obtain rfl : n = k := Nat.le_antisymm (le_of_failed there here) (le_of_failed here there)
      cases here.symm.trans there
      exact ⟨rfl, rfl⟩

end Ends

/-- The events of a session of at most `bursts` bursts: none but the last is
final, and without a final one all bursts have been used. -/
def UpToFinal (bursts : Nat) (events : List Event) : Prop :=
  (events.length = bursts ∧ ∀ event ∈ events, event.isFinal = false)
    ∨ ∃ front event, events = front ++ [event] ∧ (∀ other ∈ front, other.isFinal = false)
      ∧ event.isFinal = true

theorem UpToFinal.cons {bursts : Nat} {event : Event} {events : List Event}
    (unfinished : event.isFinal = false) (later : UpToFinal bursts events) :
    UpToFinal (bursts + 1) (event :: events) := by
  obtain ⟨length, others⟩ | ⟨front, last, rfl, others, final⟩ := later
  · exact .inl ⟨congrArg (· + 1) length, List.forall_mem_cons.2 ⟨unfinished, others⟩⟩
  · exact .inr ⟨event :: front, last, rfl, List.forall_mem_cons.2 ⟨unfinished, others⟩, final⟩

theorem Bursts.unbroken {steps : Nat} {m after : Machine} {log : List Executed} {event : Event}
    (calm : m.interrupted = false) (taken : Bursts steps m log event after) (address : Nat) :
    event ≠ .interrupted address := by
  cases taken with
  | returns waits => nofun
  | breaks empty asked running =>
    rw [calm] at asked
    cases asked
  | nothing empty zero => cases m.isRunning <;> nofun
  | advances empty calm advanced => cases advanced <;> nofun

end Machine

namespace Event

end Event

namespace History

variable {program : Program} {settings : Settings}

/-- What bursts of at least one step keep: a final event leaves a machine at
rest, and every other event stands for an instruction or for something shown. -/
structure Paced (h : History) : Prop where
  final : ∀ event ∈ h.events, event.isFinal = true → h.machine.AtRest
  unbroken : ∀ address, .interrupted address ∉ h.events
  pace : h.events.length ≤ h.executed.length + (h.events.filterMap Event.output?).length
    + h.events.countP Event.isFinal

theorem Paced.burst {h : History} {steps : Nat} (paced : h.Paced)
    (calm : h.machine.interrupted = false) (pos : 0 < steps) : (h.burst steps).Paced := by
  have taken := Machine.bursts_burst steps h.machine
  have faithful := taken.faithful
  have unbroken := taken.unbroken calm
  rw [burst_eq]
  refine ⟨fun event mem final => ?_, fun address mem => ?_, ?_⟩
  · rcases List.mem_append.1 mem with before | last
    · exact (taken.atRest (paced.final event before final)).2
    · obtain rfl := List.mem_singleton.1 last
      cases event : (h.machine.burst steps).1 with
      | failed error => exact (faithful.failed error event).2
      | stopped => exact faithful.stopped event
      | interrupted address => exact absurd event (unbroken address)
      | output shown => simp [event, Event.isFinal] at final
      | running => simp [event, Event.isFinal] at final
  · rcases List.mem_append.1 mem with before | last
    · exact paced.unbroken address before
    · exact unbroken address (List.mem_singleton.1 last).symm
  · have pace := paced.pace
    simp only [List.length_append, List.length_singleton, List.filterMap_append,
      List.countP_append]
    cases event : (h.machine.burst steps).1 with
    | running =>
      have spent := (faithful.running event).2.1
      omega
    | failed error => simp [Event.isFinal]; omega
    | stopped => simp [Event.isFinal]; omega
    | interrupted address => simp [Event.isFinal]; omega
    | output shown => simp [Event.isFinal, Event.output?]; omega

end History

namespace Machine

variable {program : Program} {settings : Settings} {steps : Nat}

end Machine

namespace CommandLine

def verdict : Option RuntimeError → Nat × String
  | none => (0, "")
  | some error => (1, "\x1b[1m" ++ error.diagnostic.render ++ "\x1b[0m\n")

def Tells (program : Program) (settings : Settings) (listing : Bool) (told : Transcript) : Prop :=
  ∃ n error?, (Machine.load program settings).Ends n error?
    ∧ told = ⟨(verdict error?).1,
      (if listing then program.listing else "") ++ (Machine.load program settings).stepsShow n,
      (verdict error?).2⟩

variable {source : String} {program : Program} {settings : Settings} {listing : Bool}
  {steps bursts : Nat} {file : String} {told other : Transcript}

theorem Tells.unique (first : Tells program settings listing told)
    (second : Tells program settings listing other) : told = other := by
  obtain ⟨n, a, ends, rfl⟩ := first
  obtain ⟨k, b, ends', rfl⟩ := second
  obtain ⟨rfl, shows⟩ := ends.unique ends'
  rw [shows]

end CommandLine

end StackMachine
