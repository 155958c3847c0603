import StackMachine.Machine.Session
import StackMachine.Proofs.Bursts

/-!
Histories: a machine driven from outside by single steps, bursts, runs and
interrupts in any order, with everything it has executed and every event it has
returned. What single steps, bursts and interrupts keep, every history keeps.
-/

namespace StackMachine

inductive Control where
  | step
  | burst (steps : Nat)
  | run (bursts : Nat)
  | interrupt
deriving DecidableEq

namespace Machine

def obey (m : Machine) : Control → Machine
  | .step => m.next
  | .burst steps => (m.burst steps).2
  | .run bursts => (m.run bursts).2
  | .interrupt => m.interrupt

/-- The events that a control returns, those inside of a run included. -/
def answers (m : Machine) : Control → List Event
  | .step => []
  | .burst steps => [(m.burst steps).1]
  | .run bursts => (m.events Event.isFinal longBurst bursts).1
  | .interrupt => []

def obeyAll (m : Machine) (controls : List Control) : Machine :=
  controls.foldl obey m

def answersAll (m : Machine) : List Control → List Event
  | [] => []
  | control :: rest => m.answers control ++ (m.obey control).answersAll rest

theorem run_machine (m : Machine) (bursts : Nat) :
    (m.run bursts).2 = (m.events Event.isFinal longBurst bursts).2 := by
  unfold run
  dsimp only
  split <;> rfl

end Machine

structure History where
  machine : Machine
  executed : List Executed
  events : List Event

namespace History

def start (program : Program) (settings : Settings) : History :=
  ⟨.load program settings, [], []⟩

def step (h : History) : History :=
  ⟨h.machine.next, h.executed ++ h.machine.executing?.toList, h.events⟩

def burst (steps : Nat) (h : History) : History :=
  let (log, event, machine) := h.machine.burstRecorded steps
  ⟨machine, h.executed ++ log, h.events ++ [event]⟩

def run : Nat → History → History
  | 0, h => h
  | bursts + 1, h =>
      if (h.machine.burst Machine.longBurst).1.isFinal then h.burst Machine.longBurst
      else run bursts (h.burst Machine.longBurst)

def interrupt (h : History) : History :=
  { h with machine := h.machine.interrupt }

def extend (h : History) : Control → History
  | .step => h.step
  | .burst steps => h.burst steps
  | .run bursts => h.run bursts
  | .interrupt => h.interrupt

def of (program : Program) (settings : Settings) (controls : List Control) : History :=
  controls.foldl extend (start program settings)

theorem burst_eq (h : History) (steps : Nat) :
    h.burst steps = ⟨(h.machine.burst steps).2, h.executed ++ (h.machine.burstRecorded steps).1,
      h.events ++ [(h.machine.burst steps).1]⟩ := by
  rw [← Machine.burstRecorded_result]
  rfl

theorem run_collect (bursts : Nat) (h : History) :
    ∃ returned, (h.run bursts).events = h.events ++ returned
      ∧ ∀ seen, Machine.collect Event.isFinal Machine.longBurst bursts h.machine seen
        = (returned.reverse ++ seen, (h.run bursts).machine) := by
  induction bursts generalizing h with
  | zero => exact ⟨[], (List.append_nil _).symm, fun seen => rfl⟩
  | succ bursts ih =>
    unfold run Machine.collect
    split
    · rename_i final
      refine ⟨[(h.machine.burst Machine.longBurst).1], by rw [burst_eq], fun seen => ?_⟩
      simp only [final, if_true, burst_eq]
      rfl
    · rename_i unfinished
      obtain ⟨returned, events, collected⟩ := ih (h.burst Machine.longBurst)
      refine ⟨(h.machine.burst Machine.longBurst).1 :: returned, ?_, fun seen => ?_⟩
      · rw [events, burst_eq, List.append_assoc]
        rfl
      · rw [burst_eq] at collected ⊢
        simp only [unfinished, Bool.false_eq_true, if_false, collected, List.reverse_cons,
          List.append_assoc, List.singleton_append]

theorem extend_machine (h : History) (control : Control) :
    (h.extend control).machine = h.machine.obey control := by
  cases control with
  | step => rfl
  | burst steps => exact congrArg machine (h.burst_eq steps)
  | run bursts =>
    obtain ⟨returned, -, collected⟩ := run_collect bursts h
    show (h.run bursts).machine = (h.machine.run bursts).2
    rw [Machine.run_machine, Machine.events, collected []]
  | interrupt => rfl

theorem extend_events (h : History) (control : Control) :
    (h.extend control).events = h.events ++ h.machine.answers control := by
  cases control with
  | step => exact (List.append_nil _).symm
  | burst steps => exact congrArg events (h.burst_eq steps)
  | run bursts =>
    obtain ⟨returned, events, collected⟩ := run_collect bursts h
    show (h.run bursts).events = h.events ++ (h.machine.events Event.isFinal _ bursts).1
    rw [events, Machine.events, collected []]
    simp
  | interrupt => exact (List.append_nil _).symm

theorem of_machine (program : Program) (settings : Settings) (controls : List Control) :
    (of program settings controls).machine = (Machine.load program settings).obeyAll controls := by
  have along : ∀ h : History, (controls.foldl extend h).machine = h.machine.obeyAll controls := by
    induction controls with
    | nil => exact fun h => rfl
    | cons control rest ih =>
      intro h
      rw [List.foldl_cons, ih, extend_machine]
      rfl
  exact along (start program settings)

theorem of_events (program : Program) (settings : Settings) (controls : List Control) :
    (of program settings controls).events = (Machine.load program settings).answersAll controls := by
  have along : ∀ h : History,
      (controls.foldl extend h).events = h.events ++ h.machine.answersAll controls := by
    induction controls with
    | nil => exact fun h => (List.append_nil _).symm
    | cons control rest ih =>
      intro h
      rw [List.foldl_cons, ih, extend_machine, extend_events, List.append_assoc]
      rfl
  exact along (start program settings)

theorem holds_run_of_kept_by_bursts {P : History → Prop}
    (burst : ∀ steps h, P h → P (h.burst steps)) (bursts : Nat) {h : History} (holds : P h) :
    P (h.run bursts) := by
  induction bursts generalizing h with
  | zero => exact holds
  | succ bursts ih =>
    unfold run
    split
    · exact burst Machine.longBurst h holds
    · exact ih (burst Machine.longBurst h holds)

theorem holds_of_kept_by_controls {P : History → Prop} {program : Program} {settings : Settings}
    {controls : List Control} (start : P (start program settings))
    (step : ∀ h, P h → P h.step) (burst : ∀ steps h, P h → P (h.burst steps))
    (interrupt : Control.interrupt ∈ controls → ∀ h, P h → P h.interrupt) :
    P (of program settings controls) := by
  have along : ∀ rest ⊆ controls, ∀ h, P h → P (rest.foldl extend h) := by
    intro rest
    induction rest with
    | nil => exact fun _ h holds => holds
    | cons control rest ih =>
      intro within h holds
      obtain ⟨here, later⟩ := List.cons_subset.1 within
      apply ih later
      cases control with
      | step => exact step h holds
      | burst steps => exact burst steps h holds
      | run bursts => exact holds_run_of_kept_by_bursts burst bursts holds
      | interrupt => exact interrupt here h holds
  exact along controls (List.Subset.refl _) _ start

end History

end StackMachine
