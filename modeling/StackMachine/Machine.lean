import StackMachine.Machine.Core
import StackMachine.Diagnostic

/-!
The machine: a program, the core that runs it, and what is waiting to be shown.
One step executes one instruction. A burst executes at most a given number of
steps and ends with one event: it ends early as soon as there is something to
show, and shows what is waiting before it executes anything.
-/

namespace StackMachine

inductive Output where
  | printed (text : String)
  | traced (text : String)
deriving DecidableEq, Repr

namespace Output

def text : Output → String
  | .printed text => text
  | .traced text => text

end Output

inductive Status where
  | running
  | stopped
  | failed
deriving DecidableEq, Repr

structure Settings where
  stackSize : Nat := 1024
  entry : Nat := 0
  tracing : Bool := false
deriving DecidableEq, Repr

structure Machine where
  program : Program
  tracing : Bool
  core : Core
  status : Status
  interrupted : Bool
  /-- Output that no burst has returned yet. -/
  waiting : List Output
deriving DecidableEq

inductive Event where
  | failed (error : RuntimeError)
  /-- An interrupt took effect before the instruction at this address. -/
  | interrupted (address : Nat)
  | output (shown : Output)
  /-- All steps were spent. -/
  | running
  | stopped
deriving DecidableEq

def Instruction.column (instruction : Instruction) : String :=
  let text := instruction.text
  text ++ String.ofList (List.replicate (16 - text.length) ' ')

def traceLine (address : Nat) (instruction : Instruction) (stack : Stack) : String :=
  let top :=
    match stack.peek with
    | .ok value => value.quoted
    | .error _ => "empty"
  addressText address ++ " " ++ instruction.column ++ " stack " ++ stack.quoted
    ++ " (" ++ top ++ ") *" ++ toString stack.pointer ++ "\n"

namespace Flow

def target (ip : Nat) : Flow → Nat
  | .next => ip + 1
  | .jump target => target
  | .halt => ip

def status : Flow → Status
  | .next => .running
  | .jump _ => .running
  | .halt => .stopped

end Flow

namespace Machine

def load (program : Program) (settings : Settings) : Machine :=
  ⟨program, settings.tracing, .start settings.stackSize settings.entry, .running, false, []⟩

def isRunning (m : Machine) : Bool :=
  m.status == .running

def top? (m : Machine) : Option Value :=
  m.core.stack.peek.toOption

def fetched? (m : Machine) : Option Instruction :=
  m.program.instructions[m.core.ip]?

def interrupt (m : Machine) : Machine :=
  { m with interrupted := true }

def outputs (tracing : Bool) (address : Nat) (instruction : Instruction) (effect : Effect)
    (stack : Stack) : List Output :=
  (effect.printed.map Output.printed).toList
    ++ if tracing then [.traced (traceLine address instruction stack)] else []

def step : EStateM RuntimeError Machine Bool
  | ⟨program, tracing, core, .running, interrupted, waiting⟩ =>
      let address := core.ip
      match program.instructions[address]? with
      | none => .ok false ⟨program, tracing, core, .stopped, interrupted, waiting⟩
      | some instruction =>
          match Core.perform instruction core with
          | .error fault core =>
              .error ⟨fault, address⟩ ⟨program, tracing, core, .failed, interrupted, waiting⟩
          | .ok effect core =>
              let core := { core with ip := effect.flow.target address }
              let shown := outputs tracing address instruction effect core.stack
              let status := effect.flow.status
              .ok (status == .running)
                ⟨program, tracing, core, status, interrupted, waiting ++ shown⟩
  | m => .ok false m

theorem step_of_not_running {m : Machine} (h : m.status ≠ .running) : step m = .ok false m := by
  obtain ⟨program, tracing, core, status, interrupted, waiting⟩ := m
  cases status with
  | running => exact absurd rfl h
  | stopped => rfl
  | failed => rfl

theorem step_of_end {m : Machine} (hrun : m.status = .running) (h : m.fetched? = none) :
    step m = .ok false { m with status := .stopped } := by
  obtain ⟨program, tracing, core, status, interrupted, waiting⟩ := m
  subst hrun
  simp only [fetched?] at h
  simp only [step, h]

theorem step_of_error {m : Machine} {instruction : Instruction} {fault : Fault} {core : Core}
    (hrun : m.status = .running) (h : m.fetched? = some instruction)
    (hperform : Core.perform instruction m.core = .error fault core) :
    step m = .error ⟨fault, m.core.ip⟩ { m with core := core, status := .failed } := by
  obtain ⟨program, tracing, before, status, interrupted, waiting⟩ := m
  subst hrun
  simp only [fetched?] at h hperform
  simp only [step, h, hperform]

def continueWith (m : Machine) (instruction : Instruction) (effect : Effect) (core : Core) :
    Machine :=
  { m with
    core := { core with ip := effect.flow.target m.core.ip }
    status := effect.flow.status
    waiting := m.waiting ++ outputs m.tracing m.core.ip instruction effect core.stack }

theorem step_of_ok {m : Machine} {instruction : Instruction} {effect : Effect} {core : Core}
    (hrun : m.status = .running) (h : m.fetched? = some instruction)
    (hperform : Core.perform instruction m.core = .ok effect core) :
    step m = .ok (effect.flow.status == .running)
      (m.continueWith instruction effect core) := by
  obtain ⟨program, tracing, before, status, interrupted, waiting⟩ := m
  subst hrun
  simp only [fetched?] at h hperform
  simp only [step, h, hperform, continueWith]

def settle (m : Machine) : Event × Machine :=
  match m.waiting with
  | shown :: rest => (.output shown, { m with waiting := rest })
  | [] => (if m.isRunning then .running else .stopped, m)

/-- Executes steps until something is to be shown, the machine stops, or all
`steps` are spent. An interrupt is acted upon once and before the next step. -/
def advance : Nat → Machine → Event × Machine
  | 0, m => m.settle
  | steps + 1, m =>
      if m.interrupted && m.isRunning then
        (.interrupted m.core.ip, { m with interrupted := false, status := .stopped })
      else
        match step { m with interrupted := false } with
        | .error error m => (.failed error, m)
        | .ok true m => if m.waiting.isEmpty then m.advance steps else m.settle
        | .ok false m => m.settle

def burst (steps : Nat) (m : Machine) : Event × Machine :=
  if m.waiting.isEmpty then m.advance steps else m.settle

theorem burst_of_waiting {m : Machine} {shown : Output} {rest : List Output} (steps : Nat)
    (h : m.waiting = shown :: rest) :
    m.burst steps = (.output shown, { m with waiting := rest }) := by
  simp only [burst, settle, h, List.isEmpty_cons, Bool.false_eq_true, if_false]

theorem burst_of_empty {m : Machine} (steps : Nat) (h : m.waiting = []) :
    m.burst steps = m.advance steps := by
  simp only [burst, h, List.isEmpty_nil, if_true]

end Machine

end StackMachine
