import StackMachine.Machine

/-!
Sessions: bursts one after the other, and the events they return. A session
ends with the first event that its caller is waiting for, or when its number of
bursts is used up.
-/

namespace StackMachine

namespace Event

def text : Event → String
  | .output shown => shown.text
  | _ => ""

def isFinal : Event → Bool
  | .failed _ | .interrupted _ | .stopped => true
  | .output _ | .running => false

def error? : Event → Option RuntimeError
  | .failed error => some error
  | _ => none

def texts (events : List Event) : String :=
  String.join (events.map text)

end Event

namespace Machine

/-- Adds the events of at most `bursts` bursts to `seen`, latest first. -/
def collect (ends : Event → Bool) (steps : Nat) :
    Nat → Machine → List Event → List Event × Machine
  | 0, m, seen => (seen, m)
  | bursts + 1, m, seen =>
      let (event, next) := m.burst steps
      if ends event then (event :: seen, next)
      else collect ends steps bursts next (event :: seen)

def events (ends : Event → Bool) (steps bursts : Nat) (m : Machine) : List Event × Machine :=
  let (seen, next) := collect ends steps bursts m []
  (seen.reverse, next)

def longBurst : Nat := 2 ^ 64 - 1

/-- Runs to the end and returns all that was shown, or the error that ended the
run. Nothing is returned when `bursts` do not reach the end. -/
def run (bursts : Nat) (m : Machine) : Option (Except RuntimeError String) × Machine :=
  let (events, next) := m.events Event.isFinal longBurst bursts
  match events.getLast? with
  | some (.failed error) => (some (.error error), next)
  | some event => (if event.isFinal then some (.ok (Event.texts events)) else none, next)
  | none => (none, next)

end Machine

end StackMachine
