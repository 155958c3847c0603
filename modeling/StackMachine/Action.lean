import StackMachine.Fault

/-!
Actions: changes of a state that end with a result or with a fault. Either way
a state is left behind, so what a failing action has already changed is not
forgotten.
-/

namespace StackMachine

abbrev Action (σ α : Type) : Type := EStateM Fault σ α

namespace Action

variable {σ α β : Type}

def inspect (look : σ → Except Fault α) : Action σ α := fun s =>
  match look s with
  | .ok a => .ok a s
  | .error fault => .error fault s

def check (result : Except Fault α) : Action σ α :=
  inspect fun _ => result

theorem inspect_ok {look : σ → Except Fault α} {s : σ} {a : α} (h : look s = .ok a) :
    inspect look s = .ok a s := by
  simp only [inspect, h]

theorem inspect_error {look : σ → Except Fault α} {s : σ} {fault : Fault}
    (h : look s = .error fault) : inspect look s = .error fault s := by
  simp only [inspect, h]

theorem bind_ok {x : Action σ α} {f : α → Action σ β} {s t : σ} {a : α} (h : x s = .ok a t) :
    (x >>= f) s = f a t := by
  simp only [bind, EStateM.bind, h]

theorem bind_error {x : Action σ α} {f : α → Action σ β} {s t : σ} {fault : Fault}
    (h : x s = .error fault t) : (x >>= f) s = .error fault t := by
  simp only [bind, EStateM.bind, h]

end Action

end StackMachine
