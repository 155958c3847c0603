import StackMachine.Proofs.Lockstep

/-!
Dead slots. What lies above the top of the stack is out of reach of every
instruction but a fetch, also of a return that unwinds to a frame which the
program has made up. So two machines that are the same up to the top stay the
same up to the top, as long as no fetch reads above it.
-/

namespace StackMachine

namespace Machine

/-- Machines that differ at most in the slots above the top, and in a stop that was asked for. -/
structure SameUpToTop (m n : Machine) : Prop where
  program : n.program = m.program
  tracing : n.tracing = m.tracing
  status : n.status = m.status
  waiting : n.waiting = m.waiting
  ip : n.core.ip = m.core.ip
  fp : n.core.fp = m.core.fp
  depth : n.core.depth = m.core.depth
  globals : n.core.globals = m.core.globals
  name : n.core.stack.name = m.core.stack.name
  capacity : n.core.stack.capacity = m.core.stack.capacity
  pointer : n.core.stack.pointer = m.core.stack.pointer
  slots : ∀ i : Nat, (i : Int) ≤ m.core.stack.pointer →
    n.core.stack.cells[i]? = m.core.stack.cells[i]?

variable {m n : Machine}

theorem SameUpToTop.matches (same : m.SameUpToTop n)
    (inside : m.core.stack.pointer < m.core.stack.capacity) : Matches (fun _ => False) m n := by
  have pointer := same.pointer
  have slots := same.slots
  simp only [Stack.pointer] at pointer slots inside
  refine ⟨same.program, same.tracing, ⟨same.ip, same.fp, same.depth, ?_, same.globals⟩,
    same.status, same.waiting⟩
  exact {
    name := same.name
    height := by omega
    valid := by omega
    capacity := Nat.le_of_eq same.capacity.symm
    excuse := fun differs => absurd same.capacity differs
    shown := fun i lt => slots i (by omega) }

theorem Matches.sameUpToTop (related : Matches (fun _ => False) m n) : m.SameUpToTop n where
  program := related.program
  tracing := related.tracing
  status := related.status
  waiting := related.waiting
  ip := related.core.ip
  fp := related.core.fp
  depth := related.core.depth
  globals := related.core.globals
  name := related.core.stack.name
  capacity := related.core.stack.capacity_eq not_false
  pointer := by rw [Stack.pointer, Stack.pointer, related.core.stack.height]
  slots i le := by
    rw [Stack.pointer] at le
    exact related.core.stack.shown i (by omega)

/-- Any number of steps of two machines that are the same up to the top of the
stack, whatever lies above it: the results are the same, and so are the machines
up to the top, if no fetch of the first machine reads above its top. -/
theorem dead_slots_stay_unseen (m n : Machine) (steps : Nat)
    (inside : m.core.stack.pointer < m.core.stack.capacity) (same : m.SameUpToTop n)
    (live : ∀ k < steps, (next^[k] m).FetchesLive) :
    (∀ k < steps, (next^[k] n).outcome = (next^[k] m).outcome)
      ∧ (next^[steps] m).SameUpToTop (next^[steps] n) := by
  have steady : ∀ k < steps, (next^[k] m).Steady fun _ => False := fun k lt =>
    ⟨fun _ _ _ => not_false, live k lt, fun _ _ => not_false⟩
  obtain ⟨outcomes, matched⟩ := (same.matches inside).iterate steady
  exact ⟨outcomes, matched.sameUpToTop⟩

def madeUpFrame : Program :=
  .ofInstructions #[
    ⟨.const, [.ofNat 5]⟩, ⟨.call, [.ofNat 3, .ofNat 1]⟩, ⟨.halt, []⟩,
    ⟨.const, [.ofNat 9]⟩, ⟨.store, [.ofNat 5]⟩, ⟨.fetch, [.ofNat 7]⟩, ⟨.ret, []⟩]

/-- The whole run on a fresh stack and on one full of texts. It ends in a frame
that was never opened. -/
theorem dead_slots_stay_unseen_of_madeUpFrame :
    let m := load madeUpFrame ⟨8, 0, true⟩
    let n := { m with core.stack.cells := Array.replicate 8 (.text "dead") }
    m.SameUpToTop n
      ∧ (∀ k < 7, (next^[k] m).FetchesLive)
      ∧ (next^[7] m).core.fp = 9 ∧ (next^[7] m).status = .stopped
      ∧ (∀ k < 7, (next^[k] n).outcome = (next^[k] m).outcome)
      ∧ (next^[7] m).SameUpToTop (next^[7] n) := by
  intro m n
  have none_live : ∀ i : Nat, ¬ (i : Int) ≤ m.core.stack.pointer := by
    intro i
    have empty : m.core.stack.pointer = -1 := by decide +kernel
    omega
  have same : m.SameUpToTop n :=
    ⟨rfl, rfl, rfl, rfl, rfl, rfl, rfl, rfl, rfl, rfl, rfl, fun i le => absurd le (none_live i)⟩
  have live : ∀ k < 7, (next^[k] m).FetchesLive := by decide +kernel
  obtain ⟨outcomes, later⟩ := dead_slots_stay_unseen m n 7 (by decide +kernel) same live
  exact ⟨same, live, by decide +kernel, by decide +kernel, outcomes, later⟩

end Machine

end StackMachine
