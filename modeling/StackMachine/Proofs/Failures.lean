import StackMachine.Proofs.Instructions

/-!
What a failing instruction leaves behind. All checks come before the first
write, so a failure never changes a slot, a global or a register: at most some
values have been popped. That is so in two cases, an operator or relation that
does not fit the kinds of its two operands, and a return that has begun to
close its frame. On valid stacks no failure comes from a slot beyond an array.
-/

namespace StackMachine

namespace Fault

/-- Raised by a check and not by an array. -/
def Inside : Fault → Prop
  | .slotOutside _ _ => False
  | _ => True

end Fault

theorem Instruction.operand_error {instruction : Instruction} {index : Nat} {fault : Fault}
    (h : instruction.operand index = .error fault) : fault = .missingOperand instruction.opcode := by
  unfold operand at h
  split at h <;> cases h
  rfl

theorem Instruction.operand_inside {instruction : Instruction} {index : Nat} {fault : Fault}
    (h : instruction.operand index = .error fault) : fault.Inside := by
  rw [operand_error h]
  trivial

theorem Value.whole_error {what : String} {value : Value} {fault : Fault}
    (h : value.whole what = .error fault) :
    (∃ n, fault = .notWhole what n) ∨ fault = .notNumber what value.kind := by
  unfold whole at h
  split at h
  · split at h <;> cases h
    exact .inl ⟨_, rfl⟩
  · cases h
    exact .inr rfl

theorem Value.whole_inside {what : String} {value : Value} {fault : Fault}
    (h : value.whole what = .error fault) : fault.Inside := by
  rcases whole_error h with ⟨n, rfl⟩ | rfl <;> trivial

theorem Instruction.whole_operand_inside {instruction : Instruction} {index : Nat}
    {what : String} {fault : Fault}
    (h : (do (← instruction.operand index).whole what) = Except.error fault) : fault.Inside := by
  cases found : instruction.operand index with
  | ok value =>
    simp only [found, bind, Except.bind] at h
    exact Value.whole_inside h
  | error missing =>
    simp only [found, bind, Except.bind] at h
    cases h
    exact operand_inside found

theorem numbers_error {verb : String} {left right : Value} {fault : Fault}
    (h : numbers verb left right = .error fault) :
    fault = .kindMismatch verb left.kind right.kind := by
  unfold numbers at h
  split at h <;> cases h
  rfl

theorem Operator.apply_error {operator : Operator} {left right : Value} {fault : Fault}
    (h : operator.apply left right = .error fault) :
    fault = .kindMismatch operator.mnemonic left.kind right.kind := by
  cases found : numbers operator.mnemonic left right with
  | ok pair => simp [apply, found, bind, Except.bind, pure, Except.pure] at h
  | error mismatch =>
    simp only [apply, found, bind, Except.bind] at h
    cases h
    exact numbers_error found

theorem Relation.holds_error {relation : Relation} {left right : Value} {fault : Fault}
    (h : relation.holds left right = .error fault) :
    fault = .kindMismatch "compare" left.kind right.kind := by
  unfold holds at h
  split at h
  · cases h
  · cases found : numbers "compare" left right with
    | ok pair => simp [found, bind, Except.bind, pure, Except.pure] at h
    | error mismatch =>
      simp only [found, bind, Except.bind] at h
      cases h
      exact numbers_error found

namespace Stack

theorem slot_inside {s : Stack} {address : Value} {fault : Fault}
    (h : s.slot address = .error fault) : fault.Inside := by
  cases found : address.whole "address" with
  | ok place =>
    simp only [slot, found, bind, Except.bind] at h
    split at h <;> cases h
    trivial
  | error other =>
    simp only [slot, found, bind, Except.bind] at h
    cases h
    exact Value.whole_inside found

theorem read_inside {s : Stack} {address : Value} {fault : Fault}
    (h : s.read address = .error fault) : fault.Inside := by
  cases place : s.slot address with
  | ok i =>
    simp only [read, place, bind, Except.bind] at h
    exact absurd h (slotValue_ne_error (slot_lt place))
  | error other =>
    simp only [read, place, bind, Except.bind] at h
    cases h
    exact slot_inside place

theorem peek_error {s : Stack} {fault : Fault} (valid : s.Valid) (h : s.peek = .error fault) :
    s.height = 0 ∧ fault = .empty s.name := by
  rcases Nat.eq_zero_or_pos s.height with empty | pos
  · rw [peek_of_empty empty] at h
    cases h
    exact ⟨empty, rfl⟩
  · have inside : s.height - 1 < s.capacity := by
      have bound : s.height ≤ s.capacity := valid
      omega
    rw [peek_of_pos pos] at h
    exact absurd h (slotValue_ne_error inside)

theorem toOption_peek {s : Stack} (valid : s.Valid) : s.peek.toOption = s.live.getLast? := by
  cases top : s.peek with
  | ok value =>
    rw [live_of_peek top, List.getLast?_concat]
    rfl
  | error fault =>
    obtain ⟨empty, -⟩ := peek_error valid top
    rw [live, empty]
    rfl

theorem peek_inside {s : Stack} {fault : Fault} (valid : s.Valid) (h : s.peek = .error fault) :
    fault.Inside := by
  obtain ⟨-, rfl⟩ := peek_error valid h
  trivial

theorem write_of_slot {s : Stack} {address : Value} {i : Nat} (value : Value)
    (place : s.slot address = .ok i) :
    write address value s = .ok () { s with cells := s.cells.setIfInBounds i value } :=
  write_eq_ok.2 ⟨i, place, rfl⟩

theorem push_eq_error {s t : Stack} {value : Value} {fault : Fault} :
    push value s = .error fault t ↔
      s.capacity ≤ s.height ∧ fault = .full s.name ∧ t = s := by
  by_cases room : s.height < s.capacity
  · simp [push_of_lt value room, Nat.not_le.2 room]
  · simp [push_of_le value (Nat.le_of_not_lt room), Nat.le_of_not_lt room, eq_comm]

theorem pop_eq_error {s t : Stack} {fault : Fault} :
    pop s = .error fault t ↔ s.peek = .error fault ∧ t = s := by
  cases top : s.peek with
  | ok value => simp [pop_ok top]
  | error other => simp [pop_error top, eq_comm]

theorem popTwo_eq_error {s t : Stack} {fault : Fault} (valid : s.Valid) :
    popTwo s = .error fault t ↔ s.height < 2 ∧ fault = .empty s.name ∧ t = s := by
  by_cases two : s.height < 2
  · simp [popTwo_of_lt two, two, eq_comm]
  · have bound : s.height ≤ s.cells.size := valid
    have top : s.height - 1 < s.cells.size := by omega
    have next : s.height - 2 < s.cells.size := by omega
    simp [popTwo_of_le (Nat.le_of_not_lt two) (slotValue_of_lt top) (slotValue_of_lt next), two]

theorem store_error {s t : Stack} {address : Value} {fault : Fault} (valid : s.Valid)
    (h : store address s = .error fault t) : fault.Inside ∧ t = s := by
  simp only [store, Action.bind_eq_error, Action.inspect_eq_error, Action.inspect_eq_ok,
    pop_eq_error, pop_eq_ok] at h
  obtain ⟨place, rfl⟩ | ⟨i, t₀, ⟨place, rfl⟩, rest⟩ := h
  · exact ⟨slot_inside place, rfl⟩
  obtain ⟨top, rfl⟩ | ⟨value, t₁, ⟨top, rfl⟩, rest⟩ := rest
  · exact ⟨peek_inside valid top, rfl⟩
  have inside : i < (t₀.lowered (t₀.height - 1)).capacity := slot_lt place
  simp [writeSlot_of_lt value inside, Action.pure_ne_error] at rest

theorem fetch_error {s t : Stack} {address : Value} {fault : Fault}
    (h : fetch address s = .error fault t) : fault.Inside ∧ t = s := by
  simp only [fetch, Action.bind_eq_error, Action.inspect_eq_error, Action.inspect_eq_ok,
    push_eq_error, Action.pure_ne_error, and_false, exists_false, or_false] at h
  obtain ⟨content, rfl⟩ | ⟨value, t₀, ⟨content, rfl⟩, -, rfl, rfl⟩ := h
  · exact ⟨read_inside content, rfl⟩
  · exact ⟨trivial, rfl⟩

/-- The action fails only by a check, and at a height of at most `bound`. -/
def FailsBelow {α : Type} (bound : Nat) (s : Stack) (action : Action Stack α) : Prop :=
  ∀ fault t, action s = .error fault t → fault.Inside ∧ ∃ height ≤ bound, t = s.lowered height

theorem FailsBelow.bind {α β : Type} {x : Action Stack α} {f : α → Action Stack β} {s : Stack}
    {bound : Nat} (first : FailsBelow bound s x)
    (rest : ∀ a t, x s = .ok a t → ∃ height, t = s.lowered height ∧ FailsBelow bound t (f a)) :
    FailsBelow bound s (x >>= f) := by
  intro fault u h
  obtain h | ⟨a, t, ok, h⟩ := Action.bind_eq_error.1 h
  · exact first fault u h
  · obtain ⟨height, rfl, fails⟩ := rest a t ok
    exact fails fault u h

theorem failsBelow_pop {s : Stack} {bound height : Nat} (room : bound ≤ s.capacity)
    (le : height ≤ bound) : FailsBelow bound (s.lowered height) pop := by
  intro fault t failed
  obtain ⟨top, rfl⟩ := pop_eq_error.1 failed
  have valid : (s.lowered height).Valid := Nat.le_trans le room
  exact ⟨peek_inside valid top, height, le, rfl⟩

theorem failsBelow_popWhole {β : Type} {s : Stack} {bound height : Nat} {what : String}
    {f : Nat → Action Stack β} (room : bound ≤ s.capacity) (le : height ≤ bound)
    (rest : ∀ n, 0 < height → FailsBelow bound (s.lowered (height - 1)) (f n)) :
    FailsBelow bound (s.lowered height) (popWhole what >>= f) := by
  refine FailsBelow.bind ?_ fun n t popped => ?_
  · refine (failsBelow_pop room le).bind fun value t popped => ?_
    obtain ⟨-, rfl⟩ := pop_eq_ok.1 popped
    refine ⟨height - 1, rfl, fun fault u failed => ?_⟩
    obtain ⟨whole, rfl⟩ := Action.check_eq_error.1 failed
    exact ⟨Value.whole_inside whole, height - 1, by omega, rfl⟩
  · obtain ⟨pos, -, rfl⟩ := popWhole_eq_ok.1 popped
    exact ⟨height - 1, rfl, rest n pos⟩

theorem failsBelow_drop {s : Stack} {bound height count : Nat} (room : bound ≤ s.capacity)
    (le : height ≤ bound) : FailsBelow bound (s.lowered height) (drop count) := by
  induction count generalizing height with
  | zero =>
    intro fault t failed
    exact absurd failed Action.pure_ne_error
  | succ count ih =>
    refine (failsBelow_pop room le).bind fun value t popped => ?_
    obtain ⟨-, rfl⟩ := pop_eq_ok.1 popped
    have lower : height - 1 ≤ bound := by omega
    exact ⟨height - 1, rfl, ih lower⟩

theorem failsBelow_drop_push {α : Type} {s : Stack} {bound height count : Nat} {result : Value}
    {a : α} (room : bound ≤ s.capacity) (lt : height < bound) :
    FailsBelow bound (s.lowered height) (do drop count; push result; return a) := by
  refine (failsBelow_drop room (Nat.le_of_lt lt)).bind fun u t dropped => ?_
  have valid : (s.lowered height).Valid := Nat.le_trans (Nat.le_of_lt lt) room
  obtain ⟨-, rfl⟩ := (drop_eq_ok valid).1 dropped
  refine ⟨height - count, rfl, fun fault t failed => ?_⟩
  -- below the header there is room for the result
  have space : height - count < s.capacity := by omega
  rw [Action.bind_ok (push_of_lt result space)] at failed
  exact absurd failed Action.pure_ne_error

theorem unwind_error {s t : Stack} {frame : Nat} {fault : Fault} (valid : s.Valid)
    (above : frame + 1 < s.height) (h : unwind frame s = .error fault t) :
    fault.Inside ∧ ∃ height < s.height, t = s.lowered height := by
  have bound : s.height ≤ s.capacity := valid
  have room : frame + 1 ≤ s.capacity := by omega
  obtain failed | ⟨result, t₀, popped, h⟩ := Action.bind_eq_error.1 h
  · obtain ⟨top, -⟩ := pop_eq_error.1 failed
    have empty := (peek_error valid top).1
    omega
  -- from here on the result is off the stack, so whatever fails leaves it lower
  obtain ⟨-, rfl⟩ := pop_eq_ok.1 popped
  have moved : setPointer frame (s.lowered (s.height - 1)) = .ok () (s.lowered (frame + 1)) :=
    setPointer_eq_ok.2 ⟨room, rfl⟩
  rw [Action.bind_ok moved] at h
  have fails : FailsBelow (frame + 1) (s.lowered (frame + 1)) (do
      let site ← popWhole "return address"
      let caller ← popWhole "frame pointer"
      let count ← popWhole "argument count"
      drop count
      push result
      return (site, caller)) := by
    refine failsBelow_popWhole room (by omega) fun site _ => ?_
    refine failsBelow_popWhole room (by omega) fun caller _ => ?_
    refine failsBelow_popWhole room (by omega) fun count pos => ?_
    exact failsBelow_drop_push room (by omega)
  obtain ⟨inside, height, le, rfl⟩ := fails fault t h
  exact ⟨inside, height, by omega, rfl⟩

end Stack

namespace Core

def lowered (core : Core) (height : Nat) : Core :=
  { core with stack := core.stack.lowered height }

inductive Fails (core : Core) (instruction : Instruction) : Fault → Core → Prop where
  | early {fault : Fault} (inside : fault.Inside) : Fails core instruction fault core
  | mismatch {verb : String} {left right : Kind}
      (op : (∃ operator, instruction.opcode = .binary operator)
        ∨ ∃ relation, instruction.opcode = .branch relation)
      (two : 2 ≤ core.stack.height) :
      Fails core instruction (.kindMismatch verb left right) (core.lowered (core.stack.height - 2))
  | unwinding {fault : Fault} {height : Nat} (op : instruction.opcode = .ret)
      (opened : openFrame core = .ok core.fp) (inside : fault.Inside)
      (lower : height < core.stack.height) : Fails core instruction fault (core.lowered height)

variable {core after : Core} {instruction : Instruction} {fault : Fault}

theorem Fails.lowers (h : Fails core instruction fault after) :
    ∃ height, after = core.lowered height := by
  cases h with
  | early inside => exact ⟨core.stack.height, rfl⟩
  | mismatch op two => exact ⟨core.stack.height - 2, rfl⟩
  | @unwinding fault height op opened inside lower => exact ⟨height, rfl⟩

theorem fails_of_operand {α : Type} {index : Nat} {run : Value → Action Core α}
    (h : (Action.check (instruction.operand index) >>= run) core = .error fault after)
    (rest : ∀ value, run value core = .error fault after → Fails core instruction fault after) :
    Fails core instruction fault after := by
  obtain failed | ⟨value, c, found, later⟩ := Action.bind_eq_error.1 h
  · obtain ⟨missing, rfl⟩ := Action.check_eq_error.1 failed
    exact .early (Instruction.operand_inside missing)
  · obtain ⟨-, rfl⟩ := Action.check_eq_ok.1 found
    exact rest value later

theorem fails_of_count {α : Type} {index : Nat} {what : String} {run : Nat → Action Core α}
    (h : (Action.check (do (← instruction.operand index).whole what) >>= run) core
      = .error fault after)
    (rest : ∀ n, run n core = .error fault after → Fails core instruction fault after) :
    Fails core instruction fault after := by
  obtain failed | ⟨n, c, found, later⟩ := Action.bind_eq_error.1 h
  · obtain ⟨missing, rfl⟩ := Action.check_eq_error.1 failed
    exact .early (Instruction.whole_operand_inside missing)
  · obtain ⟨-, rfl⟩ := Action.check_eq_ok.1 found
    exact rest n later

theorem fails_of_push {value : Value}
    (h : (do onStack (Stack.push value); return { flow := .next } : Action Core Effect) core
      = .error fault after) : Fails core instruction fault after := by
  simp only [Action.bind_eq_error, onStack_eq_error, Stack.push_eq_error, Action.pure_ne_error,
    and_false, exists_false, or_false] at h
  obtain ⟨t, ⟨-, rfl, rfl⟩, rfl⟩ := h
  exact .early trivial

theorem fails_of_store {address : Value} (valid : core.stack.Valid)
    (h : store address core = .error fault after) : Fails core instruction fault after := by
  simp only [store, Action.bind_eq_error, onStack_eq_error, Action.pure_ne_error, and_false,
    exists_false, or_false] at h
  obtain ⟨t, failed, rfl⟩ := h
  obtain ⟨inside, rfl⟩ := Stack.store_error valid failed
  exact .early inside

theorem fails_of_fetch {address : Value} (h : fetch address core = .error fault after) :
    Fails core instruction fault after := by
  simp only [fetch, Action.bind_eq_error, onStack_eq_error, Action.pure_ne_error, and_false,
    exists_false, or_false] at h
  obtain ⟨t, failed, rfl⟩ := h
  obtain ⟨inside, rfl⟩ := Stack.fetch_error failed
  exact .early inside

theorem fails_of_gstore {address : Value} (valid : core.stack.Valid)
    (h : gstore address core = .error fault after) : Fails core instruction fault after := by
  simp only [gstore, Action.bind_eq_error, Action.inspect_eq_error, Action.inspect_eq_ok,
    onStack_eq_error, onStack_eq_ok, Stack.pop_eq_error, Stack.pop_eq_ok] at h
  obtain ⟨place, rfl⟩ | ⟨i, c₀, ⟨place, rfl⟩, h⟩ := h
  · exact .early (Stack.slot_inside place)
  obtain ⟨t, ⟨top, rfl⟩, rfl⟩ | ⟨value, c₁, ⟨t, ⟨top, rfl⟩, rfl⟩, h⟩ := h
  · exact .early (Stack.peek_inside valid top)
  -- the slot was found before the value was popped, so writing to it succeeds
  obtain failed | ⟨u, c₂, -, returned⟩ := h
  · obtain ⟨g, refused, -⟩ := onGlobals_eq_error.1 failed
    rw [Stack.write_of_slot value place] at refused
    cases refused
  · exact absurd returned Action.pure_ne_error

theorem fails_of_gfetch {address : Value} (h : gfetch address core = .error fault after) :
    Fails core instruction fault after := by
  obtain failed | ⟨value, c, found, later⟩ := Action.bind_eq_error.1 h
  · obtain ⟨content, rfl⟩ := Action.inspect_eq_error.1 failed
    exact .early (Stack.read_inside content)
  · obtain ⟨-, rfl⟩ := Action.inspect_eq_ok.1 found
    exact fails_of_push later

theorem fails_of_pop (valid : core.stack.Valid) (h : pop core = .error fault after) :
    Fails core instruction fault after := by
  simp only [pop, Action.bind_eq_error, onStack_eq_error, Stack.pop_eq_error,
    Action.pure_ne_error, and_false, exists_false, or_false] at h
  obtain ⟨t, ⟨top, rfl⟩, rfl⟩ := h
  exact .early (Stack.peek_inside valid top)

theorem binary_error {operator : Operator} (valid : core.stack.Valid)
    (h : binary operator core = .error fault after) :
    (fault = .empty core.stack.name ∧ after = core)
      ∨ ∃ left right, fault = .kindMismatch operator.mnemonic left right
        ∧ 2 ≤ core.stack.height ∧ after = core.lowered (core.stack.height - 2) := by
  obtain failed | ⟨⟨left, right⟩, c, popped, later⟩ := Action.bind_eq_error.1 h
  · obtain ⟨t, refused, rfl⟩ := onStack_eq_error.1 failed
    obtain ⟨-, rfl, rfl⟩ := (Stack.popTwo_eq_error valid).1 refused
    exact .inl ⟨rfl, rfl⟩
  obtain ⟨t, two, rfl⟩ := onStack_eq_ok.1 popped
  obtain ⟨enough, -, next, rfl⟩ := Stack.popTwo_eq_ok.1 two
  obtain failed | ⟨value, c, applied, later⟩ := Action.bind_eq_error.1 later
  · obtain ⟨mismatch, rfl⟩ := Action.check_eq_error.1 failed
    exact .inr ⟨_, _, Operator.apply_error mismatch, enough, rfl⟩
  obtain ⟨-, rfl⟩ := Action.check_eq_ok.1 applied
  -- two values have gone, which makes room for one
  have room : core.stack.height - 2 < core.stack.capacity := (Array.getElem?_eq_some_iff.1 next).1
  obtain failed | ⟨u, c, -, returned⟩ := Action.bind_eq_error.1 later
  · obtain ⟨t, refused, -⟩ := onStack_eq_error.1 failed
    rw [Stack.push_of_lt value room] at refused
    cases refused
  · exact absurd returned Action.pure_ne_error

theorem fails_of_binary {operator : Operator} (valid : core.stack.Valid)
    (op : instruction.opcode = .binary operator) (h : binary operator core = .error fault after) :
    Fails core instruction fault after := by
  obtain ⟨rfl, rfl⟩ | ⟨left, right, rfl, two, rfl⟩ := binary_error valid h
  · exact .early trivial
  · exact .mismatch (.inl ⟨operator, op⟩) two

theorem branch_error {relation : Relation} {operand : Value} (valid : core.stack.Valid)
    (h : branch relation operand core = .error fault after) :
    (((∃ n, fault = .notWhole "target" n) ∨ fault = .notNumber "target" operand.kind
        ∨ fault = .empty core.stack.name) ∧ after = core)
      ∨ ∃ left right, fault = .kindMismatch "compare" left right
        ∧ 2 ≤ core.stack.height ∧ after = core.lowered (core.stack.height - 2) := by
  obtain failed | ⟨target, c, found, later⟩ := Action.bind_eq_error.1 h
  · obtain ⟨whole, rfl⟩ := Action.check_eq_error.1 failed
    exact .inl ⟨or_assoc.1 (.inl (Value.whole_error whole)), rfl⟩
  obtain ⟨-, rfl⟩ := Action.check_eq_ok.1 found
  obtain failed | ⟨⟨next, top⟩, c, popped, later⟩ := Action.bind_eq_error.1 later
  · obtain ⟨t, refused, rfl⟩ := onStack_eq_error.1 failed
    obtain ⟨-, rfl, rfl⟩ := (Stack.popTwo_eq_error valid).1 refused
    exact .inl ⟨.inr (.inr rfl), rfl⟩
  obtain ⟨t, two, rfl⟩ := onStack_eq_ok.1 popped
  obtain ⟨enough, -, -, rfl⟩ := Stack.popTwo_eq_ok.1 two
  obtain failed | ⟨taken, c, compared, later⟩ := Action.bind_eq_error.1 later
  · obtain ⟨mismatch, rfl⟩ := Action.check_eq_error.1 failed
    exact .inr ⟨_, _, Relation.holds_error mismatch, enough, rfl⟩
  cases taken <;> exact absurd later Action.pure_ne_error

theorem fails_of_branch {relation : Relation} {operand : Value} (valid : core.stack.Valid)
    (op : instruction.opcode = .branch relation)
    (h : branch relation operand core = .error fault after) :
    Fails core instruction fault after := by
  obtain ⟨⟨n, rfl⟩ | rfl | rfl, rfl⟩ | ⟨left, right, rfl, two, rfl⟩ := branch_error valid h
  · exact .early trivial
  · exact .early trivial
  · exact .early trivial
  · exact .mismatch (.inr ⟨relation, op⟩) two

theorem fails_of_goto {operand : Value} (h : goto operand core = .error fault after) :
    Fails core instruction fault after := by
  simp only [goto, Action.bind_eq_error, Action.check_eq_error, Action.pure_ne_error, and_false,
    exists_false, or_false] at h
  obtain ⟨whole, rfl⟩ := h
  exact .early (Value.whole_inside whole)

theorem callSite_inside {count : Nat} (h : callSite count core = .error fault) :
    fault.Inside := by
  unfold callSite at h
  split at h
  · cases h
    trivial
  · split at h <;> cases h
    trivial

theorem fails_of_call {target count : Nat} (h : call target count core = .error fault after) :
    Fails core instruction fault after := by
  obtain failed | ⟨⟨caller, site⟩, c, checked, -⟩ := Action.bind_eq_error.1 h
  · obtain ⟨refused, rfl⟩ := Action.inspect_eq_error.1 failed
    exact .early (callSite_inside refused)
  obtain ⟨found, rfl⟩ := Action.inspect_eq_ok.1 checked
  obtain ⟨enough, room, -, -⟩ := callSite_eq_ok.1 found
  -- where the checks pass there is room for the whole header
  rw [call_eq_ok.2 ⟨enough, room, rfl, rfl⟩] at h
  cases h

theorem openFrame_error (h : openFrame core = .error fault) :
    fault = .returnWithoutCall ∨ fault = .nothingReturned := by
  unfold openFrame at h
  split at h
  · cases h
    exact .inl rfl
  · split at h <;> cases h
    exact .inr rfl

theorem ret_error_of_open {frame : Nat} (valid : core.stack.Valid)
    (opened : openFrame core = .ok frame) (h : ret core = .error fault after) :
    fault.Inside ∧ ∃ height < core.stack.height, after = core.lowered height := by
  obtain ⟨-, above, rfl⟩ := openFrame_eq_ok.1 opened
  unfold ret at h
  rw [Action.bind_ok (Action.inspect_ok opened)] at h
  obtain failed | ⟨⟨site, caller⟩, c, unwound, later⟩ := Action.bind_eq_error.1 h
  · obtain ⟨t, refused, rfl⟩ := onStack_eq_error.1 failed
    obtain ⟨inside, height, lower, rfl⟩ := Stack.unwind_error valid above refused
    exact ⟨inside, height, lower, rfl⟩
  obtain ⟨t, closed, rfl⟩ := onStack_eq_ok.1 unwound
  obtain ⟨-, -, -, hsite, -⟩ := (Stack.unwind_eq_ok above).1 closed
  -- a site read from a header is small, so the address behind it is one
  have address : site + 1 < addressLimit := successor_lt (Stack.count?_lt hsite)
  obtain failed | ⟨u, c, -, later⟩ := Action.bind_eq_error.1 later
  · cases failed
  · rw [if_pos address] at later
    exact absurd later Action.pure_ne_error

theorem fails_of_ret (valid : core.stack.Valid) (op : instruction.opcode = .ret)
    (h : ret core = .error fault after) : Fails core instruction fault after := by
  cases opened : openFrame core with
  | error refused =>
    unfold ret at h
    rw [Action.bind_error (Action.inspect_error opened)] at h
    cases h
    rcases openFrame_error opened with rfl | rfl <;> exact .early trivial
  | ok frame =>
    obtain ⟨inside, height, lower, rfl⟩ := ret_error_of_open valid opened h
    obtain ⟨-, -, rfl⟩ := openFrame_eq_ok.1 opened
    exact .unwinding op opened inside lower

theorem fails_of_print (valid : core.stack.Valid) (h : print core = .error fault after) :
    Fails core instruction fault after := by
  simp only [print, Action.bind_eq_error, Action.inspect_eq_error, Action.pure_ne_error,
    and_false, exists_false, or_false] at h
  obtain ⟨top, rfl⟩ := h
  exact .early (Stack.peek_inside valid top)

theorem fails_of_perform (valid : core.stack.Valid)
    (h : perform instruction core = .error fault after) : Fails core instruction fault after := by
  unfold perform at h
  cases op : instruction.opcode with
  | halt =>
    simp only [op] at h
    exact absurd h Action.pure_ne_error
  | const =>
    simp only [op] at h
    exact fails_of_operand h fun value => fails_of_push
  | store =>
    simp only [op] at h
    exact fails_of_operand h fun address => fails_of_store valid
  | fetch =>
    simp only [op] at h
    exact fails_of_operand h fun address => fails_of_fetch
  | gstore =>
    simp only [op] at h
    exact fails_of_operand h fun address => fails_of_gstore valid
  | gfetch =>
    simp only [op] at h
    exact fails_of_operand h fun address => fails_of_gfetch
  | pop =>
    simp only [op] at h
    exact fails_of_pop valid h
  | binary operator =>
    simp only [op] at h
    exact fails_of_binary valid op h
  | branch relation =>
    simp only [op] at h
    exact fails_of_operand h fun operand => fails_of_branch valid op
  | goto =>
    simp only [op] at h
    exact fails_of_operand h fun operand => fails_of_goto
  | call =>
    simp only [op] at h
    refine fails_of_count h fun target h => ?_
    exact fails_of_count h fun count => fails_of_call
  | ret =>
    simp only [op] at h
    exact fails_of_ret valid op h
  | print =>
    simp only [op] at h
    exact fails_of_print valid h

end Core

end StackMachine
