import StackMachine.Proofs.Operations

/-!
What each instruction does, as rules. `Executes core instruction effect after`
has one rule for each kind of instruction, with the checks it passes and the
core it leaves. Every successful execution follows one of the rules, so that a
property of all instructions is proved by going through the rules once.
-/

namespace StackMachine

namespace Instruction

def count? (instruction : Instruction) (index : Nat) : Option Nat :=
  instruction.operands[index]?.bind Value.count?

theorem count?_of_operand {instruction : Instruction} {index : Nat} {value : Value}
    (operand : instruction.operand index = .ok value) :
    instruction.count? index = value.count? := by
  rw [count?, operand_eq_ok_iff.1 operand]
  rfl

theorem whole_operand_eq_ok {instruction : Instruction} {index n : Nat} {what : String} :
    (do (← instruction.operand index).whole what) = Except.ok n ↔
      instruction.count? index = some n := by
  cases found : instruction.operands[index]? with
  | none => simp [operand, count?, found, bind, Except.bind]
  | some value => simp [operand, count?, found, bind, Except.bind, Value.whole_eq_ok]

end Instruction

namespace Core

theorem onStack_eq_ok {α : Type} {action : Action Stack α} {core after : Core} {a : α} :
    onStack action core = .ok a after ↔
      ∃ t, action core.stack = .ok a t ∧ after = { core with stack := t } := by
  cases result : action core.stack with
  | ok b t => simp [onStack_ok result, eq_comm, and_assoc]
  | error fault t => simp [onStack_error result]

theorem onStack_eq_error {α : Type} {action : Action Stack α} {core after : Core}
    {fault : Fault} :
    onStack action core = .error fault after ↔
      ∃ t, action core.stack = .error fault t ∧ after = { core with stack := t } := by
  cases result : action core.stack with
  | ok b t => simp [onStack_ok result]
  | error fault t => simp [onStack_error result, eq_comm, and_assoc]

theorem onGlobals_eq_ok {α : Type} {action : Action Stack α} {core after : Core} {a : α} :
    onGlobals action core = .ok a after ↔
      ∃ t, action core.globals = .ok a t ∧ after = { core with globals := t } := by
  cases result : action core.globals with
  | ok b t => simp [onGlobals_ok result, eq_comm, and_assoc]
  | error fault t => simp [onGlobals_error result]

theorem onGlobals_eq_error {α : Type} {action : Action Stack α} {core after : Core}
    {fault : Fault} :
    onGlobals action core = .error fault after ↔
      ∃ t, action core.globals = .error fault t ∧ after = { core with globals := t } := by
  cases result : action core.globals with
  | ok b t => simp [onGlobals_ok result]
  | error fault t => simp [onGlobals_error result, eq_comm, and_assoc]

theorem const_eq_ok {core after : Core} {value : Value} {effect : Effect} :
    const value core = .ok effect after ↔
      core.stack.height < core.stack.capacity ∧ effect = ⟨.next, none⟩
        ∧ after = { core with stack := core.stack.pushed value } := by
  simp only [const, Action.bind_eq_ok, onStack_eq_ok, Stack.push_eq_ok, Action.pure_eq_ok]
  refine ⟨fun h => ?_, fun h => ?_⟩
  · obtain ⟨-, c, ⟨t, ⟨room, rfl⟩, rfl⟩, rfl, rfl⟩ := h
    exact ⟨room, rfl, rfl⟩
  · obtain ⟨room, rfl, rfl⟩ := h
    exact ⟨(), _, ⟨_, ⟨room, rfl⟩, rfl⟩, rfl, rfl⟩

theorem store_eq_ok {core after : Core} {address : Value} {effect : Effect} :
    store address core = .ok effect after ↔
      ∃ i value, core.stack.slot address = .ok i ∧ core.stack.peek = .ok value
        ∧ effect = ⟨.next, none⟩ ∧ after = { core with stack := core.stack.stored i value } := by
  simp only [store, Action.bind_eq_ok, onStack_eq_ok, Stack.store_eq_ok, Action.pure_eq_ok]
  refine ⟨fun h => ?_, fun h => ?_⟩
  · obtain ⟨value, c, ⟨t, ⟨i, place, top, rfl⟩, rfl⟩, rfl, rfl⟩ := h
    exact ⟨i, value, place, top, rfl, rfl⟩
  · obtain ⟨i, value, place, top, rfl, rfl⟩ := h
    exact ⟨value, _, ⟨_, ⟨i, place, top, rfl⟩, rfl⟩, rfl, rfl⟩

theorem fetch_eq_ok {core after : Core} {address : Value} {effect : Effect} :
    fetch address core = .ok effect after ↔
      ∃ value, core.stack.read address = .ok value ∧ core.stack.height < core.stack.capacity
        ∧ effect = ⟨.next, none⟩ ∧ after = { core with stack := core.stack.pushed value } := by
  simp only [fetch, Action.bind_eq_ok, onStack_eq_ok, Stack.fetch_eq_ok, Action.pure_eq_ok]
  refine ⟨fun h => ?_, fun h => ?_⟩
  · obtain ⟨value, c, ⟨t, ⟨content, room, rfl⟩, rfl⟩, rfl, rfl⟩ := h
    exact ⟨value, content, room, rfl, rfl⟩
  · obtain ⟨value, content, room, rfl, rfl⟩ := h
    exact ⟨value, _, ⟨_, ⟨content, room, rfl⟩, rfl⟩, rfl, rfl⟩

theorem gstore_eq_ok {core after : Core} {address : Value} {effect : Effect} :
    gstore address core = .ok effect after ↔
      ∃ i value, core.globals.slot address = .ok i ∧ core.stack.peek = .ok value
        ∧ effect = ⟨.next, none⟩
        ∧ after = { core with
            stack := core.stack.lowered (core.stack.height - 1)
            globals := { core.globals with cells := core.globals.cells.setIfInBounds i value } } := by
  simp only [gstore, Action.bind_eq_ok, Action.inspect_eq_ok, onStack_eq_ok, onGlobals_eq_ok,
    Stack.pop_eq_ok, Stack.write_eq_ok, Action.pure_eq_ok]
  refine ⟨fun h => ?_, fun h => ?_⟩
  · obtain ⟨i, c₀, ⟨place, rfl⟩, value, c₁, ⟨t, ⟨top, rfl⟩, rfl⟩, -, c₂,
      ⟨g, ⟨i', place', rfl⟩, rfl⟩, rfl, rfl⟩ := h
    simp only [place] at place'
    cases place'
    exact ⟨i, value, place, top, rfl, rfl⟩
  · obtain ⟨i, value, place, top, rfl, rfl⟩ := h
    exact ⟨i, core, ⟨place, rfl⟩, value, _, ⟨_, ⟨top, rfl⟩, rfl⟩, (), _,
      ⟨_, ⟨i, place, rfl⟩, rfl⟩, rfl, rfl⟩

theorem gfetch_eq_ok {core after : Core} {address : Value} {effect : Effect} :
    gfetch address core = .ok effect after ↔
      ∃ value, core.globals.read address = .ok value ∧ core.stack.height < core.stack.capacity
        ∧ effect = ⟨.next, none⟩ ∧ after = { core with stack := core.stack.pushed value } := by
  simp only [gfetch, Action.bind_eq_ok, Action.inspect_eq_ok, onStack_eq_ok, Stack.push_eq_ok,
    Action.pure_eq_ok]
  refine ⟨fun h => ?_, fun h => ?_⟩
  · obtain ⟨value, c₀, ⟨content, rfl⟩, -, c₁, ⟨t, ⟨room, rfl⟩, rfl⟩, rfl, rfl⟩ := h
    exact ⟨value, content, room, rfl, rfl⟩
  · obtain ⟨value, content, room, rfl, rfl⟩ := h
    exact ⟨value, core, ⟨content, rfl⟩, (), _, ⟨_, ⟨room, rfl⟩, rfl⟩, rfl, rfl⟩

theorem pop_eq_ok {core after : Core} {effect : Effect} :
    pop core = .ok effect after ↔
      ∃ value, core.stack.peek = .ok value ∧ effect = ⟨.next, none⟩
        ∧ after = { core with stack := core.stack.lowered (core.stack.height - 1) } := by
  simp only [pop, Action.bind_eq_ok, onStack_eq_ok, Stack.pop_eq_ok, Action.pure_eq_ok]
  refine ⟨fun h => ?_, fun h => ?_⟩
  · obtain ⟨value, c, ⟨t, ⟨top, rfl⟩, rfl⟩, rfl, rfl⟩ := h
    exact ⟨value, top, rfl, rfl⟩
  · obtain ⟨value, top, rfl, rfl⟩ := h
    exact ⟨value, _, ⟨_, ⟨top, rfl⟩, rfl⟩, rfl, rfl⟩

theorem binary_eq_ok {core after : Core} {operator : Operator} {effect : Effect} :
    binary operator core = .ok effect after ↔
      ∃ left right value, 2 ≤ core.stack.height
        ∧ core.stack.cells[core.stack.height - 1]? = some right
        ∧ core.stack.cells[core.stack.height - 2]? = some left
        ∧ operator.apply left right = .ok value ∧ effect = ⟨.next, none⟩
        ∧ after = { core with
            stack := (core.stack.lowered (core.stack.height - 2)).pushed value } := by
  simp only [binary, Action.bind_eq_ok, onStack_eq_ok, Action.check_eq_ok, Stack.push_eq_ok,
    Action.pure_eq_ok]
  refine ⟨fun h => ?_, fun h => ?_⟩
  · obtain ⟨⟨left, right⟩, c₀, ⟨t, two, rfl⟩, value, c₁, ⟨applied, rfl⟩, -, c₂,
      ⟨t', ⟨-, rfl⟩, rfl⟩, rfl, rfl⟩ := h
    obtain ⟨enough, top, next, rfl⟩ := Stack.popTwo_eq_ok.1 two
    exact ⟨left, right, value, enough, top, next, applied, rfl, rfl⟩
  · obtain ⟨left, right, value, enough, top, next, applied, rfl, rfl⟩ := h
    -- the slot read last is the one the result goes to, so there is room for it
    have room : core.stack.height - 2 < core.stack.capacity := (Array.getElem?_eq_some_iff.1 next).1
    exact ⟨(left, right), _, ⟨_, Stack.popTwo_eq_ok.2 ⟨enough, top, next, rfl⟩, rfl⟩, value, _,
      ⟨applied, rfl⟩, (), _, ⟨_, ⟨room, rfl⟩, rfl⟩, rfl, rfl⟩

theorem branch_eq_ok {core after : Core} {relation : Relation} {operand : Value}
    {effect : Effect} :
    branch relation operand core = .ok effect after ↔
      ∃ target next top taken, operand.count? = some target ∧ 2 ≤ core.stack.height
        ∧ core.stack.cells[core.stack.height - 1]? = some top
        ∧ core.stack.cells[core.stack.height - 2]? = some next
        ∧ relation.holds top next = .ok taken
        ∧ effect = ⟨if taken then .jump target else .next, none⟩
        ∧ after = { core with stack := core.stack.lowered (core.stack.height - 2) } := by
  simp only [branch, Action.bind_eq_ok, onStack_eq_ok, Action.check_eq_ok, Value.whole_eq_ok]
  refine ⟨fun h => ?_, fun h => ?_⟩
  · obtain ⟨target, c₀, ⟨whole, rfl⟩, ⟨next, top⟩, c₁, ⟨t, two, rfl⟩, taken, c₂, ⟨holds, rfl⟩,
      result⟩ := h
    obtain ⟨enough, htop, hnext, rfl⟩ := Stack.popTwo_eq_ok.1 two
    cases taken with
    | true =>
      obtain ⟨rfl, rfl⟩ := Action.pure_eq_ok.1 result
      exact ⟨target, next, top, true, whole, enough, htop, hnext, holds, rfl, rfl⟩
    | false =>
      obtain ⟨rfl, rfl⟩ := Action.pure_eq_ok.1 result
      exact ⟨target, next, top, false, whole, enough, htop, hnext, holds, rfl, rfl⟩
  · obtain ⟨target, next, top, taken, whole, enough, htop, hnext, holds, rfl, rfl⟩ := h
    refine ⟨target, core, ⟨whole, rfl⟩, (next, top), _,
      ⟨_, Stack.popTwo_eq_ok.2 ⟨enough, htop, hnext, rfl⟩, rfl⟩, taken, _, ⟨holds, rfl⟩, ?_⟩
    cases taken <;> rfl

theorem goto_eq_ok {core after : Core} {operand : Value} {effect : Effect} :
    goto operand core = .ok effect after ↔
      ∃ target, operand.count? = some target ∧ effect = ⟨.jump target, none⟩ ∧ after = core := by
  simp only [goto, Action.bind_eq_ok, Action.check_eq_ok, Value.whole_eq_ok, Action.pure_eq_ok]
  refine ⟨fun h => ?_, fun h => ?_⟩
  · obtain ⟨target, c, ⟨whole, rfl⟩, rfl, rfl⟩ := h
    exact ⟨target, whole, rfl, rfl⟩
  · obtain ⟨target, whole, rfl, rfl⟩ := h
    exact ⟨target, _, ⟨whole, rfl⟩, rfl, rfl⟩

theorem callSite_eq_ok {core : Core} {count caller site : Nat} :
    callSite count core = .ok (caller, site) ↔
      count ≤ core.stack.height ∧ core.stack.height + 3 ≤ core.stack.capacity
        ∧ caller = core.fp ∧ site = core.ip := by
  unfold callSite
  split
  · simp
    omega
  · split
    · simp
      omega
    · simp [eq_comm]
      omega

def called (core : Core) (count : Nat) : Core :=
  { core with
    stack := ((core.stack.pushed (.ofNat count)).pushed (.ofNat core.fp)).pushed (.ofNat core.ip)
    fp := core.stack.height + 2
    depth := core.depth + 1 }

theorem called_height (core : Core) (count : Nat) :
    (core.called count).stack.height = core.stack.height + 3 := rfl

theorem called_capacity (core : Core) (count : Nat) :
    (core.called count).stack.capacity = core.stack.capacity := by
  simp only [called, Stack.pushed_capacity]

theorem called_cells (core : Core) (count : Nat) {i : Nat}
    (outside : i < core.stack.height ∨ core.stack.height + 3 ≤ i) :
    (core.called count).stack.cells[i]? = core.stack.cells[i]? := by
  simp only [called]
  rw [Stack.pushed_cells_of_ne _ (by simp only [Stack.pushed_height]; omega),
    Stack.pushed_cells_of_ne _ (by simp only [Stack.pushed_height]; omega),
    Stack.pushed_cells_of_ne _ (by omega)]

/-- The header, from the bottom: the number of arguments, the caller's frame and
the address of the call. -/
theorem called_header (core : Core) (count : Nat)
    (room : core.stack.height + 3 ≤ core.stack.capacity) :
    (core.called count).stack.cells[core.stack.height]? = some (.ofNat count)
      ∧ (core.called count).stack.cells[core.stack.height + 1]? = some (.ofNat core.fp)
      ∧ (core.called count).stack.cells[core.stack.height + 2]? = some (.ofNat core.ip) := by
  have first := core.stack.pushed_capacity (.ofNat count)
  have second := (core.stack.pushed (.ofNat count)).pushed_capacity (.ofNat core.fp)
  simp only [called]
  refine ⟨?_, ?_, ?_⟩
  · rw [Stack.pushed_cells_of_ne _ (by simp only [Stack.pushed_height]; omega),
      Stack.pushed_cells_of_ne _ (by simp only [Stack.pushed_height]; omega)]
    exact Stack.pushed_cells_self _ (by omega)
  · rw [Stack.pushed_cells_of_ne _ (by simp only [Stack.pushed_height]; omega)]
    exact Stack.pushed_cells_self _ (by simp only [Stack.pushed_height]; omega)
  · exact Stack.pushed_cells_self _ (by simp only [Stack.pushed_height]; omega)

theorem call_eq_ok {core after : Core} {target count : Nat} {effect : Effect} :
    call target count core = .ok effect after ↔
      count ≤ core.stack.height ∧ core.stack.height + 3 ≤ core.stack.capacity
        ∧ effect = ⟨.jump target, none⟩ ∧ after = core.called count := by
  simp only [call, Action.bind_eq_ok, Action.inspect_eq_ok, onStack_eq_ok, Action.pure_eq_ok]
  refine ⟨fun h => ?_, fun h => ?_⟩
  · obtain ⟨⟨caller, site⟩, c₀, ⟨checked, rfl⟩, u, c₁, ⟨t, header, rfl⟩, v, c₂, framed, rfl,
      rfl⟩ := h
    obtain ⟨enough, room, rfl, rfl⟩ := callSite_eq_ok.1 checked
    obtain rfl := (Stack.pushHeader_eq_ok room).1 header
    cases framed
    exact ⟨enough, room, rfl, rfl⟩
  · obtain ⟨enough, room, rfl, rfl⟩ := h
    exact ⟨(core.fp, core.ip), core, ⟨callSite_eq_ok.2 ⟨enough, room, rfl, rfl⟩, rfl⟩, (), _,
      ⟨_, (Stack.pushHeader_eq_ok room).2 rfl, rfl⟩, (), _, rfl, rfl, rfl⟩

theorem openFrame_eq_ok {core : Core} {frame : Nat} :
    openFrame core = .ok frame ↔
      0 < core.depth ∧ core.fp + 1 < core.stack.height ∧ frame = core.fp := by
  unfold openFrame Stack.pointer
  split
  · simp
    omega
  · split
    · simp
      omega
    · simp [eq_comm]
      omega

def returned (core : Core) (result : Value) (count caller : Nat) : Core :=
  { core with
    stack := (core.stack.lowered (core.fp - 2 - count)).pushed result
    fp := caller
    depth := core.depth - 1 }

theorem returned_height (core : Core) (result : Value) (count caller : Nat) :
    (core.returned result count caller).stack.height = core.fp - 2 - count + 1 := rfl

theorem returned_capacity (core : Core) (result : Value) (count caller : Nat) :
    (core.returned result count caller).stack.capacity = core.stack.capacity :=
  Stack.pushed_capacity _ _

theorem returned_cells (core : Core) (result : Value) (count caller : Nat) {i : Nat}
    (other : i ≠ core.fp - 2 - count) :
    (core.returned result count caller).stack.cells[i]? = core.stack.cells[i]? :=
  Stack.pushed_cells_of_ne (s := core.stack.lowered (core.fp - 2 - count)) result other

theorem successor_lt {site : Nat} (h : site < Number.wholeLimit) : site + 1 < addressLimit := by
  simp only [Number.wholeLimit] at h
  simp only [addressLimit]
  omega

theorem ret_eq_ok {core after : Core} {effect : Effect} :
    ret core = .ok effect after ↔
      ∃ result count caller site, 0 < core.depth ∧ core.fp + 1 < core.stack.height
        ∧ core.stack.cells[core.stack.height - 1]? = some result
        ∧ core.stack.count? core.fp = some site ∧ core.stack.count? (core.fp - 1) = some caller
        ∧ core.stack.count? (core.fp - 2) = some count ∧ count + 2 ≤ core.fp
        ∧ effect = ⟨.jump (site + 1), none⟩ ∧ after = core.returned result count caller := by
  simp only [ret, Action.bind_eq_ok, Action.inspect_eq_ok, onStack_eq_ok]
  refine ⟨fun h => ?_, fun h => ?_⟩
  · obtain ⟨frame, c₀, ⟨checked, rfl⟩, ⟨site, caller⟩, c₁, ⟨t, unwound, rfl⟩, u, c₂, framed,
      result⟩ := h
    obtain ⟨deep, below, rfl⟩ := openFrame_eq_ok.1 checked
    obtain ⟨value, count, top, hsite, hcaller, hcount, enough, rfl⟩ :=
      (Stack.unwind_eq_ok below).1 unwound
    have address : site + 1 < addressLimit := successor_lt (Stack.count?_lt hsite)
    cases framed
    rw [if_pos address] at result
    obtain ⟨rfl, rfl⟩ := Action.pure_eq_ok.1 result
    exact ⟨value, count, caller, site, deep, below, top, hsite, hcaller, hcount, enough, rfl, rfl⟩
  · obtain ⟨value, count, caller, site, deep, below, top, hsite, hcaller, hcount, enough, rfl,
      rfl⟩ := h
    have address : site + 1 < addressLimit := successor_lt (Stack.count?_lt hsite)
    refine ⟨core.fp, core, ⟨openFrame_eq_ok.2 ⟨deep, below, rfl⟩, rfl⟩, (site, caller), _,
      ⟨_, (Stack.unwind_eq_ok below).2
        ⟨value, count, top, hsite, hcaller, hcount, enough, rfl⟩, rfl⟩, (), _, rfl, ?_⟩
    rw [if_pos address]
    rfl

theorem print_eq_ok {core after : Core} {effect : Effect} :
    print core = .ok effect after ↔
      ∃ value, core.stack.peek = .ok value
        ∧ effect = ⟨.next, some (value.plain ++ "\n")⟩ ∧ after = core := by
  simp only [print, Action.bind_eq_ok, Action.inspect_eq_ok, Action.pure_eq_ok]
  refine ⟨fun h => ?_, fun h => ?_⟩
  · obtain ⟨value, c, ⟨top, rfl⟩, rfl, rfl⟩ := h
    exact ⟨value, top, rfl, rfl⟩
  · obtain ⟨value, top, rfl, rfl⟩ := h
    exact ⟨value, _, ⟨top, rfl⟩, rfl, rfl⟩

inductive Executes (core : Core) (instruction : Instruction) : Effect → Core → Prop where
  | halt (op : instruction.opcode = .halt) : Executes core instruction ⟨.halt, none⟩ core
  | const {value : Value} (op : instruction.opcode = .const)
      (operand : instruction.operand 0 = .ok value)
      (room : core.stack.height < core.stack.capacity) :
      Executes core instruction ⟨.next, none⟩ { core with stack := core.stack.pushed value }
  | store {address value : Value} {i : Nat} (op : instruction.opcode = .store)
      (operand : instruction.operand 0 = .ok address) (place : core.stack.slot address = .ok i)
      (top : core.stack.peek = .ok value) :
      Executes core instruction ⟨.next, none⟩ { core with stack := core.stack.stored i value }
  | fetch {address value : Value} (op : instruction.opcode = .fetch)
      (operand : instruction.operand 0 = .ok address)
      (content : core.stack.read address = .ok value)
      (room : core.stack.height < core.stack.capacity) :
      Executes core instruction ⟨.next, none⟩ { core with stack := core.stack.pushed value }
  | gstore {address value : Value} {i : Nat} (op : instruction.opcode = .gstore)
      (operand : instruction.operand 0 = .ok address) (place : core.globals.slot address = .ok i)
      (top : core.stack.peek = .ok value) :
      Executes core instruction ⟨.next, none⟩
        { core with
          stack := core.stack.lowered (core.stack.height - 1)
          globals := { core.globals with cells := core.globals.cells.setIfInBounds i value } }
  | gfetch {address value : Value} (op : instruction.opcode = .gfetch)
      (operand : instruction.operand 0 = .ok address)
      (content : core.globals.read address = .ok value)
      (room : core.stack.height < core.stack.capacity) :
      Executes core instruction ⟨.next, none⟩ { core with stack := core.stack.pushed value }
  | pop {value : Value} (op : instruction.opcode = .pop) (top : core.stack.peek = .ok value) :
      Executes core instruction ⟨.next, none⟩
        { core with stack := core.stack.lowered (core.stack.height - 1) }
  | binary {operator : Operator} {left right value : Value}
      (op : instruction.opcode = .binary operator) (two : 2 ≤ core.stack.height)
      (top : core.stack.cells[core.stack.height - 1]? = some right)
      (next : core.stack.cells[core.stack.height - 2]? = some left)
      (applied : operator.apply left right = .ok value) :
      Executes core instruction ⟨.next, none⟩
        { core with stack := (core.stack.lowered (core.stack.height - 2)).pushed value }
  | branch {relation : Relation} {place next top : Value} {target : Nat} {taken : Bool}
      (op : instruction.opcode = .branch relation)
      (operand : instruction.operand 0 = .ok place) (whole : place.count? = some target)
      (two : 2 ≤ core.stack.height)
      (topmost : core.stack.cells[core.stack.height - 1]? = some top)
      (second : core.stack.cells[core.stack.height - 2]? = some next)
      (holds : relation.holds top next = .ok taken) :
      Executes core instruction ⟨if taken then .jump target else .next, none⟩
        { core with stack := core.stack.lowered (core.stack.height - 2) }
  | goto {place : Value} {target : Nat} (op : instruction.opcode = .goto)
      (operand : instruction.operand 0 = .ok place) (whole : place.count? = some target) :
      Executes core instruction ⟨.jump target, none⟩ core
  | call {target count : Nat} (op : instruction.opcode = .call)
      (goal : instruction.count? 0 = some target) (arguments : instruction.count? 1 = some count)
      (enough : count ≤ core.stack.height)
      (room : core.stack.height + 3 ≤ core.stack.capacity) :
      Executes core instruction ⟨.jump target, none⟩ (core.called count)
  | ret {result : Value} {count caller site : Nat} (op : instruction.opcode = .ret)
      (deep : 0 < core.depth) (above : core.fp + 1 < core.stack.height)
      (top : core.stack.cells[core.stack.height - 1]? = some result)
      (siteSlot : core.stack.count? core.fp = some site)
      (callerSlot : core.stack.count? (core.fp - 1) = some caller)
      (countSlot : core.stack.count? (core.fp - 2) = some count) (enough : count + 2 ≤ core.fp) :
      Executes core instruction ⟨.jump (site + 1), none⟩ (core.returned result count caller)
  | print {value : Value} (op : instruction.opcode = .print)
      (top : core.stack.peek = .ok value) :
      Executes core instruction ⟨.next, some (value.plain ++ "\n")⟩ core

theorem executes_of_perform {core after : Core} {instruction : Instruction} {effect : Effect}
    (h : perform instruction core = .ok effect after) : Executes core instruction effect after := by
  unfold perform at h
  cases op : instruction.opcode with
  | halt =>
    simp only [op, Action.pure_eq_ok] at h
    obtain ⟨rfl, rfl⟩ := h
    exact .halt op
  | const =>
    simp only [op, Action.bind_eq_ok, Action.check_eq_ok, const_eq_ok] at h
    obtain ⟨value, c, ⟨operand, rfl⟩, room, rfl, rfl⟩ := h
    exact .const op operand room
  | store =>
    simp only [op, Action.bind_eq_ok, Action.check_eq_ok, store_eq_ok] at h
    obtain ⟨address, c, ⟨operand, rfl⟩, i, value, place, top, rfl, rfl⟩ := h
    exact .store op operand place top
  | fetch =>
    simp only [op, Action.bind_eq_ok, Action.check_eq_ok, fetch_eq_ok] at h
    obtain ⟨address, c, ⟨operand, rfl⟩, value, content, room, rfl, rfl⟩ := h
    exact .fetch op operand content room
  | gstore =>
    simp only [op, Action.bind_eq_ok, Action.check_eq_ok, gstore_eq_ok] at h
    obtain ⟨address, c, ⟨operand, rfl⟩, i, value, place, top, rfl, rfl⟩ := h
    exact .gstore op operand place top
  | gfetch =>
    simp only [op, Action.bind_eq_ok, Action.check_eq_ok, gfetch_eq_ok] at h
    obtain ⟨address, c, ⟨operand, rfl⟩, value, content, room, rfl, rfl⟩ := h
    exact .gfetch op operand content room
  | pop =>
    simp only [op, pop_eq_ok] at h
    obtain ⟨value, top, rfl, rfl⟩ := h
    exact .pop op top
  | binary operator =>
    simp only [op, binary_eq_ok] at h
    obtain ⟨left, right, value, two, top, next, applied, rfl, rfl⟩ := h
    exact .binary op two top next applied
  | branch relation =>
    simp only [op, Action.bind_eq_ok, Action.check_eq_ok, branch_eq_ok] at h
    obtain ⟨value, c, ⟨operand, rfl⟩, target, next, top, taken, whole, two, htop, hnext, holds,
      rfl, rfl⟩ := h
    exact .branch op operand whole two htop hnext holds
  | goto =>
    simp only [op, Action.bind_eq_ok, Action.check_eq_ok, goto_eq_ok] at h
    obtain ⟨value, c, ⟨operand, rfl⟩, target, whole, rfl, rfl⟩ := h
    exact .goto op operand whole
  | call =>
    simp only [op, Action.bind_eq_ok, Action.check_eq_ok, call_eq_ok,
      Instruction.whole_operand_eq_ok] at h
    obtain ⟨target, c₀, ⟨goal, rfl⟩, count, c₁, ⟨arguments, rfl⟩, enough, room, rfl, rfl⟩ := h
    exact .call op goal arguments enough room
  | ret =>
    simp only [op, ret_eq_ok] at h
    obtain ⟨result, count, caller, site, deep, above, top, hsite, hcaller, hcount, enough, rfl,
      rfl⟩ := h
    exact .ret op deep above top hsite hcaller hcount enough
  | print =>
    simp only [op, print_eq_ok] at h
    obtain ⟨value, top, rfl, rfl⟩ := h
    exact .print op top

theorem perform_ret {instruction : Instruction} (op : instruction.opcode = .ret) :
    perform instruction = ret := by
  funext core
  simp only [perform, op]

end Core

end StackMachine
