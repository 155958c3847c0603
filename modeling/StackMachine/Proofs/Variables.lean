import StackMachine.Proofs.CallReturn

/-!
Variables. The globals and the far end of the stack hold values under addresses,
and `saved?` tells what a step puts under an address. A global holds what was
last put there. A slot of the stack changes only by a store to its address or by
the stack growing over it, so a variable above the top is kept through all calls
and returns.
-/

namespace StackMachine

namespace Stack

def content? (s : Stack) (address : Nat) : Option Value :=
  if address < s.capacity then s.cells[s.capacity - address - 1]? else none

theorem content?_of_lt {s : Stack} {address : Nat} (lt : address < s.capacity) :
    s.content? address = s.cells[s.capacity - address - 1]? :=
  if_pos lt

theorem content?_of_le {s : Stack} {address : Nat} (le : s.capacity ≤ address) :
    s.content? address = none :=
  if_neg (Nat.not_lt.2 le)

theorem content?_empty (name : String) {capacity address : Nat} (lt : address < capacity) :
    (empty name capacity).content? address = some .nil := by
  rw [content?_of_lt (by rwa [empty_capacity]), empty_capacity, empty, Array.getElem?_replicate,
    if_pos (by omega)]

theorem slot_eq_ok {s : Stack} {address : Value} {i : Nat} :
    s.slot address = .ok i ↔
      ∃ a, address.count? = some a ∧ a < s.capacity ∧ i = s.capacity - a - 1 := by
  simp only [slot_eq_ok_iff, Value.whole_eq_ok]

theorem content?_write {s : Stack} {written : Value} {i : Nat} (place : s.slot written = .ok i)
    (value : Value) (address : Nat) :
    ({ s with cells := s.cells.setIfInBounds i value } : Stack).content? address =
      if written.count? = some address then some value else s.content? address := by
  obtain ⟨a, count, lt, rfl⟩ := slot_eq_ok.1 place
  have size : ({ s with cells := s.cells.setIfInBounds (s.capacity - a - 1) value } :
      Stack).capacity = s.capacity := Array.size_setIfInBounds
  simp only [count, Option.some.injEq]
  by_cases inside : address < s.capacity
  · rw [content?_of_lt (by rwa [size]), content?_of_lt inside, size]
    by_cases same : a = address
    · subst same
      rw [if_pos rfl]
      exact Array.getElem?_setIfInBounds_self_of_lt (slot_lt place)
    · rw [if_neg same]
      exact Array.getElem?_setIfInBounds_ne (by omega)
  · have other : a ≠ address := by omega
    rw [if_neg other, content?_of_le (by omega), content?_of_le (by omega)]

theorem read_eq_ok {s : Stack} {address value : Value} :
    s.read address = .ok value ↔ ∃ a, address.count? = some a ∧ s.content? a = some value := by
  refine ⟨fun h => ?_, fun h => ?_⟩
  · cases place : s.slot address with
    | ok i =>
      simp only [read, place, bind, Except.bind] at h
      obtain ⟨a, count, lt, rfl⟩ := slot_eq_ok.1 place
      exact ⟨a, count, (content?_of_lt lt).trans (slotValue_eq_ok.1 h)⟩
    | error fault =>
      simp only [read, place, bind, Except.bind] at h
      cases h
  · obtain ⟨a, count, content⟩ := h
    unfold content? at content
    split at content
    · rename_i lt
      have place : s.slot address = .ok (s.capacity - a - 1) := slot_eq_ok.2 ⟨a, count, lt, rfl⟩
      simp only [read, place, bind, Except.bind]
      exact slotValue_eq_ok.2 content
    · cases content

theorem content?_of_read {s : Stack} {instruction : Instruction} {place value : Value}
    (operand : instruction.operand 0 = .ok place) (content : s.read place = .ok value) :
    ∃ a, instruction.count? 0 = some a ∧ s.content? a = some value := by
  rw [Instruction.count?_of_operand operand]
  exact read_eq_ok.1 content

end Stack

namespace Core

variable {core after : Core} {instruction : Instruction}

theorem Executes.globals_eq {effect : Effect} (h : Executes core instruction effect after)
    (other : instruction.opcode ≠ .gstore) : after.globals = core.globals := by
  cases h with
  | gstore op => exact absurd op other
  | _ => rfl

end Core

namespace Machine

/-- What the next step puts under an address, if it is a successful `op` to that
address: the value on top, which it pops. -/
def saved? (m : Machine) (op : Opcode) (address : Nat) : Option Value :=
  m.fetched?.bind fun instruction =>
    if m.Succeeds instruction ∧ instruction.opcode = op ∧ instruction.count? 0 = some address then
      m.core.stack.peek.toOption
    else none

variable {m : Machine} {op : Opcode} {address : Nat} {instruction : Instruction}

theorem saved?_of_idle (idle : ∀ instruction, ¬ m.Succeeds instruction) :
    m.saved? op address = none := by
  refine Option.bind_eq_none_iff.2 fun instruction fetched => ?_
  exact if_neg fun saves => idle instruction saves.1

theorem saved?_of_succeeds (succeeds : m.Succeeds instruction) :
    m.saved? op address =
      if instruction.opcode = op ∧ instruction.count? 0 = some address then
        m.core.stack.peek.toOption
      else none := by
  rw [saved?, succeeds.2.1, Option.bind_some]
  simp only [succeeds, true_and]

theorem exists_succeeds_of_saved? {value : Value} (saved : m.saved? op address = some value) :
    ∃ instruction, m.Succeeds instruction ∧ instruction.opcode = op
      ∧ instruction.count? 0 = some address ∧ m.core.stack.peek = .ok value := by
  obtain ⟨instruction, -, saved⟩ := Option.bind_eq_some_iff.1 saved
  split at saved
  · rename_i saves
    obtain ⟨succeeds, same, target⟩ := saves
    refine ⟨instruction, succeeds, same, target, ?_⟩
    cases top : m.core.stack.peek with
    | ok found =>
      rw [top] at saved
      exact congrArg Except.ok (Option.some.inj saved)
    | error fault =>
      rw [top] at saved
      cases saved
  · cases saved

theorem next_cases (valid : m.core.stack.Valid) :
    ((∀ instruction, ¬ m.Succeeds instruction) ∧ ∃ height, m.next.core = m.core.lowered height)
      ∨ ∃ instruction effect core, m.Succeeds instruction
        ∧ Core.perform instruction m.core = .ok effect core
        ∧ m.next = m.continueWith instruction effect core := by
  have moves := m.moves_next
  generalize m.next = after at moves
  cases moves with
  | idle rest => exact .inl ⟨fun _ succeeds => rest succeeds.1, m.core.stack.height, rfl⟩
  | ended running past =>
    refine .inl ⟨fun _ succeeds => ?_, m.core.stack.height, rfl⟩
    cases past.symm.trans succeeds.2.1
  | @failed instruction fault core running fetched performed =>
    refine .inl ⟨fun other succeeds => ?_, (Core.fails_of_perform valid performed).lowers⟩
    obtain ⟨-, same, effect, after, done⟩ := succeeds
    obtain rfl := Option.some.inj (fetched.symm.trans same)
    cases performed.symm.trans done
  | @done instruction effect core running fetched performed =>
    exact .inr ⟨instruction, effect, core, ⟨running, fetched, effect, core, performed⟩, performed,
      rfl⟩

def saves (m : Machine) (op : Opcode) (address steps : Nat) : List Value :=
  (List.range steps).filterMap fun k => (next^[k] m).saved? op address

theorem getLast?_saves_succ (m : Machine) (op : Opcode) (address steps : Nat) :
    (m.saves op address (steps + 1)).getLast? =
      ((next^[steps] m).saved? op address).or (m.saves op address steps).getLast? := by
  rw [saves, List.range_succ, List.filterMap_append]
  cases saved : (next^[steps] m).saved? op address with
  | none => simp [saved, saves]
  | some value => simp [saved]

theorem globals_next (valid : m.core.stack.Valid) (address : Nat) :
    m.next.core.globals.content? address =
      (m.saved? .gstore address).or (m.core.globals.content? address) := by
  obtain ⟨idle, height, same⟩ | ⟨instruction, effect, core, succeeds, performed, same⟩ :=
    next_cases valid
  · rw [saved?_of_idle idle, same]
    rfl
  have executes := Core.executes_of_perform performed
  rw [saved?_of_succeeds succeeds, same]
  by_cases op : instruction.opcode = .gstore
  · cases executes with
    | @gstore target value i _ operand place top =>
      have written := Stack.content?_write place value address
      simp only [continueWith, written, op, Instruction.count?_of_operand operand, top,
        Except.toOption, true_and]
      split <;> rfl
    | _ other => cases op.symm.trans other
  · rw [if_neg fun saves => op saves.1]
    exact congrArg (Stack.content? · address) (executes.globals_eq op)

theorem stack_next {stackSize : Nat} (bounded : m.core.Bounded stackSize) (address : Nat)
    (above : m.next.core.stack.height + address < stackSize) :
    m.next.core.stack.content? address =
      (m.saved? .store address).or (m.core.stack.content? address) := by
  have before := bounded.capacity
  have after := (m.moves_next.bounded bounded).capacity
  obtain ⟨idle, height, same⟩ | ⟨instruction, effect, core, succeeds, performed, same⟩ :=
    next_cases bounded.valid
  · rw [saved?_of_idle idle, same]
    rfl
  rw [saved?_of_succeeds succeeds]
  by_cases op : instruction.opcode = .store
  · rw [same]
    cases Core.executes_of_perform performed with
    | @store target value i _ operand place top =>
      have written : (m.core.stack.stored i value).content? address = _ :=
        Stack.content?_write place value address
      simp only [continueWith, written, op, Instruction.count?_of_operand operand, top,
        Except.toOption, true_and]
      split <;> rfl
    | _ other => cases op.symm.trans other
  · -- what is not stored goes to the slots up to the new top
    rw [if_neg fun saves => op saves.1, Option.none_or, Stack.content?_of_lt (by omega),
      Stack.content?_of_lt (by omega), before, after]
    rw [same] at above ⊢
    refine Core.cells_of_not_mem_written performed fun mem => ?_
    obtain ⟨-, lt⟩ | stored := (Core.mem_written performed).1 mem
    · simp only [continueWith] at above
      omega
    · unfold Core.stored? at stored
      split at stored
      · rename_i isStore
        exact op isStore
      · cases stored

theorem saved_of_changed {stackSize i : Nat} (bounded : m.core.Bounded stackSize)
    (changed : m.next.core.stack.cells[i]? ≠ m.core.stack.cells[i]?) :
    (∃ address < stackSize, i = stackSize - address - 1 ∧ (m.saved? .store address).isSome)
      ∨ (i : Int) ≤ m.next.core.stack.pointer := by
  have before := bounded.capacity
  have after := (m.moves_next.bounded bounded).capacity
  have inside : i < stackSize := by
    by_contra outside
    have absent : ∀ s : Stack, s.capacity = stackSize → s.cells[i]? = none := fun s size =>
      Array.getElem?_eq_none (Nat.le_trans (Nat.le_of_eq size) (Nat.le_of_not_lt outside))
    exact changed ((absent _ after).trans (absent _ before).symm)
  have place : stackSize - (stackSize - i - 1) - 1 = i := by omega
  by_cases below : m.next.core.stack.height ≤ i
  · left
    refine ⟨stackSize - i - 1, by omega, place.symm, ?_⟩
    have kept := stack_next bounded (stackSize - i - 1) (by omega)
    rw [Stack.content?_of_lt (by omega), Stack.content?_of_lt (by omega), before, after,
      place] at kept
    cases saved : m.saved? .store (stackSize - i - 1) with
    | some value => rfl
    | none =>
      rw [saved, Option.none_or] at kept
      exact absurd kept changed
  · right
    rw [Stack.pointer]
    omega

theorem gstore_pops {value : Value} (saved : m.saved? .gstore address = some value) :
    address < m.core.globals.capacity
      ∧ m.core.stack.live = m.next.core.stack.live ++ [value] := by
  obtain ⟨instruction, succeeds, op, target, top⟩ := exists_succeeds_of_saved? saved
  obtain ⟨effect, core, performed, same⟩ := succeeds.next_eq
  rw [same]
  cases Core.executes_of_perform performed with
  | gstore _ operand place _ =>
    obtain ⟨a, count, lt, -⟩ := Stack.slot_eq_ok.1 place
    rw [Instruction.count?_of_operand operand, count] at target
    obtain rfl := Option.some.inj target
    exact ⟨lt, Stack.live_of_peek top⟩
  | _ other => cases op.symm.trans other

theorem Succeeds.fetch (h : m.Succeeds instruction) (op : instruction.opcode = .fetch) :
    ∃ value, (∃ a, instruction.count? 0 = some a ∧ m.core.stack.content? a = some value)
      ∧ m.next.core.stack.live = m.core.stack.live ++ [value] := by
  obtain ⟨effect, core, performed, same⟩ := h.next_eq
  rw [same]
  cases Core.executes_of_perform performed with
  | @fetch place value _ operand content room =>
    exact ⟨value, Stack.content?_of_read operand content, Stack.live_pushed value room⟩
  | _ other => cases op.symm.trans other

theorem Succeeds.gfetch (h : m.Succeeds instruction) (op : instruction.opcode = .gfetch) :
    ∃ value, (∃ a, instruction.count? 0 = some a ∧ m.core.globals.content? a = some value)
      ∧ m.next.core.stack.live = m.core.stack.live ++ [value] := by
  obtain ⟨effect, core, performed, same⟩ := h.next_eq
  rw [same]
  cases Core.executes_of_perform performed with
  | @gfetch place value _ operand content room =>
    exact ⟨value, Stack.content?_of_read operand content, Stack.live_pushed value room⟩
  | _ other => cases op.symm.trans other

theorem succeeds_of_fetch {value : Value} (running : m.status = .running)
    (fetched : m.fetched? = some instruction) (op : instruction.opcode = .fetch)
    (target : instruction.count? 0 = some address)
    (content : m.core.stack.content? address = some value)
    (room : m.core.stack.height < m.core.stack.capacity) : m.Succeeds instruction := by
  obtain ⟨place, operand, count⟩ := Option.bind_eq_some_iff.1 target
  have read : m.core.stack.read place = .ok value := Stack.read_eq_ok.2 ⟨address, count, content⟩
  refine ⟨running, fetched, ⟨.next, none⟩, { m.core with stack := m.core.stack.pushed value }, ?_⟩
  simp only [Core.perform, op, Action.bind_eq_ok, Action.check_eq_ok, Core.fetch_eq_ok]
  exact ⟨place, m.core, ⟨Instruction.operand_eq_ok_iff.2 operand, rfl⟩, value, read, room, trivial,
    rfl⟩

section Run

variable {program : Program} {settings : Settings}

theorem globals_iterate (steps address : Nat) :
    (next^[steps] (load program settings)).core.globals.content? address =
      if address < globalsSize then
        some (((load program settings).saves .gstore address steps).getLast?.getD .nil)
      else none := by
  split
  · rename_i inside
    induction steps with
    | zero => exact Stack.content?_empty _ inside
    | succ steps ih =>
      have valid := (bounded_iterate program settings steps).valid
      rw [Function.iterate_succ_apply', globals_next valid, ih, getLast?_saves_succ]
      cases (next^[steps] (load program settings)).saved? .gstore address <;> rfl
  · rename_i outside
    have capacity := (bounded_iterate program settings steps).globalsCapacity
    exact Stack.content?_of_le (by omega)

/-- A variable keeps its value until the next store to its address or until the
stack has grown over it. -/
theorem stored_iterate {i address : Nat} {value : Value}
    (saved : (next^[i] (load program settings)).saved? .store address = some value) (n : Nat)
    (unsaved : ∀ k, i < k → k < i + 1 + n →
      (next^[k] (load program settings)).saved? .store address = none)
    (below : ∀ k, i < k → k ≤ i + 1 + n →
      (next^[k] (load program settings)).core.stack.height + address < settings.stackSize) :
    (next^[i + 1 + n] (load program settings)).core.stack.content? address = some value := by
  induction n with
  | zero =>
    have above := below (i + 1) (by omega) (by omega)
    rw [Function.iterate_succ_apply'] at above
    rw [Nat.add_zero, Function.iterate_succ_apply',
      stack_next (bounded_iterate program settings i) address above, saved, Option.some_or]
  | succ n ih =>
    have above := below (i + 1 + n + 1) (by omega) (by omega)
    rw [Function.iterate_succ_apply'] at above
    rw [← Nat.add_assoc, Function.iterate_succ_apply',
      stack_next (bounded_iterate program settings (i + 1 + n)) address above,
      unsaved (i + 1 + n) (by omega) (by omega), Option.none_or]
    exact ih (fun k lt le => unsaved k lt (by omega)) (fun k lt le => below k lt (by omega))

theorem gfetch_iterate {n : Nat} {fetching : Instruction}
    (succeeds : (next^[n] (load program settings)).Succeeds fetching)
    (op : fetching.opcode = .gfetch) :
    ∃ address < globalsSize, fetching.count? 0 = some address
      ∧ (next^[n] (load program settings)).next.core.stack.live
        = (next^[n] (load program settings)).core.stack.live
          ++ [((load program settings).saves .gstore address n).getLast?.getD .nil] := by
  obtain ⟨value, ⟨address, target, content⟩, pushes⟩ := succeeds.gfetch op
  rw [globals_iterate] at content
  split at content
  · rename_i inside
    obtain rfl := Option.some.inj content
    exact ⟨address, inside, target, pushes⟩
  · cases content

theorem fetch_iterate {i j address : Nat} {value : Value} {fetching : Instruction} (later : i < j)
    (saved : (next^[i] (load program settings)).saved? .store address = some value)
    (unsaved : ∀ k, i < k → k < j →
      (next^[k] (load program settings)).saved? .store address = none)
    (below : ∀ k, i < k → k ≤ j →
      (next^[k] (load program settings)).core.stack.height + address < settings.stackSize)
    (running : (next^[j] (load program settings)).status = .running)
    (fetched : (next^[j] (load program settings)).fetched? = some fetching)
    (op : fetching.opcode = .fetch) (target : fetching.count? 0 = some address) :
    (next^[j] (load program settings)).Succeeds fetching
      ∧ (next^[j] (load program settings)).next.core.stack.live
        = (next^[j] (load program settings)).core.stack.live ++ [value] := by
  have split : i + 1 + (j - (i + 1)) = j := by omega
  have content := stored_iterate saved (j - (i + 1)) (fun k lt le => unsaved k lt (by omega))
    (fun k lt le => below k lt (by omega))
  rw [split] at content
  have top := below j later (Nat.le_refl j)
  have capacity := (bounded_iterate program settings j).capacity
  -- the variable lies above the top, so there is room for one more value
  have succeeds := succeeds_of_fetch running fetched op target content (by omega)
  obtain ⟨value', ⟨address', target', content'⟩, pushes⟩ := succeeds.fetch op
  obtain rfl := Option.some.inj (target.symm.trans target')
  obtain rfl := Option.some.inj (content.symm.trans content')
  exact ⟨succeeds, pushes⟩

/-- Variables over a whole run. The globals are a map of 512 addresses: each holds
what was last popped into it, and `nil` before that, and that is what a `gfetch`
pushes. A slot of the stack changes by a store to its address, or it lies at the
top or below it; so a stored value is what a later `fetch` pushes, if the stack
has stayed below its slot and nothing else has been stored there. -/
theorem variables_keep_their_values (program : Program) (settings : Settings) :
    let run := fun n => next^[n] (load program settings)
    let capacity := settings.stackSize
    (∀ n address, (run n).core.globals.content? address =
        if address < 512 then some (((run 0).saves .gstore address n).getLast?.getD .nil)
        else none)
      ∧ (∀ n address value, (run n).saved? .gstore address = some value →
        address < 512
          ∧ (run n).core.stack.live = (run (n + 1)).core.stack.live ++ [value])
      ∧ (∀ n fetching, (run n).Succeeds fetching → fetching.opcode = .gfetch →
        ∃ address < 512, fetching.count? 0 = some address
          ∧ (run (n + 1)).core.stack.live = (run n).core.stack.live
            ++ [((run 0).saves .gstore address n).getLast?.getD .nil])
      ∧ (∀ n i, (run (n + 1)).core.stack.cells[i]? ≠ (run n).core.stack.cells[i]? →
        (∃ address < capacity, i = capacity - address - 1
          ∧ ((run n).saved? .store address).isSome)
        ∨ (i : Int) ≤ (run (n + 1)).core.stack.pointer)
      ∧ ∀ i j address value fetching, i < j →
        (run i).saved? .store address = some value →
        (∀ k, i < k → k < j → (run k).saved? .store address = none) →
        (∀ k, i < k → k ≤ j → (run k).core.stack.pointer < (capacity : Int) - address - 1) →
        (run j).status = .running → (run j).fetched? = some fetching →
        fetching.opcode = .fetch → fetching.count? 0 = some address →
        (run j).Succeeds fetching
          ∧ (run (j + 1)).core.stack.live = (run j).core.stack.live ++ [value] := by
  intro run capacity
  have succ : ∀ n, run (n + 1) = (run n).next := fun n => Function.iterate_succ_apply' _ _ _
  have bounded : ∀ n, (run n).core.Bounded capacity := bounded_iterate program settings
  refine ⟨fun n address => globals_iterate n address, fun n address value saved => ?_,
    fun n fetching succeeds op => ?_, fun n i changed => ?_, ?_⟩
  · rw [succ]
    obtain ⟨inside, pops⟩ := gstore_pops saved
    exact ⟨Nat.lt_of_lt_of_eq inside (bounded n).globalsCapacity, pops⟩
  · rw [succ]
    exact gfetch_iterate succeeds op
  · rw [succ] at changed ⊢
    exact saved_of_changed (bounded n) changed
  · intro i j address value fetching later saved unsaved below running fetched op target
    rw [succ]
    refine fetch_iterate later saved unsaved (fun k lt le => ?_) running fetched op target
    have pointer := below k lt le
    rw [Stack.pointer] at pointer
    show (run k).core.stack.height + address < capacity
    omega

/-- Saves twice to one global and once to the far end of the stack. The callee
returns the global, and its caller fetches the variable after the call. -/
def savedTwice : Program :=
  .ofInstructions #[
    ⟨.const, [.ofNat 5]⟩, ⟨.gstore, [.ofNat 3]⟩, ⟨.const, [.ofNat 6]⟩, ⟨.gstore, [.ofNat 3]⟩,
    ⟨.const, [.ofNat 8]⟩, ⟨.store, [.ofNat 0]⟩, ⟨.call, [.ofNat 9, .ofNat 0]⟩,
    ⟨.fetch, [.ofNat 0]⟩, ⟨.halt, []⟩, ⟨.gfetch, [.ofNat 3]⟩, ⟨.ret, []⟩]

theorem variables_keep_their_values_of_savedTwice :
    let run := fun n => next^[n] (load savedTwice ⟨16, 0, false⟩)
    (run 0).saves .gstore 3 7 = [.ofNat 5, .ofNat 6]
      ∧ (run 8).core.stack.live = (run 7).core.stack.live ++ [.ofNat 6]
      ∧ (run 7).core.depth = 1
      ∧ (run 10).core.stack.live = (run 9).core.stack.live ++ [.ofNat 8] := by
  intro run
  obtain ⟨-, -, globals, -, stack⟩ := variables_keep_their_values savedTwice ⟨16, 0, false⟩
  have saves : (run 0).saves .gstore 3 7 = [.ofNat 5, .ofNat 6] := by decide +kernel
  obtain ⟨address, -, target, global⟩ :=
    globals 7 ⟨.gfetch, [.ofNat 3]⟩ (by decide +kernel) rfl
  have three : Instruction.count? ⟨.gfetch, [.ofNat 3]⟩ 0 = some 3 := by decide +kernel
  obtain rfl := Option.some.inj (three.symm.trans target)
  have unsaved : ∀ k < 9, 5 < k → (run k).saved? .store 0 = none := by decide +kernel
  have below : ∀ k < 10, 5 < k → (run k).core.stack.pointer < (16 : Int) - 0 - 1 := by
    decide +kernel
  obtain ⟨-, fetched⟩ := stack 5 9 0 (.ofNat 8) ⟨.fetch, [.ofNat 0]⟩ (by decide)
    (by decide +kernel) (fun k lt le => unsaved k le lt)
    (fun k lt le => below k (Nat.lt_succ_of_le le) lt) (by decide +kernel) (by decide +kernel) rfl
    (by decide +kernel)
  rw [saves] at global
  exact ⟨saves, global, by decide +kernel, fetched⟩

end Run

end Machine

end StackMachine
