import StackMachine.Proofs.Bounds
import StackMachine.Proofs.Histories

/-!
No machine leaves its arrays, however its program treats the frames and however
it is driven. `Sound` says of a core that nothing an instruction does to it goes
wrong; it holds of every core that is reached, and at every instruction that is
executed. The number of open calls is that of the calls less the returns.
-/

namespace StackMachine

namespace Stack

/-- Every index that an operation takes lies inside of the array. -/
structure Indexed (s : Stack) : Prop where
  live : s.height ≤ s.cells.size
  top : 0 < s.height → s.height - 1 < s.cells.size
  room : s.isFull = false → s.height < s.cells.size
  slot : ∀ address index, s.slot address = .ok index → index < s.cells.size

theorem Valid.indexed {s : Stack} (valid : s.Valid) : s.Indexed where
  live := valid
  top pos := by
    have bound : s.height ≤ s.cells.size := valid
    omega
  room free := Nat.lt_of_not_le (of_decide_eq_false free)
  slot address index place := slot_lt place

end Stack

namespace Core

/-- Nothing goes wrong here: the registers fit, every index lies inside of its
array, so that no instruction raises the fault of an array, and what was checked
before is not refused later. -/
structure Sound (stackSize : Nat) (core : Core) : Prop where
  capacity : core.stack.capacity = stackSize
  pointer : -1 ≤ core.stack.pointer ∧ core.stack.pointer < core.stack.capacity
  globalsCapacity : core.globals.capacity = 512
  globalsPointer : core.globals.pointer = -1
  frame : core.fp < 2 ^ 63
  width : core.stack.height + 3 < 2 ^ 64
  stack : core.stack.Indexed
  globals : core.globals.Indexed
  inside : ∀ instruction name index after,
    perform instruction core ≠ .error (.slotOutside name index) after
  deep : ∀ instruction effect after, perform instruction core = .ok effect after →
    instruction.opcode = .ret → core.depth = after.depth + 1
  result : ∀ pair value later, onStack Stack.popTwo core = .ok pair later →
    ∃ after, onStack (Stack.push value) later = .ok () after
  header : ∀ count caller site, callSite count core = .ok (caller, site) →
    ∃ after, onStack (Stack.pushHeader count caller site) core = .ok () after
  global : ∀ address index value later, core.globals.slot address = .ok index →
    onStack Stack.pop core = .ok value later →
      ∃ after, onGlobals (Stack.write address value) later = .ok () after

variable {stackSize : Nat} {core after : Core} {instruction : Instruction}

theorem Executes.depth {effect : Effect} (h : Executes core instruction effect after) :
    after.depth + (if instruction.opcode = .ret then 1 else 0)
      = core.depth + if instruction.opcode = .call then 1 else 0 := by
  cases h with
  | call op => simp [op, called]
  | ret op deep =>
    have one_less : core.depth - 1 + 1 = core.depth := Nat.sub_add_cancel deep
    simpa [op, returned] using one_less
  | _ op => simp [op]

theorem Fails.depth {fault : Fault} (h : Fails core instruction fault after) :
    after.depth = core.depth := by
  cases h <;> rfl

theorem Fails.inside {fault : Fault} (h : Fails core instruction fault after) : fault.Inside := by
  cases h with
  | early inside => exact inside
  | mismatch op two => trivial
  | unwinding op opened inside lower => exact inside

theorem Bounded.sound (bounded : core.Bounded stackSize) (size : stackSize < 2 ^ 63) :
    core.Sound stackSize := by
  have valid : core.stack.height ≤ core.stack.capacity := bounded.valid
  have capacity := bounded.capacity
  have empty : core.globals.Valid := by
    unfold Stack.Valid
    rw [bounded.globalsHeight]
    exact Nat.zero_le _
  exact {
    capacity := capacity
    pointer := by unfold Stack.pointer; omega
    globalsCapacity := bounded.globalsCapacity
    globalsPointer := by rw [Stack.pointer, bounded.globalsHeight]; rfl
    frame := by
      have small : Number.wholeLimit < 2 ^ 63 := by decide
      have frame := bounded.frame
      omega
    width := by omega
    stack := bounded.valid.indexed
    globals := empty.indexed
    inside := fun instruction name index after failed =>
      (fails_of_perform bounded.valid failed).inside
    deep := by
      intro instruction effect after performed op
      have depth := (executes_of_perform performed).depth
      simpa [op] using depth.symm
    result := by
      intro ⟨left, right⟩ value later popped
      obtain ⟨t, two, rfl⟩ := onStack_eq_ok.1 popped
      obtain ⟨enough, -, -, rfl⟩ := Stack.popTwo_eq_ok.1 two
      have room : core.stack.height - 2 < core.stack.capacity := by omega
      exact ⟨_, onStack_ok (Stack.push_of_lt value room)⟩
    header := by
      intro count caller site found
      obtain ⟨-, room, -, -⟩ := callSite_eq_ok.1 found
      exact ⟨_, onStack_ok ((Stack.pushHeader_eq_ok room).2 rfl)⟩
    global := by
      intro address index value later place popped
      obtain ⟨t, -, rfl⟩ := onStack_eq_ok.1 popped
      exact ⟨_, onGlobals_ok (Stack.write_of_slot value place)⟩ }

end Core

namespace Executed

def succeeds (opcode : Opcode) (e : Executed) : Bool :=
  e.instruction.opcode = opcode ∧ e.error? = none

def Balanced (log : List Executed) (depth : Nat) : Prop :=
  depth + log.countP (succeeds .ret) = log.countP (succeeds .call)

theorem Balanced.le_length {log : List Executed} {depth : Nat} (balanced : Balanced log depth) :
    depth ≤ log.length := by
  have calls : log.countP (succeeds .call) ≤ log.length := List.countP_le_length
  unfold Balanced at balanced
  omega

end Executed

namespace Machine

theorem Moves.depth {stackSize : Nat} {m after : Machine} (bounded : m.core.Bounded stackSize)
    (h : Moves m after) :
    after.core.depth + m.executing?.toList.countP (Executed.succeeds .ret)
      = m.core.depth + m.executing?.toList.countP (Executed.succeeds .call) := by
  cases h with
  | idle rest =>
    rw [executing?_of_rest rest]
    rfl
  | ended running past =>
    rw [executing?_of_running running, past]
    rfl
  | @failed instruction fault core running fetched performed =>
    have same := (Core.fails_of_perform bounded.valid performed).depth
    rw [executing?_of_running running, fetched]
    simp [Executed.succeeds, Executed.error?, performed, same]
  | @done instruction effect core running fetched performed =>
    have depth := (Core.executes_of_perform performed).depth
    rw [executing?_of_running running, fetched]
    simpa [continueWith, Executed.succeeds, Executed.error?, performed, List.countP_cons] using depth

end Machine

namespace History

/-- What every history keeps, interrupted or not. -/
structure Secure (program : Program) (stackSize : Nat) (h : History) : Prop where
  loaded : h.machine.program = program
  bounded : h.machine.core.Bounded stackSize
  balanced : Executed.Balanced h.executed h.machine.core.depth
  entries : ∀ before e after, h.executed = before ++ e :: after →
    e.core.Bounded stackSize ∧ program.instructions[e.core.ip]? = some e.instruction
      ∧ Executed.Balanced before e.core.depth

variable {program : Program} {settings : Settings} {stackSize : Nat} {h : History}

theorem secure_start : (start program settings).Secure program settings.stackSize where
  loaded := rfl
  bounded := Core.bounded_start settings.stackSize settings.entry
  balanced := rfl
  entries before e after split := by simp [start] at split

namespace Secure

theorem same (secure : h.Secure program stackSize) {m : Machine} (events : List Event)
    (loaded : m.program = h.machine.program) (core : m.core = h.machine.core) :
    Secure program stackSize ⟨m, h.executed, events⟩ where
  loaded := loaded.trans secure.loaded
  bounded := core ▸ secure.bounded
  balanced := core ▸ secure.balanced
  entries := secure.entries

theorem step (secure : h.Secure program stackSize) : h.step.Secure program stackSize := by
  have moves := h.machine.moves_next
  refine ⟨moves.program.trans secure.loaded, moves.bounded secure.bounded, ?_, ?_⟩
  · have depth := moves.depth secure.bounded
    have balanced := secure.balanced
    unfold Executed.Balanced at balanced ⊢
    simp only [History.step, List.countP_append]
    omega
  · intro before e after split
    simp only [History.step] at split
    cases executing : h.machine.executing? with
    | none =>
      rw [executing, Option.toList_none, List.append_nil] at split
      exact secure.entries before e after split
    | some last =>
      rw [executing, Option.toList_some] at split
      obtain ⟨running, fetched, core⟩ := Machine.executing?_eq_some.1 executing
      -- the entry is the new one, or it was there before
      rcases List.eq_nil_or_concat after with rfl | ⟨rest, final, rfl⟩
      · obtain ⟨rfl, tail⟩ := List.append_inj' split rfl
        obtain rfl := List.singleton_inj.1 tail
        rw [core]
        refine ⟨secure.bounded, ?_, secure.balanced⟩
        rw [← secure.loaded]
        exact fetched
      · rw [List.concat_eq_append, ← List.cons_append, ← List.append_assoc] at split
        exact secure.entries before e rest (List.append_inj' split rfl).1

theorem iterate (secure : h.Secure program stackSize) (n : Nat) :
    Secure program stackSize
      ⟨Machine.next^[n] h.machine, h.executed ++ h.machine.executed n, h.events⟩ := by
  induction n with
  | zero =>
    rw [Machine.executed, List.append_nil]
    exact secure
  | succ n ih =>
    rw [Machine.executed_succ, Function.iterate_succ_apply', ← List.append_assoc]
    exact ih.step

theorem bursts {steps : Nat} {log : List Executed} {event : Event} {after : Machine}
    (secure : h.Secure program stackSize) (taken : Machine.Bursts steps h.machine log event after) :
    Secure program stackSize ⟨after, h.executed ++ log, h.events ++ [event]⟩ := by
  cases taken with
  | returns waits =>
    rw [List.append_nil]
    exact secure.same _ rfl rfl
  | breaks empty asked running =>
    rw [List.append_nil]
    exact secure.same _ rfl rfl
  | nothing empty zero =>
    rw [List.append_nil]
    exact secure.same _ rfl rfl
  | advances empty calm advanced =>
    have dropped : Secure program stackSize
        ⟨{ h.machine with interrupted := false }, h.executed, h.events⟩ := secure.same _ rfl rfl
    cases advanced with
    | spent clean running silent => exact (dropped.iterate steps).same _ rfl rfl
    | shows le clean fresh => exact (dropped.iterate _).same _ rfl rfl
    | stops le clean rest silent => exact (dropped.iterate _).same _ rfl rfl
    | @fails n e error lt clean silent executing failed =>
      rw [← Machine.executed_concat executing]
      exact (dropped.iterate (n + 1)).same _ rfl rfl

end Secure

theorem secure_of (controls : List Control) :
    (of program settings controls).Secure program settings.stackSize := by
  refine holds_of_kept_by_controls secure_start (fun h secure => secure.step)
    (fun steps h secure => ?_) fun _ h secure => secure.same _ rfl rfl
  rw [burst_eq]
  exact secure.bursts (Machine.bursts_burst steps h.machine)

end History

namespace Machine

/-- However it is driven and whatever its program does, a machine is sound where
it stands, and was sound at every instruction it has executed. -/
theorem sound_of_driven (program : Program) (settings : Settings) (controls : List Control)
    (size : settings.stackSize < 2 ^ 63)
    (few : (History.of program settings controls).executed.length < 2 ^ 64) :
    let m := (load program settings).obeyAll controls
    let executed := (History.of program settings controls).executed
    (History.of program settings controls).machine = m
      ∧ m.core.Sound settings.stackSize
      ∧ m.core.depth + executed.countP (Executed.succeeds .ret)
        = executed.countP (Executed.succeeds .call)
      ∧ m.core.depth < 2 ^ 64
      ∧ ∀ before e after, executed = before ++ e :: after →
        e.core.Sound settings.stackSize ∧ e.core.ip < program.size
          ∧ e.core.depth + before.countP (Executed.succeeds .ret)
            = before.countP (Executed.succeeds .call)
          ∧ e.core.depth + 1 < 2 ^ 64 := by
  intro m executed
  have machine : (History.of program settings controls).machine = m := History.of_machine _ _ _
  have secure : (History.of program settings controls).Secure program settings.stackSize :=
    History.secure_of controls
  obtain ⟨-, bounded, balanced, entries⟩ := secure
  rw [machine] at bounded balanced
  have deep : m.core.depth ≤ executed.length := balanced.le_length
  refine ⟨machine, bounded.sound size, balanced, Nat.lt_of_le_of_lt deep few, ?_⟩
  intro before e after split
  obtain ⟨bounded, fetched, balanced⟩ := entries before e after split
  have inside : e.core.ip < program.size := (Array.getElem?_eq_some_iff.1 fetched).1
  have deep : e.core.depth ≤ before.length := balanced.le_length
  have longer : before.length + 1 ≤ executed.length := by
    rw [split, List.length_append, List.length_cons]
    omega
  have counter : e.core.depth + 1 < 2 ^ 64 :=
    Nat.lt_of_le_of_lt (Nat.le_trans (Nat.succ_le_succ deep) longer) few
  exact ⟨bounded.sound size, inside, balanced, counter⟩

def brokenHeader : Program :=
  .ofInstructions #[
    ⟨.const, [.ofNat 5]⟩, ⟨.call, [.ofNat 3, .ofNat 1]⟩, ⟨.halt, []⟩,
    ⟨.pop, []⟩, ⟨.const, [.ofNat 9]⟩, ⟨.const, [.ofNat 9]⟩, ⟨.ret, []⟩]

/-- The return reads its address from the slot that was overwritten and leaves
the program; an interrupt stops the machine there. -/
theorem sound_of_brokenHeader :
    let controls : List Control :=
      [.burst 3, .interrupt, .step, .step, .step, .burst 0, .burst 1, .run 2]
    let m := (load brokenHeader ⟨16, 0, false⟩).obeyAll controls
    let executed := (History.of brokenHeader ⟨16, 0, false⟩ controls).executed
    executed.length = 6 ∧ m.core.ip = 10 ∧ m.core.depth = 0 ∧ m.core.Sound 16
      ∧ ∀ e ∈ executed, e.core.Sound 16 := by
  intro controls m executed
  obtain ⟨-, sound, -, -, entries⟩ := sound_of_driven brokenHeader ⟨16, 0, false⟩ controls
    (by decide) (by decide +kernel)
  refine ⟨by decide +kernel, by decide +kernel, by decide +kernel, sound, fun e mem => ?_⟩
  obtain ⟨before, after, split⟩ := List.append_of_mem mem
  exact (entries before e after split).1

end Machine

end StackMachine
