import StackMachine.Proofs.CallReturn
import StackMachine.Proofs.Tracing

/-!
Two machines in lockstep. Their stacks show the same values and may differ above
the top, and the second may have more room than the first. Then every action has
the same result on both and leaves them so related; only where the second has
more room may the first fail for want of it, and the relation names the faults
that are excused by this. No instruction but a fetch looks above the top, and
none but a store and a fetch counts slots from the far end.
-/

namespace StackMachine

namespace Action

/-- Results that agree: the same value or the same fault in related states, or a
first result that is excused. -/
inductive Agree {σ α : Type} (excused : Fault → Prop) (R : σ → σ → Prop) :
    EStateM.Result Fault σ α → EStateM.Result Fault σ α → Prop where
  | ok {a : α} {s t : σ} (related : R s t) : Agree excused R (.ok a s) (.ok a t)
  | error {fault : Fault} {s t : σ} (related : R s t) :
      Agree excused R (.error fault s) (.error fault t)
  | excuse {fault : Fault} {s : σ} {other : EStateM.Result Fault σ α} (allowed : excused fault) :
      Agree excused R (.error fault s) other

variable {σ α β : Type} {excused : Fault → Prop} {R : σ → σ → Prop} {s t : σ}

theorem Agree.bind {x : Action σ α} {f : α → Action σ β} (first : Agree excused R (x s) (x t))
    (rest : ∀ a s' t', R s' t' → x s = .ok a s' → x t = .ok a t' →
      Agree excused R (f a s') (f a t')) :
    Agree excused R ((x >>= f) s) ((x >>= f) t) := by
  generalize left : x s = before, right : x t = after at first
  cases first with
  | ok related =>
    rw [bind_ok left, bind_ok right]
    exact rest _ _ _ related left right
  | error related =>
    rw [bind_error left, bind_error right]
    exact .error related
  | excuse allowed =>
    rw [bind_error left]
    exact .excuse allowed

theorem agree_inspect {look : σ → Except Fault α} (related : R s t) (same : look t = look s) :
    Agree excused R (inspect look s) (inspect look t) := by
  cases found : look s with
  | ok a =>
    rw [inspect_ok found, inspect_ok (same.trans found)]
    exact .ok related
  | error fault =>
    rw [inspect_error found, inspect_error (same.trans found)]
    exact .error related

theorem agree_check {result : Except Fault α} (related : R s t) :
    Agree excused R (check result s) (check result t) :=
  agree_inspect related rfl

end Action

open StackMachine.Action (Agree)

namespace Stack

/-- The second stack shows what the first shows, in the same room or, where want
of room is excused, in more. -/
structure Matches (excused : Fault → Prop) (s t : Stack) : Prop where
  name : t.name = s.name
  height : t.height = s.height
  valid : s.height ≤ s.capacity
  capacity : s.capacity ≤ t.capacity
  excuse : t.capacity ≠ s.capacity → excused (.full s.name) ∧ excused .noRoomForFrame
  shown : ∀ i < s.height, t.cells[i]? = s.cells[i]?

variable {excused : Fault → Prop} {s t : Stack}

namespace Matches

theorem capacity_eq (related : Matches excused s t) (strict : ¬ excused .noRoomForFrame) :
    t.capacity = s.capacity := by
  by_contra differs
  exact strict (related.excuse differs).2

theorem slotValue (related : Matches excused s t) {i : Nat} (lt : i < s.height) :
    t.slotValue i = s.slotValue i := by
  unfold Stack.slotValue
  rw [related.shown i lt, related.name]

theorem peek (related : Matches excused s t) : t.peek = s.peek := by
  rcases Nat.eq_zero_or_pos s.height with empty | pos
  · rw [peek_of_empty empty, peek_of_empty (related.height.trans empty), related.name]
  · rw [peek_of_pos pos, peek_of_pos (related.height ▸ pos), related.height]
    exact related.slotValue (by omega)

theorem live (related : Matches excused s t) : t.live = s.live := by
  have same := live_lowered_congr related.shown
  rwa [lowered_self, ← related.height, lowered_self] at same

theorem lowered (related : Matches excused s t) {height : Nat} (le : height ≤ s.height) :
    Matches excused (s.lowered height) (t.lowered height) where
  name := related.name
  height := rfl
  valid := Nat.le_trans le related.valid
  capacity := related.capacity
  excuse := related.excuse
  shown i lt := related.shown i (Nat.lt_of_lt_of_le lt le)

theorem pushed (related : Matches excused s t) (value : Value) (room : s.height < s.capacity) :
    Matches excused (s.pushed value) (t.pushed value) where
  name := related.name
  height := congrArg (· + 1) related.height
  valid := by
    rw [pushed_capacity]
    exact room
  capacity := by
    rw [pushed_capacity, pushed_capacity]
    exact related.capacity
  excuse := by
    rw [pushed_capacity, pushed_capacity]
    exact related.excuse
  shown i lt := by
    rw [pushed_height] at lt
    by_cases top : i = s.height
    · have space : t.height < t.capacity := by
        rw [related.height]
        exact Nat.lt_of_lt_of_le room related.capacity
      rw [top, pushed_cells_self value room, ← related.height, pushed_cells_self value space]
    · rw [pushed_cells_of_ne value top, pushed_cells_of_ne value (related.height ▸ top)]
      exact related.shown i (by omega)

theorem agree_push (related : Matches excused s t) (value : Value) :
    Agree excused (Matches excused) (push value s) (push value t) := by
  have height := related.height
  have capacity := related.capacity
  by_cases room : s.height < s.capacity
  · rw [push_of_lt value room, push_of_lt value (by omega)]
    exact .ok (related.pushed value room)
  · rw [push_of_le value (by omega)]
    by_cases same : t.capacity = s.capacity
    · rw [push_of_le value (by omega), related.name]
      exact .error related
    · exact .excuse (related.excuse same).1

theorem agree_pop (related : Matches excused s t) :
    Agree excused (Matches excused) (pop s) (pop t) := by
  have same := related.peek
  cases top : s.peek with
  | ok value =>
    rw [pop_ok top, pop_ok (same.trans top), related.height]
    exact .ok (related.lowered (Nat.sub_le _ _))
  | error fault =>
    rw [pop_error top, pop_error (same.trans top)]
    exact .error related

theorem agree_popTwo (related : Matches excused s t) :
    Agree excused (Matches excused) (popTwo s) (popTwo t) := by
  refine (Action.agree_inspect related ?_).bind fun _ s t related _ _ => ?_
  · rw [requireTwo, requireTwo, related.height, related.name]
  refine related.agree_pop.bind fun right s t related _ _ => ?_
  exact related.agree_pop.bind fun left s t related _ _ => .ok related

theorem agree_popWhole (related : Matches excused s t) (what : String) :
    Agree excused (Matches excused) (popWhole what s) (popWhole what t) :=
  related.agree_pop.bind fun _ _ _ related _ _ => Action.agree_check related

theorem agree_drop (related : Matches excused s t) (count : Nat) :
    Agree excused (Matches excused) (drop count s) (drop count t) := by
  induction count generalizing s t with
  | zero => exact .ok related
  | succ count ih => exact related.agree_pop.bind fun _ s t related _ _ => ih related

theorem agree_setPointer (related : Matches excused s t) {frame : Nat} (below : frame < s.height) :
    Agree excused (Matches excused) (setPointer frame s) (setPointer frame t) := by
  have inside : frame < s.capacity := Nat.lt_of_lt_of_le below related.valid
  have inside' : frame < t.capacity := Nat.lt_of_lt_of_le inside related.capacity
  -- the top is only moved down, so no slot above it comes back to life
  have moved : setPointer frame s = .ok () (s.lowered (frame + 1)) :=
    setPointer_eq_ok.2 ⟨inside, rfl⟩
  have moved' : setPointer frame t = .ok () (t.lowered (frame + 1)) :=
    setPointer_eq_ok.2 ⟨inside', rfl⟩
  rw [moved, moved']
  exact .ok (related.lowered below)

theorem agree_unwind (related : Matches excused s t) {frame : Nat} (above : frame + 1 < s.height) :
    Agree excused (Matches excused) (unwind frame s) (unwind frame t) := by
  refine related.agree_pop.bind fun result s' t' related popped _ => ?_
  obtain ⟨-, rfl⟩ := pop_eq_ok.1 popped
  have below : frame < (s.lowered (s.height - 1)).height := by
    rw [lowered_height]
    omega
  refine (related.agree_setPointer below).bind fun _ s t related _ _ => ?_
  refine (related.agree_popWhole _).bind fun site s t related _ _ => ?_
  refine (related.agree_popWhole _).bind fun caller s t related _ _ => ?_
  refine (related.agree_popWhole _).bind fun count s t related _ _ => ?_
  refine (related.agree_drop count).bind fun _ s t related _ _ => ?_
  exact (related.agree_push result).bind fun _ s t related _ _ => .ok related

theorem agree_pushHeader (related : Matches excused s t) (count caller site : Nat) :
    Agree excused (Matches excused) (pushHeader count caller site s)
      (pushHeader count caller site t) := by
  refine (related.agree_push _).bind fun _ s t related _ _ => ?_
  refine (related.agree_push _).bind fun _ s t related _ _ => ?_
  exact related.agree_push _

section SameRoom

variable (same : t.capacity = s.capacity)

include same

theorem slot (related : Matches excused s t) (address : Value) :
    t.slot address = s.slot address := by
  unfold Stack.slot
  rw [same, related.name]

theorem agree_writeSlot (related : Matches excused s t) (i : Nat) (value : Value) :
    Agree excused (Matches excused) (writeSlot i value s) (writeSlot i value t) := by
  by_cases inside : i < s.capacity
  · have inside' : i < t.capacity := same ▸ inside
    rw [writeSlot_of_lt value inside, writeSlot_of_lt value inside']
    have size : ∀ u : Stack, ({ u with cells := u.cells.setIfInBounds i value } : Stack).capacity
        = u.capacity := fun u => Array.size_setIfInBounds
    refine .ok ⟨related.name, related.height, ?_, ?_, ?_, fun j lt => ?_⟩
    · rw [size]
      exact related.valid
    · rw [size, size]
      exact related.capacity
    · rw [size, size]
      exact related.excuse
    · by_cases written : i = j
      · subst written
        rw [Array.getElem?_setIfInBounds_self_of_lt inside,
          Array.getElem?_setIfInBounds_self_of_lt inside']
      · rw [Array.getElem?_setIfInBounds_ne written, Array.getElem?_setIfInBounds_ne written]
        exact related.shown j lt
  · rw [writeSlot, writeSlot, if_neg inside, if_neg (same ▸ inside), related.name]
    exact .error related

theorem agree_store (related : Matches excused s t) (address : Value) :
    Agree excused (Matches excused) (store address s) (store address t) := by
  refine (Action.agree_inspect related (related.slot same address)).bind
    fun i s' t' related found found' => ?_
  obtain ⟨-, rfl⟩ := Action.inspect_eq_ok.1 found
  obtain ⟨-, rfl⟩ := Action.inspect_eq_ok.1 found'
  refine related.agree_pop.bind fun value s t related popped popped' => ?_
  obtain ⟨-, rfl⟩ := pop_eq_ok.1 popped
  obtain ⟨-, rfl⟩ := pop_eq_ok.1 popped'
  have same : (t'.lowered (t'.height - 1)).capacity = (s'.lowered (s'.height - 1)).capacity := same
  exact (related.agree_writeSlot same i value).bind fun _ s t related _ _ => .ok related

theorem agree_fetch (related : Matches excused s t) (address : Value)
    (shows : ∀ i, s.slot address = .ok i → i < s.height) :
    Agree excused (Matches excused) (fetch address s) (fetch address t) := by
  have content : t.read address = s.read address := by
    unfold read
    rw [related.slot same address]
    cases place : s.slot address with
    | ok i => exact related.slotValue (shows i place)
    | error fault => rfl
  refine (Action.agree_inspect related content).bind fun value s t related _ _ => ?_
  exact (related.agree_push value).bind fun _ s t related _ _ => .ok related

end SameRoom

end Matches

end Stack

namespace Core

def fetchedSlot? (core : Core) (instruction : Instruction) : Option Nat :=
  match instruction.opcode with
  | .fetch => (instruction.operand 0).toOption.bind fun address =>
      (core.stack.slot address).toOption
  | _ => none

structure Matches (excused : Fault → Prop) (c d : Core) : Prop where
  ip : d.ip = c.ip
  fp : d.fp = c.fp
  depth : d.depth = c.depth
  stack : Stack.Matches excused c.stack d.stack
  globals : d.globals = c.globals

variable {excused : Fault → Prop} {c d : Core} {α : Type}

namespace Matches

theorem agree_onStack (related : Matches excused c d) {action : Action Stack α}
    (agree : Agree excused (Stack.Matches excused) (action c.stack) (action d.stack)) :
    Agree excused (Matches excused) (onStack action c) (onStack action d) := by
  obtain ⟨ip, fp, depth, -, globals⟩ := related
  generalize left : action c.stack = before, right : action d.stack = after at agree
  cases agree with
  | ok stack =>
    rw [onStack_ok left, onStack_ok right]
    exact .ok ⟨ip, fp, depth, stack, globals⟩
  | error stack =>
    rw [onStack_error left, onStack_error right]
    exact .error ⟨ip, fp, depth, stack, globals⟩
  | excuse allowed =>
    rw [onStack_error left]
    exact .excuse allowed

theorem agree_onGlobals (related : Matches excused c d) (action : Action Stack α) :
    Agree excused (Matches excused) (onGlobals action c) (onGlobals action d) := by
  obtain ⟨ip, fp, depth, stack, globals⟩ := related
  cases left : action c.globals with
  | ok a after =>
    rw [onGlobals_ok left, onGlobals_ok (globals ▸ left)]
    exact .ok ⟨ip, fp, depth, stack, rfl⟩
  | error fault after =>
    rw [onGlobals_error left, onGlobals_error (globals ▸ left)]
    exact .error ⟨ip, fp, depth, stack, rfl⟩

theorem agree_setFrame (related : Matches excused c d) {change : Core → Nat × Nat}
    (same : change d = change c) :
    Agree excused (Matches excused) (setFrame change c) (setFrame change d) := by
  unfold setFrame
  rw [same]
  exact .ok ⟨related.ip, rfl, rfl, related.stack, related.globals⟩

theorem agree_push (related : Matches excused c d) (value : Value) (effect : Effect) :
    Agree excused (Matches excused)
      ((do onStack (Stack.push value); return effect : Action Core Effect) c)
      ((do onStack (Stack.push value); return effect : Action Core Effect) d) :=
  (related.agree_onStack (related.stack.agree_push value)).bind fun _ _ _ related _ _ => .ok related

theorem agree_gstore (related : Matches excused c d) (address : Value) :
    Agree excused (Matches excused) (gstore address c) (gstore address d) := by
  refine (Action.agree_inspect related ?_).bind fun _ c d related _ _ => ?_
  · rw [related.globals]
  refine (related.agree_onStack related.stack.agree_pop).bind fun value c d related _ _ => ?_
  exact (related.agree_onGlobals _).bind fun _ c d related _ _ => .ok related

theorem agree_gfetch (related : Matches excused c d) (address : Value) :
    Agree excused (Matches excused) (gfetch address c) (gfetch address d) := by
  refine (Action.agree_inspect related ?_).bind fun value c d related _ _ => ?_
  · rw [related.globals]
  exact related.agree_push value _

theorem agree_binary (related : Matches excused c d) (operator : Operator) :
    Agree excused (Matches excused) (binary operator c) (binary operator d) := by
  refine (related.agree_onStack related.stack.agree_popTwo).bind
    fun operands c d related _ _ => ?_
  obtain ⟨left, right⟩ := operands
  refine (Action.agree_check related).bind fun value c d related _ _ => ?_
  exact related.agree_push value _

theorem agree_branch (related : Matches excused c d) (relation : Relation) (operand : Value) :
    Agree excused (Matches excused) (branch relation operand c) (branch relation operand d) := by
  refine (Action.agree_check related).bind fun target c d related _ _ => ?_
  refine (related.agree_onStack related.stack.agree_popTwo).bind
    fun operands c d related _ _ => ?_
  obtain ⟨next, top⟩ := operands
  refine (Action.agree_check related).bind fun taken c d related _ _ => ?_
  cases taken <;> exact .ok related

theorem agree_callSite (related : Matches excused c d) (count : Nat) :
    Agree excused (Matches excused) (Action.inspect (callSite count) c)
      (Action.inspect (callSite count) d) := by
  have height := related.stack.height
  by_cases same : d.stack.capacity = c.stack.capacity
  · refine Action.agree_inspect related ?_
    rw [callSite, callSite, height, same, related.fp, related.ip]
  · have more := related.stack.capacity
    by_cases full : count ≤ c.stack.height ∧ c.stack.capacity < c.stack.height + 3
    · have refused : callSite count c = .error .noRoomForFrame := by
        rw [callSite, if_neg (Nat.not_lt.2 full.1), if_pos full.2]
      rw [Action.inspect_error refused]
      exact .excuse (related.stack.excuse same).2
    · refine Action.agree_inspect related ?_
      rw [callSite, callSite, height, related.fp, related.ip]
      by_cases few : c.stack.height < count
      · rw [if_pos few, if_pos few]
      · have room : ¬ c.stack.capacity < c.stack.height + 3 := by omega
        have space : ¬ d.stack.capacity < c.stack.height + 3 := by omega
        rw [if_neg few, if_neg few, if_neg room, if_neg space]

theorem agree_call (related : Matches excused c d) (target count : Nat) :
    Agree excused (Matches excused) (call target count c) (call target count d) := by
  refine (related.agree_callSite count).bind fun place c d related _ _ => ?_
  obtain ⟨caller, site⟩ := place
  refine (related.agree_onStack (related.stack.agree_pushHeader count caller site)).bind
    fun _ c d related _ _ => ?_
  refine (related.agree_setFrame ?_).bind fun _ c d related _ _ => .ok related
  rw [related.stack.height, related.depth]

theorem agree_ret (related : Matches excused c d) :
    Agree excused (Matches excused) (ret c) (ret d) := by
  refine (Action.agree_inspect related ?_).bind fun frame c' d' related opened opened' => ?_
  · rw [openFrame, openFrame, Stack.pointer, Stack.pointer, related.depth, related.stack.height,
      related.fp]
  obtain ⟨opened, rfl⟩ := Action.inspect_eq_ok.1 opened
  obtain ⟨-, rfl⟩ := Action.inspect_eq_ok.1 opened'
  obtain ⟨-, above, rfl⟩ := openFrame_eq_ok.1 opened
  refine (related.agree_onStack (related.stack.agree_unwind above)).bind
    fun place c d related _ _ => ?_
  obtain ⟨site, caller⟩ := place
  refine (related.agree_setFrame ?_).bind fun _ c d related _ _ => ?_
  · rw [related.depth]
  split
  · exact .ok related
  · exact .error related

theorem agree_print (related : Matches excused c d) :
    Agree excused (Matches excused) (print c) (print d) := by
  refine (Action.agree_inspect related ?_).bind fun value c d related _ _ => .ok related
  exact related.stack.peek

theorem agree_operand (related : Matches excused c d) {instruction : Instruction}
    {run : Value → Action Core Effect}
    (agree : ∀ value, instruction.operand 0 = .ok value →
      Agree excused (Matches excused) (run value c) (run value d)) :
    Agree excused (Matches excused) ((Action.check (instruction.operand 0) >>= run) c)
      ((Action.check (instruction.operand 0) >>= run) d) := by
  refine (Action.agree_check related).bind fun value c' d' related found found' => ?_
  obtain ⟨operand, rfl⟩ := Action.check_eq_ok.1 found
  obtain ⟨-, rfl⟩ := Action.check_eq_ok.1 found'
  exact agree value operand

/-- One instruction on two cores. Where slots are counted from the far end the
stacks have to be equally large, and what is fetched has to be live. -/
theorem agree_perform (related : Matches excused c d) (instruction : Instruction)
    (addressing : instruction.opcode = .store ∨ instruction.opcode = .fetch →
      ¬ excused .noRoomForFrame)
    (shows : ∀ i ∈ c.fetchedSlot? instruction, i < c.stack.height) :
    Agree excused (Matches excused) (perform instruction c) (perform instruction d) := by
  unfold perform
  cases op : instruction.opcode with
  | halt => exact .ok related
  | const => exact related.agree_operand fun value _ => related.agree_push value _
  | store =>
    have same := related.stack.capacity_eq (addressing (.inl op))
    refine related.agree_operand fun address _ => ?_
    exact (related.agree_onStack (related.stack.agree_store same address)).bind
      fun _ c d related _ _ => .ok related
  | fetch =>
    have same := related.stack.capacity_eq (addressing (.inr op))
    refine related.agree_operand fun address found => ?_
    refine (related.agree_onStack ?_).bind fun _ c d related _ _ => .ok related
    refine related.stack.agree_fetch same address fun i place => shows i ?_
    simp only [fetchedSlot?, op, found, place, Except.toOption, Option.bind_some, Option.mem_def]
  | gstore => exact related.agree_operand fun address _ => related.agree_gstore address
  | gfetch => exact related.agree_operand fun address _ => related.agree_gfetch address
  | pop =>
    exact (related.agree_onStack related.stack.agree_pop).bind fun _ c d related _ _ => .ok related
  | binary operator => exact related.agree_binary operator
  | branch relation =>
    exact related.agree_operand fun place _ => related.agree_branch relation place
  | goto =>
    refine related.agree_operand fun place _ => ?_
    exact (Action.agree_check related).bind fun target c d related _ _ => .ok related
  | call =>
    refine (Action.agree_check related).bind fun target c d related _ _ => ?_
    refine (Action.agree_check related).bind fun count c d related _ _ => ?_
    exact related.agree_call target count
  | ret => exact related.agree_ret
  | print => exact related.agree_print

end Matches

end Core

namespace Machine

def FetchesLive (m : Machine) : Prop :=
  m.status = .running → ∀ instruction ∈ m.fetched?,
    ∀ i ∈ m.core.fetchedSlot? instruction, (i : Int) ≤ m.core.stack.pointer

instance (m : Machine) : Decidable m.FetchesLive :=
  inferInstanceAs (Decidable (_ → ∀ instruction ∈ m.fetched?,
    ∀ i ∈ m.core.fetchedSlot? instruction, (i : Int) ≤ m.core.stack.pointer))

/-- What lockstep asks of a step of the first machine: it does not look where
the stacks may differ, and it does not fail with an excuse. -/
structure Steady (excused : Fault → Prop) (m : Machine) : Prop where
  addressing : ∀ instruction ∈ m.fetched?,
    instruction.opcode = .store ∨ instruction.opcode = .fetch → ¬ excused .noRoomForFrame
  shows : m.FetchesLive
  strict : ∀ error, m.outcome = .error error → ¬ excused error.fault

structure Matches (excused : Fault → Prop) (m n : Machine) : Prop where
  program : n.program = m.program
  tracing : n.tracing = m.tracing
  core : Core.Matches excused m.core n.core
  status : n.status = m.status
  waiting : n.waiting = m.waiting

variable {excused : Fault → Prop} {m n : Machine}

namespace Matches

theorem fetched (related : Matches excused m n) : n.fetched? = m.fetched? := by
  rw [fetched?, fetched?, related.program, related.core.ip]

theorem outputs {s t : Stack} (related : Stack.Matches excused s t) (tracing : Bool)
    (address : Nat) (instruction : Instruction) (effect : Effect) :
    outputs tracing address instruction effect t
      = Machine.outputs tracing address instruction effect s := by
  simp only [Machine.outputs, traceLine, Stack.quoted, Stack.pointer, related.peek, related.live,
    related.height]

theorem continueWith (related : Matches excused m n) (instruction : Instruction)
    (effect : Effect) {c d : Core} (core : Core.Matches excused c d) :
    Matches excused (m.continueWith instruction effect c)
      (n.continueWith instruction effect d) where
  program := related.program
  tracing := related.tracing
  core := by
    refine ⟨?_, core.fp, core.depth, core.stack, core.globals⟩
    simp only [Machine.continueWith, related.core.ip]
  status := rfl
  waiting := by
    simp only [Machine.continueWith, related.waiting, related.tracing, related.core.ip,
      outputs core.stack]

theorem step (related : Matches excused m n) (steady : m.Steady excused) :
    n.outcome = m.outcome ∧ Matches excused m.next n.next := by
  have strict := steady.strict
  unfold outcome next at *
  by_cases running : m.status = .running
  · have running' : n.status = .running := related.status.trans running
    cases fetched : m.fetched? with
    | none =>
      rw [step_of_end running fetched, step_of_end running' (related.fetched.trans fetched)]
      exact ⟨rfl, related.program, related.tracing, related.core, rfl, related.waiting⟩
    | some instruction =>
      have fetched' := related.fetched.trans fetched
      have shows : ∀ i ∈ m.core.fetchedSlot? instruction, i < m.core.stack.height := by
        intro i slot
        have live := steady.shows running instruction fetched i slot
        rw [Stack.pointer] at live
        omega
      have agree := related.core.agree_perform instruction
        (steady.addressing instruction fetched) shows
      generalize performed : Core.perform instruction m.core = left,
        performed' : Core.perform instruction n.core = right at agree
      cases agree with
      | ok core =>
        rw [step_of_ok running fetched performed, step_of_ok running' fetched' performed']
        exact ⟨rfl, related.continueWith instruction _ core⟩
      | error core =>
        rw [step_of_error running fetched performed, step_of_error running' fetched' performed',
          related.core.ip]
        exact ⟨rfl, related.program, related.tracing, core, rfl, related.waiting⟩
      | excuse allowed =>
        rw [step_of_error running fetched performed] at strict
        exact absurd allowed (strict _ rfl)
  · have rest : n.status ≠ .running := related.status ▸ running
    rw [step_of_not_running running, step_of_not_running rest]
    exact ⟨rfl, related⟩

theorem iterate (related : Matches excused m n) {steps : Nat}
    (steady : ∀ k < steps, (next^[k] m).Steady excused) :
    (∀ k < steps, (next^[k] n).outcome = (next^[k] m).outcome)
      ∧ Matches excused (next^[steps] m) (next^[steps] n) := by
  induction steps with
  | zero => exact ⟨nofun, related⟩
  | succ steps ih =>
    obtain ⟨outcomes, matched⟩ := ih fun k lt => steady k (Nat.lt_succ_of_lt lt)
    obtain ⟨outcome, matched'⟩ := matched.step (steady steps (Nat.lt_succ_self steps))
    rw [Function.iterate_succ_apply', Function.iterate_succ_apply']
    refine ⟨fun k lt => ?_, matched'⟩
    obtain lt | rfl := Nat.lt_succ_iff_lt_or_eq.1 lt
    · exact outcomes k lt
    · exact outcome

end Matches

end Machine

end StackMachine
