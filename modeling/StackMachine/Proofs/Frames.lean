import StackMachine.Proofs.Bounds
import StackMachine.Proofs.Footprint

/-!
The frames of the open calls form a chain in the stack. Each frame is known by
the slot of its call address; the slot below holds the caller's frame, and the
slot below that the number of arguments. Steps that respect their frame keep
the chain: a call adds a frame at its front, a return takes the front away, and
every other step leaves all frames and all that lies below them alone.
-/

namespace StackMachine

def Program.CallsAt (program : Program) (address : Nat) : Prop :=
  ∃ instruction, program.instructions[address]? = some instruction ∧ instruction.opcode = .call

theorem Program.CallsAt.lt {program : Program} {address : Nat} (h : program.CallsAt address) :
    address < program.size := by
  obtain ⟨instruction, found, -⟩ := h
  exact (Array.getElem?_eq_some_iff.1 found).1

namespace Stack

/-- The frames met on the way from `fp` through the callers' frames down to zero. -/
def Linked (s : Stack) : Nat → List Nat → Prop
  | fp, [] => fp = 0
  | fp, frame :: callers =>
      frame = fp ∧ ∃ caller, s.cells[fp - 1]? = some (.ofNat caller) ∧ s.Linked caller callers

/-- Three slots that end in `frame`: a number of arguments that fits below them,
and on top the address of a call. -/
structure Header (program : Program) (s : Stack) (frame : Nat) : Prop where
  room : 2 ≤ frame
  site : ∃ site, s.cells[frame]? = some (.ofNat site) ∧ program.CallsAt site
  count : ∃ count, s.cells[frame - 2]? = some (.ofNat count) ∧ count ≤ frame - 2

end Stack

/-- The frames from `fp` on, innermost first. A frame's arguments lie between
its header and the caller's, so they are gone before the caller's is reached. -/
inductive Chain (program : Program) (cells : Array Value) : Nat → List Nat → Prop where
  | outside : Chain program cells 0 []
  | frame {fp caller count site : Nat} {callers : List Nat}
      (link : Chain program cells caller callers)
      (siteSlot : cells[fp]? = some (.ofNat site)) (calls : program.CallsAt site)
      (callerSlot : cells[fp - 1]? = some (.ofNat caller))
      (countSlot : cells[fp - 2]? = some (.ofNat count)) (enough : count + 2 ≤ fp)
      (apart : callers ≠ [] → caller + count + 3 ≤ fp) :
      Chain program cells fp (fp :: callers)

namespace Chain

variable {program : Program} {cells cells' : Array Value} {fp : Nat} {frames : List Nat}

theorem eq_zero (chain : Chain program cells fp []) : fp = 0 := by
  cases chain
  rfl

theorem le (chain : Chain program cells fp frames) : ∀ frame ∈ frames, frame ≤ fp := by
  induction chain with
  | outside => simp
  | frame link siteSlot calls callerSlot countSlot enough apart ih =>
    intro frame member
    rcases List.mem_cons.1 member with rfl | outer
    · exact Nat.le_refl _
    · have gap := apart (List.ne_nil_of_mem outer)
      have bound := ih frame outer
      omega

theorem congr (chain : Chain program cells fp frames) (agree : ∀ i ≤ fp, cells'[i]? = cells[i]?) :
    Chain program cells' fp frames := by
  induction chain with
  | outside => exact .outside
  | @frame fp caller count site callers link siteSlot calls callerSlot countSlot enough apart ih =>
    have inner : Chain program cells' caller callers := by
      apply ih
      intro i le
      apply agree
      cases link with
      | outside => omega
      | frame => have gap := apart (by simp); omega
    refine .frame inner ?_ calls ?_ ?_ enough apart
    · rw [agree _ (by omega), siteSlot]
    · rw [agree _ (by omega), callerSlot]
    · rw [agree _ (by omega), countSlot]

theorem pairwise (chain : Chain program cells fp frames) :
    frames.Pairwise fun inner outer => outer + 2 < inner := by
  induction chain with
  | outside => exact .nil
  | frame link siteSlot calls callerSlot countSlot enough apart ih =>
    refine .cons (fun outer member => ?_) ih
    have gap := apart (List.ne_nil_of_mem member)
    have bound := link.le outer member
    omega

theorem three_mul_length (chain : Chain program cells fp frames) (nonempty : frames ≠ []) :
    3 * frames.length ≤ fp + 1 := by
  induction chain with
  | outside => exact absurd rfl nonempty
  | frame link siteSlot calls callerSlot countSlot enough apart ih =>
    simp only [List.length_cons]
    cases link with
    | outside => simp only [List.length_nil]; omega
    | frame =>
      have gap := apart (by simp)
      have bound := ih (by simp)
      omega

theorem linked {s : Stack} (chain : Chain program s.cells fp frames) : s.Linked fp frames := by
  induction chain with
  | outside => rfl
  | frame link siteSlot calls callerSlot countSlot enough apart ih =>
    exact ⟨rfl, _, callerSlot, ih⟩

theorem headers {s : Stack} (chain : Chain program s.cells fp frames) :
    ∀ frame ∈ frames, s.Header program frame := by
  induction chain with
  | outside => simp
  | @frame fp caller count site callers link siteSlot calls callerSlot countSlot enough apart ih =>
    intro frame member
    rcases List.mem_cons.1 member with rfl | outer
    · exact ⟨by omega, ⟨site, siteSlot, calls⟩, ⟨count, countSlot, by omega⟩⟩
    · exact ih frame outer

end Chain

inductive Turns : List Nat → List Nat → Prop where
  | stay {frames : List Nat} : Turns frames frames
  | enter {frames : List Nat} (frame : Nat) : Turns frames (frame :: frames)
  | leave {frames : List Nat} (frame : Nat) : Turns (frame :: frames) frames

namespace Core

structure Framed (program : Program) (core : Core) (frames : List Nat) : Prop where
  chain : Chain program core.stack.cells core.fp frames
  depth : frames.length = core.depth
  above : frames ≠ [] → core.fp < core.stack.height

namespace Framed

variable {program : Program} {core : Core} {frames : List Nat}

theorem nonempty (framed : core.Framed program frames) (deep : 0 < core.depth) : frames ≠ [] := by
  apply List.ne_nil_of_length_pos
  rw [framed.depth]
  exact deep

theorem fp_eq_zero (framed : core.Framed program frames) (zero : core.depth = 0) : core.fp = 0 := by
  obtain rfl : frames = [] := List.eq_nil_of_length_eq_zero (by rw [framed.depth, zero])
  exact framed.chain.eq_zero

theorem three_mul_depth (framed : core.Framed program frames) :
    3 * core.depth ≤ core.stack.height := by
  rcases Nat.eq_zero_or_pos core.depth with zero | deep
  · omega
  · have length := framed.chain.three_mul_length (framed.nonempty deep)
    have above := framed.above (framed.nonempty deep)
    rw [framed.depth] at length
    omega

end Framed

theorem Executes.registers {core after : Core} {instruction : Instruction} {effect : Effect}
    (h : Executes core instruction effect after) (notCall : instruction.opcode ≠ .call)
    (notRet : instruction.opcode ≠ .ret) : after.fp = core.fp ∧ after.depth = core.depth := by
  cases h with
  | call op => exact absurd op notCall
  | ret op => exact absurd op notRet
  | _ => exact ⟨rfl, rfl⟩

variable {program : Program} {core after : Core} {instruction : Instruction} {effect : Effect}
  {frames : List Nat}

/-- The frames after a step, and that a frame open before and after it is left
alone with everything below it. -/
def Follows (program : Program) (core after : Core) (frames : List Nat) : Prop :=
  ∃ later, after.Framed program later ∧ Turns frames later ∧
    ∀ frame ∈ frames, frame ∈ later → ∀ i ≤ frame, after.stack.cells[i]? = core.stack.cells[i]?

theorem Framed.stays (framed : core.Framed program frames) (fp : after.fp = core.fp)
    (depth : after.depth = core.depth)
    (kept : 0 < core.depth →
      (∀ i ≤ core.fp, after.stack.cells[i]? = core.stack.cells[i]?)
        ∧ core.fp < after.stack.height) :
    Follows program core after frames := by
  obtain ⟨chain, length, above⟩ := framed
  rcases Nat.eq_zero_or_pos core.depth with zero | deep
  · obtain rfl : frames = [] := List.eq_nil_of_length_eq_zero (by omega)
    refine ⟨[], ⟨?_, by rw [depth, zero]; rfl, by simp⟩, .stay, by simp⟩
    rw [fp, chain.eq_zero]
    exact .outside
  · obtain ⟨agree, higher⟩ := kept deep
    refine ⟨frames, ⟨?_, by rw [depth, length], fun _ => by rw [fp]; exact higher⟩, .stay, ?_⟩
    · rw [fp]
      exact chain.congr agree
    · intro frame member _ i le
      exact agree i (Nat.le_trans le (chain.le frame member))

theorem Framed.calls {count : Nat} (framed : core.Framed program frames)
    (calls : program.CallsAt core.ip) (room : core.stack.height + 3 ≤ core.stack.capacity)
    (enough : count ≤ core.stack.height)
    (apart : 0 < core.depth → core.fp + count < core.stack.height) :
    Follows program core (core.called count) frames := by
  obtain ⟨chain, length, above⟩ := framed
  obtain ⟨countSlot, callerSlot, siteSlot⟩ := core.called_header count room
  have deep : frames ≠ [] → 0 < core.depth := by
    intro nonempty
    rw [← length]
    exact List.length_pos_iff.2 nonempty
  have agree : frames ≠ [] → ∀ i ≤ core.fp,
      (core.called count).stack.cells[i]? = core.stack.cells[i]? := by
    intro nonempty i le
    have higher := above nonempty
    exact core.called_cells count (by omega)
  have link : Chain program (core.called count).stack.cells core.fp frames := by
    by_cases empty : frames = []
    · subst empty
      rw [chain.eq_zero]
      exact .outside
    · exact chain.congr (agree empty)
  have gap : frames ≠ [] → core.fp + count + 3 ≤ core.stack.height + 2 := by
    intro nonempty
    have between := apart (deep nonempty)
    omega
  refine ⟨(core.stack.height + 2) :: frames, ⟨?_, ?_, fun _ => ?_⟩, .enter _, ?_⟩
  · exact .frame link siteSlot calls callerSlot countSlot (Nat.add_le_add_right enough 2) gap
  · show frames.length + 1 = core.depth + 1
    rw [length]
  · show core.stack.height + 2 < core.stack.height + 3
    omega
  · intro frame member _ i le
    exact agree (List.ne_nil_of_mem member) i (Nat.le_trans le (chain.le frame member))

theorem Framed.header (framed : core.Framed program frames) (deep : 0 < core.depth)
    (size : program.size ≤ Number.wholeLimit) (capacity : core.stack.capacity ≤ Number.wholeLimit) :
    ∃ caller count site callers, frames = core.fp :: callers
      ∧ Chain program core.stack.cells caller callers
      ∧ core.stack.count? core.fp = some site ∧ core.stack.count? (core.fp - 1) = some caller
      ∧ core.stack.count? (core.fp - 2) = some count ∧ count + 2 ≤ core.fp
      ∧ (callers ≠ [] → caller + count + 3 ≤ core.fp) := by
  obtain ⟨chain, length, -⟩ := framed
  generalize fp : core.fp = top at chain
  cases chain with
  | outside =>
    simp only [List.length_nil] at length
    omega
  | @frame _ caller count site callers link siteSlot calls callerSlot countSlot enough apart =>
    have inside : top < core.stack.capacity := (Array.getElem?_eq_some_iff.1 siteSlot).1
    have below : caller < top := by
      cases link with
      | outside => omega
      | frame => have gap := apart (by simp); omega
    refine ⟨caller, count, site, callers, rfl, link, ?_, ?_, ?_, enough, apart⟩
    · exact Stack.count?_of_ofNat siteSlot (Nat.lt_of_lt_of_le calls.lt size)
    · exact Stack.count?_of_ofNat callerSlot (by omega)
    · exact Stack.count?_of_ofNat countSlot (by omega)

theorem Framed.returns {result : Value} {caller count : Nat} {callers : List Nat}
    (length : (core.fp :: callers).length = core.depth)
    (link : Chain program core.stack.cells caller callers)
    (apart : callers ≠ [] → caller + count + 3 ≤ core.fp) :
    Follows program core (core.returned result count caller) (core.fp :: callers) := by
  have agree : callers ≠ [] → ∀ i ≤ caller,
      (core.returned result count caller).stack.cells[i]? = core.stack.cells[i]? := by
    intro nonempty i le
    have gap := apart nonempty
    exact core.returned_cells result count caller (by omega)
  have chain : Chain program (core.returned result count caller).stack.cells caller callers := by
    by_cases empty : callers = []
    · subst empty
      rw [link.eq_zero]
      exact .outside
    · exact link.congr (agree empty)
  refine ⟨callers, ⟨chain, ?_, ?_⟩, .leave _, ?_⟩
  · show callers.length = core.depth - 1
    rw [← length]
    rfl
  · intro nonempty
    have gap := apart nonempty
    show caller < core.fp - 2 - count + 1
    omega
  · intro frame _ member i le
    exact agree (List.ne_nil_of_mem member) i (Nat.le_trans le (link.le frame member))

theorem Framed.executes (framed : core.Framed program frames)
    (size : program.size ≤ Number.wholeLimit) (capacity : core.stack.capacity ≤ Number.wholeLimit)
    (fetched : program.instructions[core.ip]? = some instruction)
    (respects : core.RespectsFrame instruction)
    (performed : perform instruction core = .ok effect after) :
    Follows program core after frames := by
  have rule := executes_of_perform performed
  by_cases isRet : instruction.opcode = .ret
  · rw [perform_ret isRet, ret_eq_ok] at performed
    obtain ⟨result, count, caller, site, deep, above, top, hsite, hcaller, hcount, enough, rfl,
      rfl⟩ := performed
    obtain ⟨caller', count', site', callers, rfl, link, hsite', hcaller', hcount', -, apart⟩ :=
      framed.header deep size capacity
    obtain rfl : caller' = caller := Option.some.inj (hcaller'.symm.trans hcaller)
    obtain rfl : count' = count := Option.some.inj (hcount'.symm.trans hcount)
    exact Framed.returns framed.depth link apart
  by_cases isCall : instruction.opcode = .call
  · cases rule with
    | @call target count op goal arguments enough room =>
      refine framed.calls ⟨instruction, fetched, isCall⟩ room enough fun deep => ?_
      have below := (respects deep isRet).2 isCall count arguments
      simp only [Stack.pointer] at below
      omega
    | _ => simp_all
  · obtain ⟨fp, depth⟩ := rule.registers isCall isRet
    refine framed.stays fp depth fun deep => ?_
    exact respects.kept deep isRet (framed.above (framed.nonempty deep)) performed

theorem Framed.ret_error {fault : Fault} (framed : core.Framed program frames)
    (size : program.size ≤ Number.wholeLimit) (capacity : core.stack.capacity ≤ Number.wholeLimit)
    (valid : core.stack.Valid) (failed : ret core = .error fault after) :
    (fault = .returnWithoutCall ∨ fault = .nothingReturned) ∧ after = core := by
  cases opened : openFrame core with
  | error refused =>
    rw [ret, Action.bind_error (Action.inspect_error opened)] at failed
    cases failed
    exact ⟨openFrame_error opened, rfl⟩
  | ok frame =>
    obtain ⟨deep, above, -⟩ := openFrame_eq_ok.1 opened
    obtain ⟨caller, count, site, callers, -, -, hsite, hcaller, hcount, enough, -⟩ :=
      framed.header deep size capacity
    have inside : core.stack.height - 1 < core.stack.cells.size := by
      have bound : core.stack.height ≤ core.stack.cells.size := valid
      omega
    -- a header in the chain holds all that the remaining checks ask for
    have returns := ret_eq_ok.2 ⟨core.stack.cells[core.stack.height - 1], count, caller, site, deep,
      above, Array.getElem?_eq_getElem inside, hsite, hcaller, hcount, enough, rfl, rfl⟩
    rw [returns] at failed
    cases failed

theorem Framed.fails {fault : Fault} (framed : core.Framed program frames)
    (size : program.size ≤ Number.wholeLimit) (capacity : core.stack.capacity ≤ Number.wholeLimit)
    (valid : core.stack.Valid) (respects : core.RespectsFrame instruction)
    (performed : perform instruction core = .error fault after) :
    Follows program core after frames := by
  by_cases isRet : instruction.opcode = .ret
  · rw [perform_ret isRet] at performed
    obtain ⟨-, rfl⟩ := framed.ret_error size capacity valid performed
    exact ⟨frames, framed, .stay, fun _ _ _ _ _ => rfl⟩
  have kept : 0 < core.depth → core.fp < after.stack.height := by
    intro deep
    exact respects.kept_of_error deep isRet (framed.above (framed.nonempty deep)) performed
  cases fails_of_perform valid performed with
  | early inside => exact ⟨frames, framed, .stay, fun _ _ _ _ _ => rfl⟩
  | mismatch op two => exact framed.stays rfl rfl fun deep => ⟨fun _ _ => rfl, kept deep⟩
  | unwinding op => exact absurd op isRet

end Core

namespace Machine

variable {stackSize : Nat} {m after : Machine} {frames : List Nat}

theorem Moves.follows (moves : Moves m after) (bounded : m.core.Bounded stackSize)
    (size : m.program.size ≤ Number.wholeLimit) (capacity : stackSize ≤ Number.wholeLimit)
    (respects : m.RespectsFrame) (framed : m.core.Framed m.program frames) :
    Core.Follows m.program m.core after.core frames := by
  have room : m.core.stack.capacity ≤ Number.wholeLimit := by
    rw [bounded.capacity]
    exact capacity
  cases moves with
  | idle rest => exact ⟨frames, framed, .stay, fun _ _ _ _ _ => rfl⟩
  | ended running past => exact ⟨frames, framed, .stay, fun _ _ _ _ _ => rfl⟩
  | failed running fetched performed =>
    exact framed.fails size room bounded.valid (respects running _ fetched) performed
  | done running fetched performed =>
    obtain ⟨later, ⟨chain, depth, above⟩, turns, agree⟩ :=
      framed.executes size room fetched (respects running _ fetched) performed
    exact ⟨later, ⟨chain, depth, above⟩, turns, agree⟩

theorem framed_iterate (program : Program) (settings : Settings) (n : Nat)
    (size : program.size ≤ Number.wholeLimit) (capacity : settings.stackSize ≤ Number.wholeLimit)
    (respects : ∀ k < n, (next^[k] (load program settings)).RespectsFrame) :
    ∃ frames, (next^[n] (load program settings)).core.Framed program frames := by
  induction n with
  | zero => exact ⟨[], .outside, rfl, by simp⟩
  | succ n ih =>
    obtain ⟨frames, framed⟩ := ih fun k lt => respects k (Nat.lt_succ_of_lt lt)
    have same := iterate_load_program program settings n
    rw [Function.iterate_succ_apply']
    obtain ⟨later, framed', -⟩ := (moves_next _).follows (bounded_iterate program settings n)
      (by rw [same]; exact size) capacity (respects n (Nat.lt_succ_self n))
      (by rw [same]; exact framed)
    rw [same] at framed'
    exact ⟨later, framed'⟩

/-- Runs whose steps respect their frames keep the chain of frames whole, and in
such a run a return fails only where there is no call or no result. -/
theorem frames_whole_of_respectful (program : Program) (settings : Settings) (n : Nat)
    (size : program.size < 2 ^ 53) (capacity : settings.stackSize ≤ 2 ^ 53)
    (respects : ∀ k < n, (next^[k] (load program settings)).RespectsFrame) :
    let m := next^[n] (load program settings)
    (∃ frames, m.core.stack.Linked m.core.fp frames ∧ frames.length = m.core.depth
        ∧ (frames.Pairwise fun inner outer => outer < inner - 2)
        ∧ ∀ frame ∈ frames, m.core.stack.Header program frame)
      ∧ (0 < m.core.depth → (m.core.fp : Int) ≤ m.core.stack.pointer)
      ∧ (m.core.depth = 0 → m.core.fp = 0)
      ∧ 3 * m.core.depth ≤ m.core.stack.height
      ∧ ∀ instruction error after, m.fetched? = some instruction → instruction.opcode = .ret →
        step m = .error error after →
          error.fault = .returnWithoutCall ∨ error.fault = .nothingReturned := by
  intro m
  have bounded : m.core.Bounded settings.stackSize := bounded_iterate program settings n
  have room : m.core.stack.capacity ≤ Number.wholeLimit := by
    rw [bounded.capacity]
    exact capacity
  obtain ⟨frames, framed⟩ : ∃ frames, m.core.Framed program frames :=
    framed_iterate program settings n (Nat.le_of_lt size) capacity respects
  refine ⟨⟨frames, framed.chain.linked, framed.depth, ?_, framed.chain.headers⟩, ?_,
    framed.fp_eq_zero, framed.three_mul_depth, ?_⟩
  · refine framed.chain.pairwise.imp ?_
    omega
  · intro deep
    have above := framed.above (framed.nonempty deep)
    simp only [Stack.pointer]
    omega
  · intro instruction error after fetched op failed
    obtain ⟨instruction', core, -, fetched', performed, -, -⟩ := step_eq_error failed
    obtain rfl : instruction = instruction' := Option.some.inj (fetched.symm.trans fetched')
    rw [Core.perform_ret op] at performed
    exact (framed.ret_error (Nat.le_of_lt size) room bounded.valid performed).1

def nestedCalls : Program :=
  .ofInstructions #[
    ⟨.const, [.ofNat 3]⟩, ⟨.call, [.ofNat 3, .ofNat 1]⟩, ⟨.halt, []⟩,
    ⟨.const, [.ofNat 7]⟩, ⟨.call, [.ofNat 8, .ofNat 1]⟩, ⟨.fetch, [.ofNat 15]⟩,
    ⟨.binary .sub, []⟩, ⟨.ret, []⟩,
    ⟨.fetch, [.ofNat 11]⟩, ⟨.fetch, [.ofNat 11]⟩, ⟨.binary .mul, []⟩, ⟨.ret, []⟩]

theorem frames_whole_of_nestedCalls :
    let m := next^[6] (load nestedCalls ⟨16, 0, false⟩)
    m.core.depth = 2 ∧ (∃ frames, m.core.stack.Linked m.core.fp frames
      ∧ frames.length = m.core.depth ∧ ∀ frame ∈ frames, m.core.stack.Header nestedCalls frame) := by
  obtain ⟨⟨frames, linked, length, -, headers⟩, -⟩ :=
    frames_whole_of_respectful nestedCalls ⟨16, 0, false⟩ 6 (by decide +kernel) (by decide)
      (by decide +kernel)
  exact ⟨by decide +kernel, frames, linked, length, headers⟩

end Machine

end StackMachine
