import StackMachine.Proofs.Frames

/-!
A call and the return that ends it. While the call is open its frame stays in
the chain, whatever calls and returns happen above it, and so its header and
all that lies below keep their content. When the frame's own return comes, it
finds the header as the call wrote it.
-/

namespace StackMachine

theorem Chain.head_eq {program : Program} {cells : Array Value} {fp frame : Nat}
    {callers : List Nat} (chain : Chain program cells fp (frame :: callers)) : frame = fp := by
  cases chain
  rfl

namespace Stack

theorem live_lowered_congr {s t : Stack} {height : Nat}
    (agree : ∀ i < height, t.cells[i]? = s.cells[i]?) :
    (t.lowered height).live = (s.lowered height).live := by
  apply List.ext_getElem?
  intro i
  simp only [live, lowered_height, lowered_cells, List.getElem?_take, Array.getElem?_toList]
  split
  · rename_i lt
    exact agree i lt
  · rfl

theorem live_lowered_of_le {s : Stack} {height : Nat} (le : height ≤ s.height) :
    (s.lowered height).live = s.live.take height := by
  simp only [live, lowered_height, lowered_cells, List.take_take, Nat.min_eq_left le]

end Stack

namespace Core

theorem Follows.within {program : Program} {core later : Core} {inner outer : List Nat}
    {frame : Nat} (follows : Follows program core later (inner ++ frame :: outer)) :
    (∃ inner', later.Framed program (inner' ++ frame :: outer)
        ∧ ∀ i ≤ frame, later.stack.cells[i]? = core.stack.cells[i]?)
      ∨ later.depth = outer.length := by
  obtain ⟨frames, framed, turns, agree⟩ := follows
  generalize before : inner ++ frame :: outer = opened at turns agree
  have member : frame ∈ opened := by simp [← before]
  -- the frame is left by the step only if it is the innermost one
  cases turns with
  | stay =>
    subst before
    exact .inl ⟨inner, framed, agree frame member member⟩
  | enter top =>
    subst before
    exact .inl ⟨top :: inner, framed, agree frame member (List.mem_cons_of_mem _ member)⟩
  | leave top =>
    cases inner with
    | nil =>
      obtain ⟨rfl, rfl⟩ := List.cons.inj before
      exact .inr framed.depth.symm
    | cons top' inner =>
      obtain ⟨rfl, rfl⟩ := List.cons.inj before
      exact .inl ⟨inner, framed, agree frame member (by simp)⟩

theorem header_read_back {s t : Core} {count argc caller site : Nat}
    (room : s.stack.height + 3 ≤ s.stack.capacity) (ip : s.ip < Number.wholeLimit)
    (fp : s.fp < Number.wholeLimit) (small : count < Number.wholeLimit)
    (agree : ∀ i ≤ s.stack.height + 2, t.stack.cells[i]? = (s.called count).stack.cells[i]?)
    (top : t.fp = s.stack.height + 2) (hsite : t.stack.count? t.fp = some site)
    (hcaller : t.stack.count? (t.fp - 1) = some caller)
    (hcount : t.stack.count? (t.fp - 2) = some argc) :
    site = s.ip ∧ caller = s.fp ∧ argc = count := by
  obtain ⟨countSlot, callerSlot, siteSlot⟩ := s.called_header count room
  rw [top] at hsite hcaller hcount
  have site' := Stack.count?_of_ofNat ((agree (s.stack.height + 2) (by omega)).trans siteSlot) ip
  have caller' := Stack.count?_of_ofNat ((agree (s.stack.height + 1) (by omega)).trans callerSlot) fp
  have count' := Stack.count?_of_ofNat ((agree s.stack.height (by omega)).trans countSlot) small
  exact ⟨Option.some.inj (hsite.symm.trans site'), Option.some.inj (hcaller.symm.trans caller'),
    Option.some.inj (hcount.symm.trans count')⟩

theorem returned_live {s t : Core} {count caller : Nat} {result : Value} (valid : s.stack.Valid)
    (same : t.stack.capacity = s.stack.capacity)
    (room : s.stack.height + 3 ≤ s.stack.capacity) (top : t.fp = s.stack.height + 2)
    (agree : ∀ i ≤ s.stack.height + 2, t.stack.cells[i]? = (s.called count).stack.cells[i]?) :
    (t.returned result count caller).stack.live
      = s.stack.live.take (s.stack.live.length - count) ++ [result] := by
  have height : t.fp - 2 - count = s.stack.height - count := by omega
  have below : ∀ i < s.stack.height - count, t.stack.cells[i]? = s.stack.cells[i]? := by
    intro i lt
    rw [agree i (by omega), s.called_cells count (by omega)]
  have space : (t.stack.lowered (s.stack.height - count)).height < t.stack.capacity := by
    simp only [Stack.lowered_height]
    omega
  simp only [returned, height]
  rw [Stack.live_pushed result space, Stack.live_lowered_congr below,
    Stack.live_lowered_of_le (Nat.sub_le _ _), Stack.length_live valid]

end Core

theorem Instruction.count?_lt {instruction : Instruction} {index n : Nat}
    (h : instruction.count? index = some n) : n < Number.wholeLimit := by
  obtain ⟨value, -, found⟩ := Option.bind_eq_some_iff.1 h
  exact Value.count?_lt found

namespace Machine

variable {m after : Machine}

def Succeeds (m : Machine) (instruction : Instruction) : Prop :=
  m.status = .running ∧ m.fetched? = some instruction
    ∧ ∃ effect core, Core.perform instruction m.core = .ok effect core

instance (m : Machine) (instruction : Instruction) : Decidable (m.Succeeds instruction) :=
  match performed : Core.perform instruction m.core with
  | .ok _ _ =>
      decidable_of_iff (m.status = .running ∧ m.fetched? = some instruction)
        (by simp [Succeeds, performed])
  | .error _ _ => .isFalse (by simp [Succeeds, performed])

theorem Moves.depth_eq_or (moves : Moves m after) (valid : m.core.stack.Valid) :
    after.core.depth = m.core.depth ∨ ∃ instruction, m.Succeeds instruction := by
  cases moves with
  | idle rest => exact .inl rfl
  | ended running past => exact .inl rfl
  | failed running fetched performed =>
    left
    cases Core.fails_of_perform valid performed <;> rfl
  | done running fetched performed => exact .inr ⟨_, running, fetched, _, _, performed⟩

theorem Succeeds.next_eq {instruction : Instruction} (h : m.Succeeds instruction) :
    ∃ effect core, Core.perform instruction m.core = .ok effect core
      ∧ m.next = m.continueWith instruction effect core := by
  obtain ⟨running, fetched, effect, core, performed⟩ := h
  refine ⟨effect, core, performed, ?_⟩
  rw [next, step_of_ok running fetched performed]

theorem Succeeds.call {instruction : Instruction} {count : Nat} (h : m.Succeeds instruction)
    (op : instruction.opcode = .call) (arguments : instruction.count? 1 = some count) :
    count ≤ m.core.stack.height ∧ m.core.stack.height + 3 ≤ m.core.stack.capacity
      ∧ ∃ target, m.next.core = { m.core.called count with ip := target } := by
  obtain ⟨effect, core, performed, moved⟩ := h.next_eq
  cases Core.executes_of_perform performed with
  | @call target count' op' goal arguments' enough room =>
    obtain rfl : count' = count := Option.some.inj (arguments'.symm.trans arguments)
    exact ⟨enough, room, target, by rw [moved]; rfl⟩
  | _ => simp_all

theorem Succeeds.ret {instruction : Instruction} (h : m.Succeeds instruction)
    (op : instruction.opcode = .ret) :
    ∃ result count caller site, 0 < m.core.depth ∧ m.core.stack.peek = .ok result
      ∧ m.core.stack.count? m.core.fp = some site
      ∧ m.core.stack.count? (m.core.fp - 1) = some caller
      ∧ m.core.stack.count? (m.core.fp - 2) = some count ∧ count + 2 ≤ m.core.fp
      ∧ m.next.core = { m.core.returned result count caller with ip := site + 1 } := by
  obtain ⟨effect, core, performed, moved⟩ := h.next_eq
  rw [Core.perform_ret op, Core.ret_eq_ok] at performed
  obtain ⟨result, count, caller, site, deep, above, top, hsite, hcaller, hcount, enough, rfl,
    rfl⟩ := performed
  refine ⟨result, count, caller, site, deep, Stack.peek_eq_ok.2 ⟨by omega, top⟩, hsite, hcaller,
    hcount, enough, ?_⟩
  rw [moved]
  rfl

section Run

variable {program : Program} {settings : Settings}

/-- As long as the call at `frame` is open, its frame is in the chain and the
slots up to it keep their content. -/
theorem framed_while_open (size : program.size ≤ Number.wholeLimit)
    (capacity : settings.stackSize ≤ Number.wholeLimit) {a n frame : Nat} {outer : List Nat}
    (respects : ∀ k < a + n, (next^[k] (load program settings)).RespectsFrame)
    (opened : (next^[a] (load program settings)).core.Framed program (frame :: outer))
    (stays : ∀ k, a ≤ k → k < a + n → ∀ instruction,
      (next^[k] (load program settings)).Succeeds instruction →
        (next^[k + 1] (load program settings)).core.depth ≠ outer.length) :
    ∃ inner, (next^[a + n] (load program settings)).core.Framed program (inner ++ frame :: outer)
      ∧ ∀ i ≤ frame, (next^[a + n] (load program settings)).core.stack.cells[i]?
        = (next^[a] (load program settings)).core.stack.cells[i]? := by
  -- what the call has built lies at `frame` or below, where steps inside of it never write
  induction n with
  | zero => exact ⟨[], opened, fun _ _ => rfl⟩
  | succ n ih =>
    obtain ⟨inner, framed, agree⟩ := ih (fun k lt => respects k (by omega))
      (fun k le lt => stays k le (by omega))
    have same := iterate_load_program program settings (a + n)
    have bounded := bounded_iterate program settings (a + n)
    have moves := moves_next (next^[a + n] (load program settings))
    have follows := moves.follows bounded (by rw [same]; exact size) capacity
      (respects (a + n) (by omega)) (by rw [same]; exact framed)
    rw [same] at follows
    have succ : next^[a + (n + 1)] (load program settings)
        = (next^[a + n] (load program settings)).next := Function.iterate_succ_apply' _ _ _
    rw [succ]
    obtain ⟨inner', framed', agree'⟩ | left := follows.within
    · exact ⟨inner', framed', fun i le => (agree' i le).trans (agree i le)⟩
    · have deep : (next^[a + n] (load program settings)).core.depth ≠ outer.length := by
        rw [← framed.depth]
        simp only [List.length_append, List.length_cons]
        omega
      obtain kept | ⟨instruction, succeeds⟩ := moves.depth_eq_or bounded.valid
      · exact absurd (kept.symm.trans left) deep
      · refine absurd ?_ (stays (a + n) (by omega) (by omega) instruction succeeds)
        rw [Function.iterate_succ_apply']
        exact left

theorem framed_of_call (size : program.size ≤ Number.wholeLimit)
    (capacity : settings.stackSize ≤ Number.wholeLimit) {i count target : Nat}
    (respects : ∀ k ≤ i, (next^[k] (load program settings)).RespectsFrame)
    (entered : (next^[i] (load program settings)).next.core
      = { (next^[i] (load program settings)).core.called count with ip := target }) :
    ∃ outer, outer.length = (next^[i] (load program settings)).core.depth
      ∧ (next^[i + 1] (load program settings)).core.Framed program
        (((next^[i] (load program settings)).core.stack.height + 2) :: outer) := by
  obtain ⟨frames, framed⟩ := framed_iterate program settings i size capacity
    fun k lt => respects k (Nat.le_of_lt lt)
  have same := iterate_load_program program settings i
  obtain ⟨later, framed', turns, -⟩ := (moves_next _).follows (bounded_iterate program settings i)
    (by rw [same]; exact size) capacity (respects i (Nat.le_refl i)) (by rw [same]; exact framed)
  rw [same, entered] at framed'
  have depth := framed'.depth
  have before := framed.depth
  simp only [Core.called] at depth
  rw [Function.iterate_succ_apply', entered]
  cases turns with
  | stay => omega
  | enter top =>
    obtain rfl : top = _ := framed'.chain.head_eq
    exact ⟨frames, framed.depth, framed'⟩
  | leave top =>
    simp only [List.length_cons] at before
    omega

/-- A call's own return goes back behind the call, with the caller's frame and
the caller's stack, where the result stands in place of the arguments. -/
theorem return_restores_caller (program : Program) (settings : Settings) (i j count : Nat)
    (callee returning : Instruction)
    (size : program.size < 2 ^ 53) (capacity : settings.stackSize ≤ 2 ^ 53)
    (respects : ∀ k ≤ j, (next^[k] (load program settings)).RespectsFrame)
    (called : (next^[i] (load program settings)).Succeeds callee)
    (isCall : callee.opcode = .call) (arguments : callee.count? 1 = some count)
    (later : i < j)
    (returned : (next^[j] (load program settings)).Succeeds returning)
    (isRet : returning.opcode = .ret)
    (back : (next^[j + 1] (load program settings)).core.depth
      = (next^[i] (load program settings)).core.depth)
    (first : ∀ k, i < k → k < j → ∀ instruction,
      (next^[k] (load program settings)).Succeeds instruction →
        (next^[k + 1] (load program settings)).core.depth
          ≠ (next^[i] (load program settings)).core.depth) :
    let s := (next^[i] (load program settings)).core
    let t := (next^[j] (load program settings)).core
    let u := (next^[j + 1] (load program settings)).core
    u.ip = s.ip + 1 ∧ u.fp = s.fp ∧ u.depth = s.depth
      ∧ ∃ result, t.stack.peek = .ok result
        ∧ u.stack.live = s.stack.live.take (s.stack.live.length - count) ++ [result] := by
  intro s t u
  have large := Nat.le_of_lt size
  obtain ⟨enough, room, target, entered⟩ := called.call isCall arguments
  obtain ⟨outer, length, opened⟩ := framed_of_call large capacity
    (fun k le => respects k (by omega)) entered
  obtain ⟨inner, framed, agree⟩ := framed_while_open (n := j - (i + 1)) large capacity
    (fun k lt => respects k (by omega)) opened
    (fun k le lt instruction succeeds => by
      rw [length]
      exact first k (by omega) (by omega) instruction succeeds)
  have split : i + 1 + (j - (i + 1)) = j := by omega
  rw [split] at framed agree
  obtain ⟨result, argc, caller, site, deep, top, hsite, hcaller, hcount, -, left⟩ :=
    returned.ret isRet
  have entry : (next^[i + 1] (load program settings)).core.stack = (s.called count).stack := by
    rw [Function.iterate_succ_apply', entered]
  have leaving : u = { t.returned result argc caller with ip := site + 1 } := by
    rw [← left]
    exact congrArg core (Function.iterate_succ_apply' _ _ _)
  have bounded : s.Bounded settings.stackSize := bounded_iterate program settings i
  have frame : s.fp < Number.wholeLimit :=
    bounded.frame.elim id fun lt => Nat.lt_of_lt_of_le lt capacity
  have same : t.stack.capacity = s.stack.capacity :=
    (bounded_iterate program settings j).capacity.trans bounded.capacity.symm
  have ip : s.ip < program.size := by
    have inside := (Array.getElem?_eq_some_iff.1 called.2.1).1
    rw [iterate_load_program] at inside
    exact inside
  have depths : (inner ++ (s.stack.height + 2) :: outer).length = t.depth := framed.depth
  have outside : outer.length = s.depth := length
  have deeper : 0 < t.depth := deep
  have closed : t.depth - 1 = s.depth := (congrArg Core.depth leaving).symm.trans back
  -- the return comes back to the depth of the call, so nothing is open above its frame
  obtain rfl : inner = [] := by
    apply List.eq_nil_of_length_eq_zero
    simp only [List.length_append, List.length_cons] at depths
    omega
  have fp : t.fp = s.stack.height + 2 := framed.chain.head_eq.symm
  rw [entry] at agree
  obtain ⟨rfl, rfl, rfl⟩ := Core.header_read_back room (Nat.lt_of_lt_of_le ip large) frame
    (Instruction.count?_lt arguments) agree fp hsite hcaller hcount
  have live : (t.returned result argc s.fp).stack.live
      = s.stack.live.take (s.stack.live.length - argc) ++ [result] :=
    Core.returned_live bounded.valid same room fp agree
  rw [leaving]
  exact ⟨rfl, rfl, closed, result, top, live⟩

/-- The outer call of the two: it is made with 3 on the stack, and an inner call
comes and goes before its return. -/
theorem return_restores_caller_of_nestedCalls :
    let s := (next^[1] (load nestedCalls ⟨16, 0, false⟩)).core
    let t := (next^[10] (load nestedCalls ⟨16, 0, false⟩)).core
    let u := (next^[11] (load nestedCalls ⟨16, 0, false⟩)).core
    s.stack.live = [.ofNat 3] ∧ u.ip = s.ip + 1 ∧ u.fp = s.fp ∧ u.depth = s.depth
      ∧ ∃ result, t.stack.peek = .ok result
        ∧ u.stack.live = s.stack.live.take (s.stack.live.length - 1) ++ [result] := by
  have opened : ∀ k < 10, 1 < k →
      (next^[k + 1] (load nestedCalls ⟨16, 0, false⟩)).core.depth
        ≠ (next^[1] (load nestedCalls ⟨16, 0, false⟩)).core.depth := by decide +kernel
  refine ⟨by decide +kernel, ?_⟩
  exact return_restores_caller nestedCalls ⟨16, 0, false⟩ 1 10 1
    ⟨.call, [.ofNat 3, .ofNat 1]⟩ ⟨.ret, []⟩ (by decide +kernel) (by decide) (by decide +kernel)
    (by decide +kernel) rfl (by decide +kernel) (by decide) (by decide +kernel) rfl
    (by decide +kernel) fun k lo hi _ _ => opened k hi lo

end Run

end Machine

end StackMachine
