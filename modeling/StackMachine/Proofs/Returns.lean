import StackMachine.Proofs.Safety

/-!
Returns from frames that the program may have overwritten. `Returns` lists the
checks of a return, on nothing but the registers and the slots, and `ReturnFault`
says which fault belongs to the first check that fails. A return does exactly
what the two say, and whatever number of arguments a header claims, the loop that
drops them ends at the bottom of the stack.
-/

namespace StackMachine

namespace Number

theorem position?_ofNat {n : Nat} (small : n < wholeLimit) :
    (ofNat n).position? = some ((unitsPerOne * n : Nat) : Int) := by
  rw [ofNat_eq (Nat.le_of_lt small)]
  rfl

theorem whole?_finite {negative : Bool} {units n : Nat} {fits : Representable units} :
    (finite negative units fits).whole? = some n ↔
      n < wholeLimit ∧ signed negative units = (unitsPerOne * n : Nat) := by
  have units_eq : units = unitsPerOne * n ↔ units % unitsPerOne = 0 ∧ units / unitsPerOne = n := by
    refine ⟨fun same => ?_, fun ⟨whole, quotient⟩ => ?_⟩
    · rw [same, Nat.mul_mod_right, Nat.mul_div_cancel_left n unitsPerOne_pos]
      exact ⟨rfl, rfl⟩
    · rw [← quotient, Nat.mul_div_cancel' (Nat.dvd_of_mod_eq_zero whole)]
  have position : signed negative units = (unitsPerOne * n : Nat) ↔
      (negative = false ∨ units = 0) ∧ units = unitsPerOne * n := by
    generalize unitsPerOne * n = total
    cases negative with
    | false =>
      simp only [signed, Bool.false_eq_true, if_false, true_or, true_and]
      omega
    | true =>
      simp only [signed, if_true, Bool.true_eq_false, false_or]
      omega
  rw [position, units_eq]
  simp only [whole?, Option.ite_none_right_eq_some, Option.some.injEq]
  grind

theorem whole?_eq_some {x : Number} {n : Nat} :
    x.whole? = some n ↔ n < wholeLimit ∧ x.equals (ofNat n) = true := by
  by_cases small : n < wholeLimit
  · rw [equals, compareBy, position?_ofNat small]
    have range : unitsPerOne * n < unitsLimit := unitsPerOne_mul_lt (Nat.le_of_lt small)
    cases x with
    | nan => simp [whole?, position?]
    | infinite negative =>
      cases negative <;> simp [whole?, position?, signed] <;> omega
    | finite negative units fits => simpa [position?] using whole?_finite
  · exact iff_of_false (fun found => small (whole?_lt found)) (fun h => small h.1)

end Number

namespace Value

/-- A number that is whole, not negative and below `2 ^ 53`. -/
def IsCount (value : Value) (n : Nat) : Prop :=
  n < 2 ^ 53 ∧ value.equals (.ofNat n) = true

theorem count?_eq_some {value : Value} {n : Nat} : value.count? = some n ↔ value.IsCount n := by
  cases value with
  | number x => exact Number.whole?_eq_some
  | nil => simp [count?, IsCount, ofNat, equals]
  | text s => simp [count?, IsCount, ofNat, equals]

theorem whole_of_uncounted {x : Number} (what : String)
    (uncounted : ∀ n, ¬ (number x).IsCount n) :
    (number x).whole what = .error (.notWhole what x) := by
  have none : x.whole? = none := by
    rw [Option.eq_none_iff_forall_ne_some]
    exact fun n found => uncounted n (count?_eq_some.1 found)
  rw [whole, none]

theorem whole_of_kind {value : Value} (what : String) (kind : value.kind ≠ .number) :
    value.whole what = .error (.notNumber what value.kind) := by
  cases value with
  | number x => exact absurd rfl kind
  | nil => rfl
  | text s => rfl

end Value

namespace Stack

def Counts (s : Stack) (i n : Nat) : Prop :=
  ∃ value, s.cells[i]? = some value ∧ value.IsCount n

theorem count?_eq_some {s : Stack} {i n : Nat} : s.count? i = some n ↔ s.Counts i n := by
  simp only [count?, Option.bind_eq_some_iff, Value.count?_eq_some, Counts]

/-- What is wrong with the header slot that lies `k` slots below `frame`. -/
inductive HeaderFault (s : Stack) (frame k : Nat) (what : String) : ErrorClass → Fault → Prop where
  | missing (below : frame < k) : HeaderFault s frame k what .stack (.empty s.name)
  | fraction {x : Number} (there : k ≤ frame) (slot : s.cells[frame - k]? = some (.number x))
      (uncounted : ∀ n, ¬ (Value.number x).IsCount n) :
      HeaderFault s frame k what .value (.notWhole what x)
  | other {value : Value} (there : k ≤ frame) (slot : s.cells[frame - k]? = some value)
      (kind : value.kind ≠ .number) : HeaderFault s frame k what .value (.notNumber what value.kind)

variable {s t : Stack} {frame k : Nat} {what : String}

theorem header_cases (inside : frame < s.capacity) :
    (∃ n, k ≤ frame ∧ s.Counts (frame - k) n)
      ∨ ∃ errorClass fault, s.HeaderFault frame k what errorClass fault := by
  by_cases there : k ≤ frame
  · have index : frame - k < s.cells.size := Nat.lt_of_le_of_lt (Nat.sub_le frame k) inside
    obtain ⟨value, slot⟩ : ∃ value, s.cells[frame - k]? = some value :=
      ⟨_, Array.getElem?_eq_getElem index⟩
    by_cases counted : ∃ n, value.IsCount n
    · obtain ⟨n, counted⟩ := counted
      exact .inl ⟨n, there, value, slot, counted⟩
    · right
      rw [not_exists] at counted
      cases value with
      | number x => exact ⟨_, _, .fraction there slot counted⟩
      | nil => exact ⟨_, _, .other there slot nofun⟩
      | text text => exact ⟨_, _, .other there slot nofun⟩
  · exact .inr ⟨_, _, .missing (Nat.lt_of_not_le there)⟩

theorem popWhole_of_counts {n : Nat} (there : k ≤ frame) (counts : s.Counts (frame - k) n) :
    popWhole what (s.lowered (frame + 1 - k)) = .ok n (s.lowered (frame - k)) := by
  have height : frame + 1 - k - 1 = frame - k := by omega
  refine popWhole_eq_ok.2 ⟨by rw [lowered_height]; omega, ?_, ?_⟩
  · rw [lowered_height, height, lowered_count?]
    exact count?_eq_some.2 counts
  · rw [lowered_height, height, lowered_lowered]

theorem popWhole_of_slot {value : Value} {fault : Fault} (there : k ≤ frame)
    (slot : s.cells[frame - k]? = some value) (refused : value.whole what = .error fault) :
    ∃ t, popWhole what (s.lowered (frame + 1 - k)) = .error fault t := by
  have height : frame + 1 - k - 1 = frame - k := by omega
  have top : (s.lowered (frame + 1 - k)).peek = .ok value := by
    refine peek_eq_ok.2 ⟨by rw [lowered_height]; omega, ?_⟩
    rw [lowered_height, height]
    exact slot
  refine ⟨s.lowered (frame + 1 - k - 1), ?_⟩
  rw [popWhole, Action.bind_ok (pop_ok top)]
  exact Action.check_eq_error.2 ⟨refused, rfl⟩

theorem HeaderFault.popWhole {errorClass : ErrorClass} {fault : Fault}
    (wrong : s.HeaderFault frame k what errorClass fault) :
    ∃ t, popWhole what (s.lowered (frame + 1 - k)) = .error fault t := by
  cases wrong with
  | missing below =>
    have height : frame + 1 - k = 0 := by omega
    rw [height]
    exact ⟨_, Action.bind_error (pop_error (peek_of_empty rfl))⟩
  | fraction there slot uncounted =>
    exact popWhole_of_slot there slot (Value.whole_of_uncounted what uncounted)
  | other there slot kind => exact popWhole_of_slot there slot (Value.whole_of_kind what kind)

def takeHeader (frame : Nat) : Action Stack (Value × Nat × Nat × Nat) := do
  let result ← pop
  setPointer frame
  let site ← popWhole "return address"
  let caller ← popWhole "frame pointer"
  let count ← popWhole "argument count"
  return (result, site, caller, count)

theorem unwind_eq (frame : Nat) : unwind frame = do
    let (result, site, caller, count) ← takeHeader frame
    drop count
    push result
    return (site, caller) := by
  simp only [unwind, takeHeader, bind_assoc, pure_bind]

/-- `drop`, with the number of rounds that it takes; the last one may fail. -/
def dropCharged : Nat → Stack → Nat × EStateM.Result Fault Stack Unit
  | 0, s => (0, .ok () s)
  | count + 1, s =>
      match pop s with
      | .ok _ t => ((dropCharged count t).1 + 1, (dropCharged count t).2)
      | .error fault t => (1, .error fault t)

theorem dropCharged_result (count : Nat) (s : Stack) : (dropCharged count s).2 = drop count s := by
  induction count generalizing s with
  | zero => rfl
  | succ count ih =>
    unfold dropCharged drop
    cases popped : pop s with
    | ok value t =>
      rw [Action.bind_ok popped]
      exact ih t
    | error fault t =>
      rw [Action.bind_error popped]

theorem dropCharged_le (count : Nat) (s : Stack) : (dropCharged count s).1 ≤ s.height + 1 := by
  induction count generalizing s with
  | zero => exact Nat.zero_le _
  | succ count ih =>
    unfold dropCharged
    cases popped : pop s with
    | ok value t =>
      obtain ⟨top, rfl⟩ := pop_eq_ok.1 popped
      have pos := (peek_eq_ok.1 top).1
      -- a round that succeeds lowers the stack, so only the last one can find it empty
      have later := ih (s.lowered (s.height - 1))
      simp only [lowered_height] at later ⊢
      omega
    | error fault t => exact Nat.succ_le_succ (Nat.zero_le _)

def unwindCharged (frame : Nat) (s : Stack) : Nat × EStateM.Result Fault Stack (Nat × Nat) :=
  match takeHeader frame s with
  | .error fault t => (0, .error fault t)
  | .ok (result, site, caller, count) t =>
      let finish : Action Stack (Nat × Nat) := do
        push result
        return (site, caller)
      match dropCharged count t with
      | (rounds, .ok _ t) => (rounds, finish t)
      | (rounds, .error fault t) => (rounds, .error fault t)

theorem unwindCharged_result (frame : Nat) (s : Stack) :
    (unwindCharged frame s).2 = unwind frame s := by
  rw [unwindCharged, unwind_eq]
  cases header : takeHeader frame s with
  | error fault t => rw [Action.bind_error header]
  | ok parts t =>
    obtain ⟨result, site, caller, count⟩ := parts
    have dropped := dropCharged_result count t
    rw [Action.bind_ok header]
    dsimp only
    cases loop : dropCharged count t with
    | mk rounds ended =>
      rw [loop] at dropped
      cases ended with
      | ok u t => rw [Action.bind_ok dropped.symm]
      | error fault t => rw [Action.bind_error dropped.symm]

theorem height_of_takeHeader {result : Value} {site caller count : Nat}
    (taken : takeHeader frame s = .ok (result, site, caller, count) t) : t.height + 2 = frame := by
  simp only [takeHeader, Action.bind_eq_ok, pop_eq_ok, setPointer_eq_ok, popWhole_eq_ok] at taken
  obtain ⟨_, _, ⟨-, rfl⟩, _, _, ⟨-, rfl⟩, _, _, ⟨-, -, rfl⟩, _, _, ⟨-, -, rfl⟩, _, _, ⟨pos, -, rfl⟩,
    last⟩ := taken
  obtain ⟨-, rfl⟩ := Action.pure_eq_ok.1 last
  simp only [lowered_height] at pos ⊢
  omega

theorem unwindCharged_le (frame : Nat) (s : Stack) : (unwindCharged frame s).1 ≤ frame - 1 := by
  unfold unwindCharged
  cases header : takeHeader frame s with
  | error fault t => exact Nat.zero_le _
  | ok parts t =>
    obtain ⟨result, site, caller, count⟩ := parts
    have height := height_of_takeHeader header
    have rounds := dropCharged_le count t
    dsimp only
    cases loop : dropCharged count t with
    | mk taken ended =>
      rw [loop] at rounds
      cases ended <;> (dsimp only at rounds ⊢; omega)

theorem drop_of_lt {height count : Nat} (short : height < count) (room : height ≤ s.capacity) :
    ∃ t, drop count (s.lowered height) = .error (.empty s.name) t := by
  induction count generalizing height with
  | zero => exact absurd short (Nat.not_lt_zero height)
  | succ count ih =>
    cases height with
    | zero => exact ⟨_, Action.bind_error (pop_error (peek_of_empty rfl))⟩
    | succ height =>
      have inside : height < s.cells.size := room
      have top : (s.lowered (height + 1)).peek = .ok s.cells[height] :=
        peek_eq_ok.2 ⟨Nat.succ_pos height, Array.getElem?_eq_getElem inside⟩
      rw [drop, Action.bind_ok (pop_ok top)]
      exact ih (Nat.lt_of_succ_lt_succ short) (Nat.le_of_lt inside)

theorem unwind_of_header {fault : Fault} (failed : takeHeader frame s = .error fault t) :
    unwind frame s = .error fault t := by
  rw [unwind_eq, Action.bind_error failed]

theorem takeHeader_of_above (valid : s.Valid) (above : frame + 1 < s.height) :
    ∃ result, s.cells[s.height - 1]? = some result
      ∧ takeHeader frame s = (do
        let site ← popWhole "return address"
        let caller ← popWhole "frame pointer"
        let count ← popWhole "argument count"
        return (result, site, caller, count) : Action Stack _) (s.lowered (frame + 1)) := by
  have bound : s.height ≤ s.cells.size := valid
  have inside : s.height - 1 < s.cells.size := by omega
  have slot := Array.getElem?_eq_getElem inside
  have top : s.peek = .ok s.cells[s.height - 1] := peek_eq_ok.2 ⟨by omega, slot⟩
  have room : frame < (s.lowered (s.height - 1)).capacity := by
    show frame < s.cells.size
    omega
  refine ⟨_, slot, ?_⟩
  have moved : setPointer frame (s.lowered (s.height - 1)) = .ok () (s.lowered (frame + 1)) :=
    setPointer_eq_ok.2 ⟨room, rfl⟩
  rw [takeHeader, Action.bind_ok (pop_eq_ok.2 ⟨top, rfl⟩), Action.bind_ok moved]

end Stack

namespace Core

/-- The checks of a return, with the counts in the three slots of the header. -/
structure Returns (core : Core) (site caller count : Nat) : Prop where
  deep : 0 < core.depth
  above : core.fp < core.stack.pointer
  header : 2 ≤ core.fp
  first : core.stack.Counts core.fp site
  second : core.stack.Counts (core.fp - 1) caller
  third : core.stack.Counts (core.fp - 2) count
  arguments : count ≤ core.fp - 2

/-- The first check of a return that fails, its class of errors and its fault. -/
inductive ReturnFault (core : Core) : ErrorClass → Fault → Prop where
  | outside (shallow : core.depth = 0) : ReturnFault core .code .returnWithoutCall
  | nothing (deep : 0 < core.depth) (bare : core.stack.pointer ≤ core.fp) :
      ReturnFault core .code .nothingReturned
  | site {errorClass : ErrorClass} {fault : Fault} (deep : 0 < core.depth)
      (above : core.fp < core.stack.pointer)
      (wrong : core.stack.HeaderFault core.fp 0 "return address" errorClass fault) :
      ReturnFault core errorClass fault
  | caller {site : Nat} {errorClass : ErrorClass} {fault : Fault} (deep : 0 < core.depth)
      (above : core.fp < core.stack.pointer) (first : core.stack.Counts core.fp site)
      (wrong : core.stack.HeaderFault core.fp 1 "frame pointer" errorClass fault) :
      ReturnFault core errorClass fault
  | count {site caller : Nat} {errorClass : ErrorClass} {fault : Fault} (deep : 0 < core.depth)
      (above : core.fp < core.stack.pointer) (there : 1 ≤ core.fp)
      (first : core.stack.Counts core.fp site) (second : core.stack.Counts (core.fp - 1) caller)
      (wrong : core.stack.HeaderFault core.fp 2 "argument count" errorClass fault) :
      ReturnFault core errorClass fault
  | arguments {site caller count : Nat} (deep : 0 < core.depth)
      (above : core.fp < core.stack.pointer) (there : 2 ≤ core.fp)
      (first : core.stack.Counts core.fp site) (second : core.stack.Counts (core.fp - 1) caller)
      (third : core.stack.Counts (core.fp - 2) count) (few : core.fp - 2 < count) :
      ReturnFault core .stack (.empty core.stack.name)

/-- What a return makes of the registers and the slots. -/
structure Returned (core after : Core) (site caller count : Nat) : Prop where
  ip : after.ip = site + 1
  fp : after.fp = caller
  depth : after.depth + 1 = core.depth
  pointer : after.stack.pointer = core.fp - 2 - count
  result : ∃ result, core.stack.cells[core.stack.pointer.toNat]? = some result
    ∧ after.stack.cells[core.fp - 2 - count]? = some result
  slots : ∀ i, i ≠ core.fp - 2 - count → after.stack.cells[i]? = core.stack.cells[i]?
  globals : after.globals = core.globals

variable {core : Core} {site caller count : Nat} {errorClass : ErrorClass} {fault : Fault}

theorem lt_pointer_iff : core.fp < core.stack.pointer ↔ core.fp + 1 < core.stack.height := by
  unfold Stack.pointer
  omega

theorem return_cases (valid : core.stack.Valid) :
    (∃ site caller count, core.Returns site caller count)
      ∨ ∃ errorClass fault, core.ReturnFault errorClass fault := by
  rcases Nat.eq_zero_or_pos core.depth with shallow | deep
  · exact .inr ⟨_, _, .outside shallow⟩
  by_cases above : core.fp < core.stack.pointer
  case neg => exact .inr ⟨_, _, .nothing deep (Int.not_lt.1 above)⟩
  have inside : core.fp < core.stack.capacity := by
    have bound : core.stack.height ≤ core.stack.capacity := valid
    have below := lt_pointer_iff.1 above
    omega
  obtain ⟨site, -, first⟩ | ⟨_, _, wrong⟩ :=
    @Stack.header_cases core.stack core.fp 0 "return address" inside
  case inr => exact .inr ⟨_, _, .site deep above wrong⟩
  obtain ⟨caller, there, second⟩ | ⟨_, _, wrong⟩ :=
    @Stack.header_cases core.stack core.fp 1 "frame pointer" inside
  case inr => exact .inr ⟨_, _, .caller deep above first wrong⟩
  obtain ⟨count, header, third⟩ | ⟨_, _, wrong⟩ :=
    @Stack.header_cases core.stack core.fp 2 "argument count" inside
  case inr => exact .inr ⟨_, _, .count deep above there first second wrong⟩
  by_cases arguments : count ≤ core.fp - 2
  · exact .inl ⟨site, caller, count, deep, above, header, first, second, third, arguments⟩
  · exact .inr ⟨_, _, .arguments deep above header first second third (Nat.lt_of_not_le arguments)⟩

theorem Returns.ret (passes : core.Returns site caller count) (valid : core.stack.Valid) :
    ∃ result, core.stack.cells[core.stack.height - 1]? = some result
      ∧ ret core = .ok ⟨.jump (site + 1), none⟩ (core.returned result count caller) := by
  obtain ⟨deep, above, header, first, second, third, arguments⟩ := passes
  have below := lt_pointer_iff.1 above
  obtain ⟨result, top, -⟩ := Stack.takeHeader_of_above valid below
  exact ⟨result, top, ret_eq_ok.2 ⟨result, count, caller, site, deep, below, top,
    Stack.count?_eq_some.2 first, Stack.count?_eq_some.2 second, Stack.count?_eq_some.2 third,
    by omega, rfl, rfl⟩⟩

theorem ret_of_unwind_error (deep : 0 < core.depth) (above : core.fp < core.stack.pointer)
    (failed : ∃ t, Stack.unwind core.fp core.stack = .error fault t) :
    ∃ after, ret core = .error fault after := by
  obtain ⟨t, failed⟩ := failed
  have opened : openFrame core = .ok core.fp :=
    openFrame_eq_ok.2 ⟨deep, lt_pointer_iff.1 above, rfl⟩
  refine ⟨{ core with stack := t }, ?_⟩
  rw [ret, Action.bind_ok (Action.inspect_ok opened), Action.bind_error (onStack_error failed)]

theorem ReturnFault.ret (wrong : core.ReturnFault errorClass fault) (valid : core.stack.Valid) :
    ∃ after, ret core = .error fault after := by
  -- the guards come first; behind them the header is taken from the top of the frame
  have taken := fun above : core.fp < core.stack.pointer =>
    Stack.takeHeader_of_above valid (lt_pointer_iff.1 above)
  cases wrong with
  | outside shallow =>
    have refused : openFrame core = .error .returnWithoutCall := if_pos shallow
    exact ⟨core, Action.bind_error (Action.inspect_error refused)⟩
  | nothing deep bare =>
    have refused : openFrame core = .error .nothingReturned := by
      rw [openFrame, if_neg (Nat.ne_of_gt deep), if_pos bare]
    exact ⟨core, Action.bind_error (Action.inspect_error refused)⟩
  | site deep above wrong =>
    obtain ⟨t, failed⟩ := wrong.popWhole
    obtain ⟨result, -, taken⟩ := taken above
    exact ret_of_unwind_error deep above
      ⟨t, Stack.unwind_of_header (taken.trans (Action.bind_error failed))⟩
  | caller deep above first wrong =>
    obtain ⟨t, failed⟩ := wrong.popWhole
    obtain ⟨result, -, taken⟩ := taken above
    have one := @Stack.popWhole_of_counts _ _ 0 "return address" _ (Nat.zero_le _) first
    have header := taken.trans ((Action.bind_ok one).trans (Action.bind_error failed))
    exact ret_of_unwind_error deep above ⟨t, Stack.unwind_of_header header⟩
  | count deep above there first second wrong =>
    obtain ⟨t, failed⟩ := wrong.popWhole
    obtain ⟨result, -, taken⟩ := taken above
    have one := @Stack.popWhole_of_counts _ _ 0 "return address" _ (Nat.zero_le _) first
    have two := @Stack.popWhole_of_counts _ _ 1 "frame pointer" _ there second
    have header := taken.trans ((Action.bind_ok one).trans ((Action.bind_ok two).trans
      (Action.bind_error failed)))
    exact ret_of_unwind_error deep above ⟨t, Stack.unwind_of_header header⟩
  | arguments deep above there first second third few =>
    have room : core.fp - 2 ≤ core.stack.capacity := by
      have bound : core.stack.height ≤ core.stack.capacity := valid
      have below := lt_pointer_iff.1 above
      omega
    obtain ⟨t, failed⟩ := Stack.drop_of_lt few room
    obtain ⟨result, -, taken⟩ := taken above
    have one := @Stack.popWhole_of_counts _ _ 0 "return address" _ (Nat.zero_le _) first
    have two := @Stack.popWhole_of_counts _ _ 1 "frame pointer" _ (by omega) second
    have three := @Stack.popWhole_of_counts _ _ 2 "argument count" _ there third
    have header := taken.trans ((Action.bind_ok one).trans ((Action.bind_ok two).trans
      (Action.bind_ok three)))
    refine ret_of_unwind_error deep above ⟨t, ?_⟩
    rw [Stack.unwind_eq]
    exact (Action.bind_ok header).trans (Action.bind_error failed)

theorem ReturnFault.expected (wrong : core.ReturnFault errorClass fault) :
    fault.errorClass = errorClass ∧ (∀ name pointer, fault ≠ .pointerOutside name pointer)
      ∧ (∀ name, fault ≠ .full name) ∧ ∀ site, fault ≠ .returnOutside site := by
  cases wrong with
  | outside | nothing | arguments => simp [Fault.errorClass]
  | site _ _ wrong => cases wrong <;> simp [Fault.errorClass]
  | caller _ _ _ wrong => cases wrong <;> simp [Fault.errorClass]
  | count _ _ _ _ _ wrong => cases wrong <;> simp [Fault.errorClass]

theorem Returns.returned (passes : core.Returns site caller count) (valid : core.stack.Valid)
    {result : Value} (top : core.stack.cells[core.stack.height - 1]? = some result) :
    Returned core { core.returned result count caller with ip := site + 1 } site caller count := by
  obtain ⟨deep, above, header, -, -, -, arguments⟩ := passes
  have below := lt_pointer_iff.1 above
  have bound : core.stack.height ≤ core.stack.capacity := valid
  have room : core.fp - 2 - count < (core.stack.lowered (core.fp - 2 - count)).capacity := by
    rw [Stack.lowered_capacity]
    omega
  refine ⟨rfl, rfl, Nat.sub_add_cancel deep, ?_, ⟨result, ?_, ?_⟩, fun i other => ?_, rfl⟩
  · simp only [Stack.pointer, returned_height]
    omega
  · rw [← top]
    congr 1
    unfold Stack.pointer
    omega
  · exact Stack.pushed_cells_self result room
  · exact returned_cells core result count caller other

end Core

namespace Machine

/-- In every machine that can be reached, whatever its program has done to its
frames, a return succeeds exactly when all checks pass, and does then what it
should. Else it fails with the first check that does not pass. The loop that
drops the arguments takes at most `fp - 1` rounds. -/
theorem return_checks_its_frame (program : Program) (settings : Settings)
    (controls : List Control) (instruction : Instruction)
    (running : ((load program settings).obeyAll controls).status = .running)
    (fetched : ((load program settings).obeyAll controls).fetched? = some instruction)
    (op : instruction.opcode = .ret) :
    let m := (load program settings).obeyAll controls
    ((∃ going after, step m = .ok going after) ↔
        ∃ site caller count, m.core.Returns site caller count)
      ∧ (∀ site caller count, m.core.Returns site caller count →
        ∃ after, step m = .ok true after ∧ m.core.Returned after.core site caller count)
      ∧ (∀ errorClass fault, m.core.ReturnFault errorClass fault →
        ∃ after, step m = .error ⟨fault, m.core.ip⟩ after)
      ∧ (∀ error after, step m = .error error after →
        ∃ errorClass, m.core.ReturnFault errorClass error.fault
          ∧ error.diagnostic.errorClass = errorClass
          ∧ (∀ name pointer, error.fault ≠ .pointerOutside name pointer)
          ∧ (∀ name, error.fault ≠ .full name) ∧ ∀ site, error.fault ≠ .returnOutside site)
      ∧ (Stack.unwindCharged m.core.fp m.core.stack).2 = Stack.unwind m.core.fp m.core.stack
      ∧ (Stack.unwindCharged m.core.fp m.core.stack).1 ≤ m.core.fp - 1 := by
  intro m
  have secure : (History.of program settings controls).Secure program settings.stackSize :=
    History.secure_of controls
  have machine : (History.of program settings controls).machine = m := History.of_machine _ _ _
  have valid : m.core.stack.Valid := machine ▸ secure.bounded.valid
  have performs : Core.perform instruction m.core = Core.ret m.core := by rw [Core.perform_ret op]
  have succeeds : ∀ site caller count, m.core.Returns site caller count →
      ∃ after, step m = .ok true after ∧ m.core.Returned after.core site caller count := by
    intro site caller count passes
    obtain ⟨result, top, done⟩ := passes.ret valid
    exact ⟨_, step_of_ok running fetched (performs.trans done), passes.returned valid top⟩
  have fails : ∀ errorClass fault, m.core.ReturnFault errorClass fault →
      ∃ after, step m = .error ⟨fault, m.core.ip⟩ after := by
    intro errorClass fault wrong
    obtain ⟨core, failed⟩ := wrong.ret valid
    exact ⟨_, step_of_error running fetched (performs.trans failed)⟩
  refine ⟨⟨fun h => ?_, fun h => ?_⟩, succeeds, fails, fun error after failed => ?_,
    Stack.unwindCharged_result _ _, Stack.unwindCharged_le _ _⟩
  · obtain ⟨going, after, done⟩ := h
    obtain passes | ⟨errorClass, fault, wrong⟩ := Core.return_cases valid
    · exact passes
    · obtain ⟨after, failed⟩ := fails errorClass fault wrong
      cases done.symm.trans failed
  · obtain ⟨site, caller, count, passes⟩ := h
    obtain ⟨after, done, -⟩ := succeeds site caller count passes
    exact ⟨true, after, done⟩
  · obtain ⟨site, caller, count, passes⟩ | ⟨errorClass, fault, wrong⟩ := Core.return_cases valid
    · obtain ⟨after, done, -⟩ := succeeds site caller count passes
      cases failed.symm.trans done
    · obtain ⟨other, found⟩ := fails errorClass fault wrong
      cases failed.symm.trans found
      exact ⟨errorClass, wrong, wrong.expected⟩

def forgedCount : Program :=
  .ofInstructions #[
    ⟨.call, [.ofNat 2, .ofNat 0]⟩, ⟨.halt, []⟩, ⟨.const, [.ofNat 9007199254740991]⟩,
    ⟨.store, [.ofNat 7]⟩, ⟨.const, [.ofNat 0]⟩, ⟨.ret, []⟩]

theorem return_checks_its_frame_of_forgedCount :
    let m := (load forgedCount ⟨8, 0, false⟩).obeyAll (List.replicate 4 .step)
    m.core.fp = 2 ∧ m.core.stack.Counts (m.core.fp - 2) 9007199254740991
      ∧ (∃ after, step m = .error ⟨.empty "stack", 5⟩ after)
      ∧ (Stack.unwindCharged m.core.fp m.core.stack).1 ≤ 1 := by
  intro m
  obtain ⟨-, -, fails, -, -, rounds⟩ := return_checks_its_frame forgedCount ⟨8, 0, false⟩
    (List.replicate 4 .step) ⟨.ret, []⟩ (by decide +kernel) (by decide +kernel) rfl
  have frame : m.core.fp = 2 := by decide +kernel
  have address : m.core.ip = 5 := by decide +kernel
  have counts : ∀ i n, m.core.stack.cells[i]? = some (.ofNat n) → n < 2 ^ 53 →
      m.core.stack.Counts i n := fun i n slot small =>
    Stack.count?_eq_some.1 (Stack.count?_of_ofNat slot small)
  have first : m.core.stack.Counts m.core.fp 0 := counts _ 0 (by decide +kernel) (by decide)
  have second : m.core.stack.Counts (m.core.fp - 1) 0 :=
    counts _ 0 (by decide +kernel) (by decide)
  have third : m.core.stack.Counts (m.core.fp - 2) 9007199254740991 :=
    counts _ _ (by decide +kernel) (by decide)
  have wrong : m.core.ReturnFault .stack (.empty m.core.stack.name) :=
    .arguments (by decide +kernel) (by decide +kernel) (Nat.le_of_eq frame.symm) first second third
      (by decide +kernel)
  have named : m.core.stack.name = "stack" := by decide +kernel
  obtain ⟨after, failed⟩ := fails _ _ wrong
  refine ⟨frame, third, ⟨after, ?_⟩, ?_⟩
  · rw [← address, ← named]
    exact failed
  · exact Nat.le_trans rounds (Nat.le_of_eq (congrArg (· - 1) frame))

end Machine

end StackMachine
