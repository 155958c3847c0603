import Mathlib.Control.Monad.Basic
import StackMachine.Proofs.Returns
import StackMachine.Proofs.Variables

/-!
Stacks in use. Any operations in any order, failing or not, leave a stack whose
top lies inside of its array. `Refuses` lists when an operation fails, address
first, and a failing operation changes nothing. As long as the top is not moved
and no slot written, the values come off as from a pile: a bounded list with the
latest value in front. A store takes the value off, and a fetch from the same
address puts it back, wherever the slot of that address lies.
-/

namespace StackMachine

inductive Stack.Operation where
  | push (value : Value)
  | pop
  | popTwo
  | peek
  | setPointer (pointer : Int)
  | slot (address : Value)
  | read (address : Value)
  | write (address value : Value)
  | store (address : Value)
  | fetch (address : Value)
deriving DecidableEq

inductive Stack.Answer where
  | done
  | value (found : Value)
  | pair (left right : Value)
  | index (i : Nat)
deriving DecidableEq

namespace Stack.Operation

def perform : Operation → Action Stack Answer
  | .push value => do Stack.push value; return .done
  | .pop => do return .value (← Stack.pop)
  | .popTwo => do
      let (left, right) ← Stack.popTwo
      return .pair left right
  | .peek => do return .value (← Action.inspect Stack.peek)
  | .setPointer pointer => do Stack.setPointer pointer; return .done
  | .slot address => do return .index (← Action.inspect (Stack.slot address))
  | .read address => do return .value (← Action.inspect (Stack.read address))
  | .write address value => do Stack.write address value; return .done
  | .store address => do return .value (← Stack.store address)
  | .fetch address => do return .value (← Stack.fetch address)

def result (op : Operation) (s : Stack) : Except Fault Answer :=
  match op.perform s with
  | .ok answer _ => .ok answer
  | .error fault _ => .error fault

def after (op : Operation) (s : Stack) : Stack :=
  match op.perform s with
  | .ok _ t => t
  | .error _ t => t

def address? : Operation → Option Value
  | .slot address | .read address | .write address _ | .store address | .fetch address =>
      some address
  | _ => none

end Stack.Operation

namespace Stack

def performAll (s : Stack) (ops : List Operation) : Stack :=
  ops.foldl (fun s op => op.after s) s

variable {s t : Stack} {op : Operation} {answer : Answer} {errorClass : ErrorClass} {fault : Fault}

inductive AddressFault (s : Stack) : Value → ErrorClass → Fault → Prop where
  | fraction {x : Number} (uncounted : ∀ n, ¬ (Value.number x).IsCount n) :
      AddressFault s (.number x) .value (.notWhole "address" x)
  | other {address : Value} (kind : address.kind ≠ .number) :
      AddressFault s address .value (.notNumber "address" address.kind)
  | outside {address : Value} {n : Nat} (count : address.IsCount n) (beyond : s.capacity ≤ n) :
      AddressFault s address .stack (.addressOutside s.name n)

inductive Refuses (s : Stack) : Operation → ErrorClass → Fault → Prop where
  | push {value : Value} (full : s.live.length = s.capacity) :
      Refuses s (.push value) .stack (.full s.name)
  | pop (nothing : s.live.length = 0) : Refuses s .pop .stack (.empty s.name)
  | popTwo (few : s.live.length < 2) : Refuses s .popTwo .stack (.empty s.name)
  | peek (nothing : s.live.length = 0) : Refuses s .peek .stack (.empty s.name)
  | setPointer {pointer : Int} (outside : pointer < -1 ∨ s.capacity ≤ pointer) :
      Refuses s (.setPointer pointer) .stack (.pointerOutside s.name pointer)
  | address {op : Operation} {address : Value} {errorClass : ErrorClass} {fault : Fault}
      (given : op.address? = some address) (wrong : s.AddressFault address errorClass fault) :
      Refuses s op errorClass fault
  | store {address : Value} {n : Nat} (count : address.IsCount n) (inside : n < s.capacity)
      (nothing : s.live.length = 0) : Refuses s (.store address) .stack (.empty s.name)
  | fetch {address : Value} {n : Nat} (count : address.IsCount n) (inside : n < s.capacity)
      (full : s.live.length = s.capacity) : Refuses s (.fetch address) .stack (.full s.name)

inductive Performs (s : Stack) : Operation → Answer → Stack → Prop where
  | push {value : Value} (room : s.height < s.capacity) :
      Performs s (.push value) .done (s.pushed value)
  | pop {value : Value} (top : s.peek = .ok value) :
      Performs s .pop (.value value) (s.lowered (s.height - 1))
  | popTwo {left right : Value} (two : 2 ≤ s.height)
      (top : s.cells[s.height - 1]? = some right) (next : s.cells[s.height - 2]? = some left) :
      Performs s .popTwo (.pair left right) (s.lowered (s.height - 2))
  | peek {value : Value} (top : s.peek = .ok value) : Performs s .peek (.value value) s
  | setPointer {pointer : Int} (low : -1 ≤ pointer) (high : pointer < s.capacity) :
      Performs s (.setPointer pointer) .done (s.lowered (pointer + 1).toNat)
  | slot {address : Value} {i : Nat} (place : s.slot address = .ok i) :
      Performs s (.slot address) (.index i) s
  | read {address value : Value} (content : s.read address = .ok value) :
      Performs s (.read address) (.value value) s
  | write {address value : Value} {i : Nat} (place : s.slot address = .ok i) :
      Performs s (.write address value) .done { s with cells := s.cells.setIfInBounds i value }
  | store {address value : Value} {i : Nat} (place : s.slot address = .ok i)
      (top : s.peek = .ok value) : Performs s (.store address) (.value value) (s.stored i value)
  | fetch {address value : Value} (content : s.read address = .ok value)
      (room : s.height < s.capacity) : Performs s (.fetch address) (.value value) (s.pushed value)

theorem Performs.perform (performs : s.Performs op answer t) : op.perform s = .ok answer t := by
  cases performs with
  | @push value room => exact Action.bind_ok (push_of_lt value room)
  | pop top => exact Action.bind_ok (pop_ok top)
  | popTwo two top next => exact Action.bind_ok (popTwo_eq_ok.2 ⟨two, top, next, rfl⟩)
  | peek top => exact Action.bind_ok (Action.inspect_ok top)
  | setPointer low high => exact Action.bind_ok (if_pos ⟨low, high⟩)
  | slot place => exact Action.bind_ok (Action.inspect_ok place)
  | read content => exact Action.bind_ok (Action.inspect_ok content)
  | write place => exact Action.bind_ok (write_of_slot _ place)
  | store place top => exact Action.bind_ok (store_ok place top)
  | fetch content room => exact Action.bind_ok (fetch_ok content room)

theorem slot_of_isCount {address : Value} {n : Nat} (count : address.IsCount n)
    (inside : n < s.capacity) : s.slot address = .ok (s.capacity - n - 1) :=
  slot_eq_ok.2 ⟨n, Value.count?_eq_some.2 count, inside, rfl⟩

theorem read_of_isCount {address value : Value} {n : Nat} (count : address.IsCount n)
    (inside : n < s.capacity) (held : s.cells[s.capacity - n - 1]? = some value) :
    s.read address = .ok value :=
  read_eq_ok.2 ⟨n, Value.count?_eq_some.2 count, (content?_of_lt inside).trans held⟩

theorem exists_read {address : Value} {n : Nat} (count : address.IsCount n)
    (inside : n < s.capacity) :
    ∃ value, s.cells[s.capacity - n - 1]? = some value ∧ s.read address = .ok value := by
  have index : s.capacity - n - 1 < s.cells.size := slot_lt (slot_of_isCount count inside)
  have held := Array.getElem?_eq_getElem index
  exact ⟨_, held, read_of_isCount count inside held⟩

theorem address_cases (s : Stack) (address : Value) :
    (∃ n, address.IsCount n ∧ n < s.capacity)
      ∨ ∃ errorClass fault, s.AddressFault address errorClass fault := by
  by_cases counted : ∃ n, address.IsCount n
  · obtain ⟨n, counted⟩ := counted
    by_cases inside : n < s.capacity
    · exact .inl ⟨n, counted, inside⟩
    · exact .inr ⟨_, _, .outside counted (Nat.le_of_not_lt inside)⟩
  · right
    rw [not_exists] at counted
    cases address with
    | number x => exact ⟨_, _, .fraction counted⟩
    | nil => exact ⟨_, _, .other nofun⟩
    | text text => exact ⟨_, _, .other nofun⟩

theorem AddressFault.slot {address : Value} (wrong : s.AddressFault address errorClass fault) :
    s.slot address = .error fault := by
  cases wrong with
  | fraction uncounted =>
    simp only [Stack.slot, Value.whole_of_uncounted "address" uncounted, bind, Except.bind]
  | other kind => simp only [Stack.slot, Value.whole_of_kind "address" kind, bind, Except.bind]
  | @outside address n count beyond =>
    have whole : address.whole "address" = .ok n :=
      Value.whole_eq_ok.2 (Value.count?_eq_some.2 count)
    simp only [Stack.slot, whole, bind, Except.bind, if_neg (Nat.not_lt.2 beyond)]
    rfl

theorem AddressFault.read {address : Value} (wrong : s.AddressFault address errorClass fault) :
    s.read address = .error fault := by
  simp only [Stack.read, wrong.slot, bind, Except.bind]

theorem AddressFault.perform {address : Value} (wrong : s.AddressFault address errorClass fault)
    (given : op.address? = some address) : op.perform s = .error fault s := by
  have misplaced : Action.inspect (Stack.slot address) s = .error fault s :=
    Action.inspect_error wrong.slot
  have unread : Action.inspect (Stack.read address) s = .error fault s :=
    Action.inspect_error wrong.read
  cases op with
  | slot other =>
    cases given
    exact Action.bind_error misplaced
  | read other =>
    cases given
    exact Action.bind_error unread
  | write other value =>
    cases given
    exact Action.bind_error (Action.bind_error misplaced)
  | store other =>
    cases given
    exact Action.bind_error (Action.bind_error misplaced)
  | fetch other =>
    cases given
    exact Action.bind_error (Action.bind_error unread)
  | _ => cases given

theorem peek_of_live (valid : s.Valid) (nothing : s.live.length = 0) :
    s.peek = .error (.empty s.name) :=
  peek_of_empty ((length_live valid).symm.trans nothing)

theorem push_of_live (valid : s.Valid) (value : Value) (full : s.live.length = s.capacity) :
    push value s = .error (.full s.name) s :=
  push_of_le value (Nat.le_of_eq (full.symm.trans (length_live valid)))

theorem Refuses.perform (valid : s.Valid) (refuses : s.Refuses op errorClass fault) :
    op.perform s = .error fault s := by
  cases refuses with
  | @push value full => exact Action.bind_error (push_of_live valid value full)
  | pop nothing => exact Action.bind_error (pop_error (peek_of_live valid nothing))
  | popTwo few => exact Action.bind_error (popTwo_of_lt ((length_live valid) ▸ few))
  | peek nothing => exact Action.bind_error (Action.inspect_error (peek_of_live valid nothing))
  | setPointer outside =>
    refine Action.bind_error (if_neg fun inside => ?_)
    omega
  | address given wrong => exact wrong.perform given
  | store count inside nothing =>
    refine Action.bind_error ?_
    rw [Stack.store, Action.bind_ok (Action.inspect_ok (slot_of_isCount count inside)),
      Action.bind_error (pop_error (peek_of_live valid nothing))]
  | fetch count inside full =>
    obtain ⟨value, -, content⟩ := exists_read count inside
    refine Action.bind_error ?_
    rw [Stack.fetch, Action.bind_ok (Action.inspect_ok content),
      Action.bind_error (push_of_live valid value full)]

theorem errorClass_of_refuses (refuses : s.Refuses op errorClass fault) :
    fault.errorClass = errorClass := by
  cases refuses with
  | address given wrong => cases wrong <;> rfl
  | _ => rfl

theorem top_cases (valid : s.Valid) : s.live.length = 0 ∨ ∃ value, s.peek = .ok value := by
  rw [length_live valid]
  rcases Nat.eq_zero_or_pos s.height with empty | pos
  · exact .inl empty
  · have inside : s.height - 1 < s.cells.size :=
      Nat.lt_of_lt_of_le (Nat.sub_lt pos Nat.one_pos) valid
    exact .inr ⟨_, (peek_of_pos pos).trans (slotValue_of_lt inside)⟩

theorem room_cases (valid : s.Valid) : s.live.length = s.capacity ∨ s.height < s.capacity := by
  rw [length_live valid]
  exact Nat.eq_or_lt_of_le valid

theorem operation_cases (valid : s.Valid) (op : Operation) :
    (∃ answer t, s.Performs op answer t) ∨ ∃ errorClass fault, s.Refuses op errorClass fault := by
  cases op with
  | push value =>
    rcases room_cases valid with full | room
    · exact .inr ⟨_, _, .push full⟩
    · exact .inl ⟨_, _, .push room⟩
  | pop =>
    rcases top_cases valid with nothing | ⟨value, top⟩
    · exact .inr ⟨_, _, .pop nothing⟩
    · exact .inl ⟨_, _, .pop top⟩
  | popTwo =>
    by_cases few : s.height < 2
    · exact .inr ⟨_, _, .popTwo (by rwa [length_live valid])⟩
    · have bound : s.height ≤ s.cells.size := valid
      have top : s.height - 1 < s.cells.size := by omega
      have next : s.height - 2 < s.cells.size := by omega
      exact .inl ⟨_, _, .popTwo (Nat.le_of_not_lt few) (Array.getElem?_eq_getElem top)
        (Array.getElem?_eq_getElem next)⟩
  | peek =>
    rcases top_cases valid with nothing | ⟨value, top⟩
    · exact .inr ⟨_, _, .peek nothing⟩
    · exact .inl ⟨_, _, .peek top⟩
  | setPointer pointer =>
    by_cases inside : -1 ≤ pointer ∧ pointer < s.capacity
    · exact .inl ⟨_, _, .setPointer inside.1 inside.2⟩
    · exact .inr ⟨_, _, .setPointer (by omega)⟩
  | slot address =>
    obtain ⟨n, count, inside⟩ | ⟨errorClass, fault, wrong⟩ := s.address_cases address
    · exact .inl ⟨_, _, .slot (slot_of_isCount count inside)⟩
    · exact .inr ⟨_, _, .address rfl wrong⟩
  | read address =>
    obtain ⟨n, count, inside⟩ | ⟨errorClass, fault, wrong⟩ := s.address_cases address
    · obtain ⟨value, -, content⟩ := exists_read count inside
      exact .inl ⟨_, _, .read content⟩
    · exact .inr ⟨_, _, .address rfl wrong⟩
  | write address value =>
    obtain ⟨n, count, inside⟩ | ⟨errorClass, fault, wrong⟩ := s.address_cases address
    · exact .inl ⟨_, _, .write (slot_of_isCount count inside)⟩
    · exact .inr ⟨_, _, .address rfl wrong⟩
  | store address =>
    obtain ⟨n, count, inside⟩ | ⟨errorClass, fault, wrong⟩ := s.address_cases address
    · rcases top_cases valid with nothing | ⟨value, top⟩
      · exact .inr ⟨_, _, .store count inside nothing⟩
      · exact .inl ⟨_, _, .store (slot_of_isCount count inside) top⟩
    · exact .inr ⟨_, _, .address rfl wrong⟩
  | fetch address =>
    obtain ⟨n, count, inside⟩ | ⟨errorClass, fault, wrong⟩ := s.address_cases address
    · obtain ⟨value, -, content⟩ := exists_read count inside
      rcases room_cases valid with full | room
      · exact .inr ⟨_, _, .fetch count inside full⟩
      · exact .inl ⟨_, _, .fetch content room⟩
    · exact .inr ⟨_, _, .address rfl wrong⟩

theorem perform_eq_error (valid : s.Valid) :
    op.perform s = .error fault t ↔ (∃ errorClass, s.Refuses op errorClass fault) ∧ t = s := by
  refine ⟨fun failed => ?_, fun ⟨⟨errorClass, refuses⟩, same⟩ => ?_⟩
  · obtain ⟨answer, later, performs⟩ | ⟨errorClass, other, refuses⟩ := operation_cases valid op
    · cases failed.symm.trans performs.perform
    · cases failed.symm.trans (refuses.perform valid)
      exact ⟨⟨errorClass, refuses⟩, rfl⟩
  · rw [same]
    exact refuses.perform valid

theorem valid_pushed (value : Value) (room : s.height < s.capacity) : (s.pushed value).Valid := by
  rw [Valid, pushed_capacity]
  exact room

theorem Performs.keeps (valid : s.Valid) (performs : s.Performs op answer t) :
    t.Valid ∧ t.capacity = s.capacity ∧ t.name = s.name := by
  have bound : s.height ≤ s.capacity := valid
  cases performs with
  | @push value room => exact ⟨valid_pushed value room, pushed_capacity s value, rfl⟩
  | pop top => exact ⟨Nat.le_trans (Nat.sub_le _ _) valid, rfl, rfl⟩
  | popTwo two top next => exact ⟨Nat.le_trans (Nat.sub_le _ _) valid, rfl, rfl⟩
  | peek top => exact ⟨valid, rfl, rfl⟩
  | setPointer low high =>
    refine ⟨?_, rfl, rfl⟩
    rw [Valid, lowered_height, lowered_capacity]
    omega
  | slot place => exact ⟨valid, rfl, rfl⟩
  | read content => exact ⟨valid, rfl, rfl⟩
  | @write address value i place =>
    have size : (s.cells.setIfInBounds i value).size = s.capacity := Array.size_setIfInBounds
    exact ⟨Nat.le_trans bound (Nat.le_of_eq size.symm), size, rfl⟩
  | @store address value i place top =>
    refine ⟨?_, stored_capacity s i value, rfl⟩
    rw [Valid, stored_height, stored_capacity]
    omega
  | @fetch address value content room =>
    exact ⟨valid_pushed value room, pushed_capacity s value, rfl⟩

theorem after_cases (valid : s.Valid) (op : Operation) :
    (∃ answer, op.result s = .ok answer ∧ s.Performs op answer (op.after s))
      ∨ ∃ errorClass fault, op.result s = .error fault ∧ s.Refuses op errorClass fault
        ∧ op.after s = s := by
  obtain ⟨answer, t, performs⟩ | ⟨errorClass, fault, refuses⟩ := operation_cases valid op
  · have done := performs.perform
    simp only [Operation.result, Operation.after, done]
    exact .inl ⟨answer, rfl, performs⟩
  · have failed := refuses.perform valid
    simp only [Operation.result, Operation.after, failed]
    exact .inr ⟨errorClass, fault, rfl, refuses, trivial⟩

theorem after_keeps (valid : s.Valid) (op : Operation) :
    (op.after s).Valid ∧ (op.after s).capacity = s.capacity ∧ (op.after s).name = s.name := by
  obtain ⟨answer, -, performs⟩ | ⟨errorClass, fault, -, -, same⟩ := after_cases valid op
  · exact performs.keeps valid
  · rw [same]
    exact ⟨valid, rfl, rfl⟩

theorem performAll_keeps (valid : s.Valid) (ops : List Operation) :
    (s.performAll ops).Valid ∧ (s.performAll ops).capacity = s.capacity
      ∧ (s.performAll ops).name = s.name := by
  induction ops generalizing s with
  | nil => exact ⟨valid, rfl, rfl⟩
  | cons op ops ih =>
    obtain ⟨valid, capacity, name⟩ := after_keeps valid op
    obtain ⟨later, size, title⟩ := ih valid
    exact ⟨later, size.trans capacity, title.trans name⟩

end Stack

/-- Operations on a pile. A fetch brings what was found under its address, or the
fault that kept it from being found. -/
inductive Pile.Operation where
  | push (value : Value)
  | fetch (found : Except Fault Value)
  | pop
  | popTwo
  | peek

namespace Pile

open Stack (Answer)

def perform (name : String) (capacity : Nat) :
    Operation → List Value → Except Fault Answer × List Value
  | .push value, values =>
      if values.length < capacity then (.ok .done, value :: values)
      else (.error (.full name), values)
  | .fetch (.ok value), values =>
      if values.length < capacity then (.ok (.value value), value :: values)
      else (.error (.full name), values)
  | .fetch (.error fault), values => (.error fault, values)
  | .pop, value :: values => (.ok (.value value), values)
  | .popTwo, right :: left :: values => (.ok (.pair left right), values)
  | .peek, value :: values => (.ok (.value value), value :: values)
  | _, values => (.error (.empty name), values)

def answers (name : String) (capacity : Nat) :
    List Operation → List Value → List (Except Fault Answer)
  | [], _ => []
  | op :: ops, values =>
      (perform name capacity op values).1
        :: answers name capacity ops (perform name capacity op values).2

end Pile

namespace Stack

namespace Operation

def disturbs : Operation → Bool
  | .setPointer _ | .write _ _ | .store _ => true
  | _ => false

def onPile? (s : Stack) : Operation → Option Pile.Operation
  | .push value => some (.push value)
  | .fetch address => some (.fetch (s.read address))
  | .pop => some .pop
  | .popTwo => some .popTwo
  | .peek => some .peek
  | _ => none

end Operation

/-- The operations of a run that use the top, each with what the stack answered. -/
def pileLog (s : Stack) : List Operation → List (Pile.Operation × Except Fault Answer)
  | [] => []
  | op :: ops =>
      ((op.onPile? s).map fun used => (used, op.result s)).toList ++ (op.after s).pileLog ops

variable {s t : Stack} {op : Operation} {answer : Answer} {errorClass : ErrorClass} {fault : Fault}
  {used : Pile.Operation}

theorem reverse_live_of_peek {value : Value} (top : s.peek = .ok value) :
    s.live.reverse = value :: (s.lowered (s.height - 1)).live.reverse := by
  rw [live_of_peek top, List.reverse_concat]

theorem Performs.onPile (valid : s.Valid) (performs : s.Performs op answer t)
    (on : op.onPile? s = some used) :
    Pile.perform s.name s.capacity used s.live.reverse = (.ok answer, t.live.reverse) := by
  have length : s.live.reverse.length = s.height := by rw [List.length_reverse, length_live valid]
  cases performs with
  | @push value room =>
    cases on
    rw [Pile.perform, length, if_pos room, live_pushed value room, List.reverse_concat]
  | pop top =>
    cases on
    rw [reverse_live_of_peek top, Pile.perform]
  | @popTwo left right two top next =>
    cases on
    have above : s.peek = .ok right := peek_eq_ok.2 ⟨by omega, top⟩
    have below : (s.lowered (s.height - 1)).peek = .ok left :=
      peek_eq_ok.2 ⟨by rw [lowered_height]; omega, next⟩
    rw [reverse_live_of_peek above, reverse_live_of_peek below, Pile.perform]
    rfl
  | peek top =>
    cases on
    rw [reverse_live_of_peek top, Pile.perform]
  | @fetch address value content room =>
    cases on
    rw [content, Pile.perform, length, if_pos room, live_pushed value room, List.reverse_concat]
  | setPointer | slot | read | write | store => cases on

theorem Refuses.onPile (refuses : s.Refuses op errorClass fault)
    (on : op.onPile? s = some used) :
    Pile.perform s.name s.capacity used s.live.reverse = (.error fault, s.live.reverse) := by
  have length : s.live.reverse.length = s.live.length := List.length_reverse
  cases refuses with
  | push full =>
    cases on
    rw [Pile.perform, length, full, if_neg (Nat.lt_irrefl _)]
  | pop nothing =>
    cases on
    rw [List.eq_nil_of_length_eq_zero nothing]
    rfl
  | popTwo few =>
    cases on
    generalize s.live.reverse = values at length
    match values, length with
    | [], _ => rfl
    | [value], _ => rfl
    | _ :: _ :: _, long =>
      simp only [List.length_cons] at long
      omega
  | peek nothing =>
    cases on
    rw [List.eq_nil_of_length_eq_zero nothing]
    rfl
  | address given wrong =>
    -- of the operations that have an address only a fetch uses the top
    cases op with
    | fetch other =>
      cases given
      cases on
      rw [wrong.read, Pile.perform]
    | slot | read | write | store => cases on
    | push | pop | popTwo | peek | setPointer => cases given
  | fetch count inside full =>
    cases on
    obtain ⟨value, -, content⟩ := exists_read count inside
    rw [content, Pile.perform, length, full, if_neg (Nat.lt_irrefl _)]
  | setPointer | store => cases on

theorem after_onPile (valid : s.Valid) (on : op.onPile? s = some used) :
    Pile.perform s.name s.capacity used s.live.reverse =
      (op.result s, (op.after s).live.reverse) := by
  obtain ⟨answer, returned, performs⟩ | ⟨errorClass, fault, returned, refuses, same⟩ :=
    after_cases valid op
  · rw [returned]
    exact performs.onPile valid on
  · rw [returned, same]
    exact refuses.onPile on

theorem after_of_looking (valid : s.Valid) (off : op.onPile? s = none)
    (calm : op.disturbs = false) : op.after s = s := by
  obtain ⟨answer, -, performs⟩ | ⟨errorClass, fault, -, -, same⟩ := after_cases valid op
  · generalize op.after s = t at performs
    cases performs with
    | slot | read => rfl
    | push | pop | popTwo | peek | fetch => cases off
    | setPointer | write | store => cases calm
  · exact same

theorem pileLog_answers (valid : s.Valid) {ops : List Operation}
    (calm : ∀ op ∈ ops, op.disturbs = false) :
    (s.pileLog ops).map Prod.snd =
      Pile.answers s.name s.capacity ((s.pileLog ops).map Prod.fst) s.live.reverse := by
  induction ops generalizing s with
  | nil => rfl
  | cons op ops ih =>
    obtain ⟨first, later⟩ := List.forall_mem_cons.1 calm
    obtain ⟨kept, capacity, name⟩ := after_keeps valid op
    have rest := ih kept later
    rw [capacity, name] at rest
    cases on : op.onPile? s with
    | none =>
      rw [after_of_looking valid on first] at rest
      simpa [pileLog, on, after_of_looking valid on first] using rest
    | some used =>
      simp only [pileLog, on, Option.map_some, Option.toList_some, List.singleton_append,
        List.map_cons, Pile.answers, after_onPile valid on, rest]

/-- Whatever operations a stack has gone through, its array has kept its size and
its top lies inside. An operation fails exactly when it is to be refused, and
changes nothing then. From there on, until the top is moved or a slot written,
the stack answers as a pile that starts with the live values. -/
theorem answers_as_a_bounded_pile (name : String) (capacity : Nat) (ops : List Operation) :
    let s := (empty name capacity).performAll ops
    s.cells.size = capacity ∧ -1 ≤ s.pointer ∧ s.pointer < capacity
      ∧ (∀ (op : Operation) (fault : Fault) (t : Stack), op.perform s = .error fault t ↔
        (∃ errorClass, s.Refuses op errorClass fault) ∧ t = s)
      ∧ (∀ op errorClass fault, s.Refuses op errorClass fault → fault.errorClass = errorClass)
      ∧ ∀ segment : List Operation, (∀ op ∈ segment, op.disturbs = false) →
        (s.pileLog segment).map Prod.snd =
          Pile.answers name capacity ((s.pileLog segment).map Prod.fst) s.live.reverse := by
  intro s
  obtain ⟨valid, size, title⟩ := performAll_keeps (empty_valid name capacity) ops
  have bound : s.height ≤ s.capacity := valid
  have room : s.capacity = capacity := size.trans (empty_capacity name capacity)
  refine ⟨room, ?_, ?_, fun op fault t => perform_eq_error valid,
    fun op errorClass fault => errorClass_of_refuses, fun segment calm => ?_⟩
  · unfold pointer
    omega
  · unfold pointer
    omega
  · have answers := pileLog_answers valid calm
    rw [title, size, empty_capacity] at answers
    exact answers

def uncovered : List Operation :=
  [.push (.text "a"), .push (.text "b"), .popTwo, .setPointer 3, .setPointer 1]

theorem answers_as_a_bounded_pile_of_uncovered :
    let s := (empty "stack" 3).performAll uncovered
    let segment : List Operation :=
      [.read (.ofNat 0), .fetch (.ofNat 1), .push .nil, .fetch (.ofNat 3), .pop, .popTwo, .peek]
    let answers := Pile.answers "stack" 3 ((s.pileLog segment).map Prod.fst) [.text "b", .text "a"]
    s.pointer = 1
      ∧ (s.pileLog segment).map Prod.snd = answers
      ∧ answers = [.ok (.value (.text "b")), .error (.full "stack"),
        .error (.addressOutside "stack" 3), .ok (.value (.text "b")),
        .ok (.pair (.text "a") (.text "b")), .error (.empty "stack")] := by
  intro s segment answers
  obtain ⟨-, -, -, -, -, pile⟩ := answers_as_a_bounded_pile "stack" 3 uncovered
  have calm : ∀ op ∈ segment, op.disturbs = false := by decide
  have live : s.live.reverse = [.text "b", .text "a"] := by decide +kernel
  have answered := pile segment calm
  rw [live] at answered
  exact ⟨by decide +kernel, answered, by decide +kernel⟩

def Reached (name : String) (capacity : Nat) (s : Stack) : Prop :=
  ∃ ops, s = (empty name capacity).performAll ops

/-- A value that is stored and fetched again is back on top, so that only the slot
of its address may have changed. That slot may be the one the value was popped from. -/
theorem cells_stored_pushed {value : Value} (top : s.peek = .ok value) {i : Nat}
    (inside : i < s.capacity) (j : Nat) :
    ((s.stored i value).pushed value).cells[j]? = if j = i then some value else s.cells[j]? := by
  obtain ⟨pos, last⟩ := peek_eq_ok.1 top
  have stored : (s.stored i value).cells[j]? = if j = i then some value else s.cells[j]? := by
    split
    · rename_i here
      rw [here]
      exact Array.getElem?_setIfInBounds_self_of_lt inside
    · rename_i elsewhere
      exact Array.getElem?_setIfInBounds_ne (Ne.symm elsewhere)
  by_cases above : j = s.height - 1
  · have room : (s.stored i value).height < (s.stored i value).capacity := by
      rw [stored_height, stored_capacity]
      exact (Array.getElem?_eq_some_iff.1 last).1
    have pushed : ((s.stored i value).pushed value).cells[s.height - 1]? = some value :=
      pushed_cells_self value room
    rw [above, pushed, last, ite_self]
  · rw [pushed_cells_of_ne value above, stored]

theorem fetch_stored {address value : Value} {n : Nat} (top : s.peek = .ok value)
    (count : address.IsCount n) (inside : n < s.capacity) :
    fetch address (s.stored (s.capacity - n - 1) value) =
      .ok value ((s.stored (s.capacity - n - 1) value).pushed value) := by
  obtain ⟨pos, last⟩ := peek_eq_ok.1 top
  have place := slot_lt (slot_of_isCount count inside)
  generalize slot : s.capacity - n - 1 = i at place
  have capacity := stored_capacity s i value
  have held : (s.stored i value).cells[(s.stored i value).capacity - n - 1]? = some value := by
    rw [capacity, slot]
    exact Array.getElem?_setIfInBounds_self_of_lt place
  -- the store has popped a value, so the fetch finds room
  refine fetch_ok (read_of_isCount count (capacity.symm ▸ inside) held) ?_
  rw [stored_height, capacity]
  exact (Array.getElem?_eq_some_iff.1 last).1

theorem read_alike {address : Value} {n : Nat} (count : address.IsCount n)
    (inside : n < s.capacity) (capacity : t.capacity = s.capacity)
    (same : t.cells[s.capacity - n - 1]? = s.cells[s.capacity - n - 1]?) :
    ∃ content, s.read address = .ok content ∧ t.read address = .ok content := by
  obtain ⟨content, held, found⟩ := exists_read count inside
  refine ⟨content, found, read_of_isCount count (capacity.symm ▸ inside) ?_⟩
  rw [capacity, same, held]

/-- Right after a store to an address, a fetch from it gives the value back. The
top is where it was, and no slot has changed but that of the address, so that
all other addresses hold what they held. -/
theorem fetch_returns_what_was_stored {name : String} {capacity : Nat} {s : Stack}
    (reached : s.Reached name capacity) (live : s.live ≠ []) {address : Value} {n : Nat}
    (count : address.IsCount n) (inside : n < capacity) :
    ∃ value stored fetched, s.live.getLast? = some value
      ∧ store address s = .ok value stored ∧ stored.pointer = s.pointer - 1
      ∧ fetch address stored = .ok value fetched ∧ fetched.live = stored.live ++ [value]
      ∧ fetched.pointer = s.pointer ∧ fetched.cells.size = s.cells.size
      ∧ fetched.cells[capacity - n - 1]? = some value
      ∧ (∀ i, i ≠ capacity - n - 1 → fetched.cells[i]? = s.cells[i]?)
      ∧ ∀ other m, other.IsCount m → m < capacity → m ≠ n →
        ∃ content, s.read other = .ok content ∧ fetched.read other = .ok content := by
  obtain ⟨ops, rfl⟩ := reached
  obtain ⟨valid, size, -⟩ := performAll_keeps (empty_valid name capacity) ops
  generalize (empty name capacity).performAll ops = s at live valid size
  rw [empty_capacity] at size
  subst size
  obtain ⟨value, top⟩ := (top_cases valid).resolve_left (mt List.eq_nil_of_length_eq_zero live)
  have pos := (peek_eq_ok.1 top).1
  have place := slot_of_isCount count inside
  have cells := cells_stored_pushed top (slot_lt place)
  have fetched := fetch_stored top count inside
  have kept : ((s.stored (s.capacity - n - 1) value).pushed value).capacity = s.capacity := by
    rw [pushed_capacity, stored_capacity]
  refine ⟨value, _, _, ?_, store_ok place top, ?_, fetched, live_pushed value ?_, ?_, kept, ?_,
    fun i elsewhere => ?_, fun other m counted within distinct => ?_⟩
  · rw [live_of_peek top, List.getLast?_concat]
  · unfold pointer
    simp only
    omega
  · exact (fetch_eq_ok.1 fetched).2.1
  · unfold pointer
    rw [pushed_height, stored_height]
    omega
  · rw [cells, if_pos rfl]
  · rw [cells, if_neg elsewhere]
  · refine read_alike counted within kept ?_
    rw [cells, if_neg]
    omega

theorem fetch_returns_what_was_stored_of_uncovered :
    let s := (empty "stack" 3).performAll uncovered
    s.cells = #[.text "a", .text "b", .nil] ∧ s.pointer = 1
      ∧ ∃ stored fetched, store (.ofNat 2) s = .ok (.text "b") stored
        ∧ fetch (.ofNat 2) stored = .ok (.text "b") fetched ∧ fetched.pointer = 1
        ∧ fetched.cells[0]? = some (.text "b") ∧ fetched.cells[1]? = some (.text "b") := by
  intro s
  have count : (Value.ofNat 2).IsCount 2 := Value.count?_eq_some.1 (Value.count?_ofNat (by decide))
  have live : s.live = [.text "a", .text "b"] := by decide +kernel
  have cells : s.cells = #[.text "a", .text "b", .nil] := by decide +kernel
  have pointer : s.pointer = 1 := by decide +kernel
  obtain ⟨value, stored, fetched, last, took, -, gave, -, top, -, slot, others, -⟩ :=
    fetch_returns_what_was_stored ⟨uncovered, rfl⟩ (live ▸ List.cons_ne_nil _ _) count
      (Nat.lt_succ_self 2)
  obtain rfl : .text "b" = value := Option.some.inj ((congrArg List.getLast? live).symm.trans last)
  have other : fetched.cells[1]? = s.cells[1]? := others 1 (by decide)
  rw [cells] at other
  exact ⟨cells, pointer, stored, fetched, took, gave, top.trans pointer, slot, other⟩

end Stack

end StackMachine
