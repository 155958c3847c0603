import StackMachine.Action

/-!
Stacks of fixed capacity. Values are pushed from slot zero upward, and popping
only lowers the height, so slots above the top keep what they held. Addresses
count slots from the far end, so that one array serves a growing stack and a
block of variables.
-/

namespace StackMachine

structure Stack where
  name : String
  cells : Array Value
  height : Nat
deriving DecidableEq

namespace Stack

def empty (name : String) (capacity : Nat) : Stack :=
  ⟨name, Array.replicate capacity .nil, 0⟩

def capacity (s : Stack) : Nat :=
  s.cells.size

def Valid (s : Stack) : Prop :=
  s.height ≤ s.capacity

theorem empty_capacity (name : String) (capacity : Nat) :
    (empty name capacity).capacity = capacity :=
  Array.size_replicate

theorem empty_valid (name : String) (capacity : Nat) : (empty name capacity).Valid :=
  Nat.zero_le _

/-- Index of the top slot, `-1` when there is none. -/
def pointer (s : Stack) : Int :=
  s.height - 1

def isEmpty (s : Stack) : Bool :=
  s.height == 0

def isFull (s : Stack) : Bool :=
  s.capacity ≤ s.height

def live (s : Stack) : List Value :=
  s.cells.toList.take s.height

theorem length_live {s : Stack} (h : s.Valid) : s.live.length = s.height := by
  rw [live, List.length_take, Array.length_toList]
  exact Nat.min_eq_left h

def slotValue (s : Stack) (index : Nat) : Except Fault Value :=
  match s.cells[index]? with
  | some value => .ok value
  | none => .error (.slotOutside s.name index)

theorem slotValue_of_lt {s : Stack} {index : Nat} (h : index < s.cells.size) :
    s.slotValue index = .ok s.cells[index] := by
  simp only [slotValue, Array.getElem?_eq_getElem h]

def peek (s : Stack) : Except Fault Value :=
  if s.height = 0 then .error (.empty s.name) else s.slotValue (s.height - 1)

theorem peek_of_empty {s : Stack} (h : s.height = 0) : s.peek = .error (.empty s.name) :=
  if_pos h

theorem peek_of_pos {s : Stack} (h : 0 < s.height) : s.peek = s.slotValue (s.height - 1) :=
  if_neg (Nat.ne_of_gt h)

def slot (address : Value) (s : Stack) : Except Fault Nat := do
  let place ← address.whole "address"
  if place < s.capacity then
    return s.capacity - place - 1
  else
    throw (.addressOutside s.name place)

theorem slot_eq_ok_iff {s : Stack} {address : Value} {index : Nat} :
    s.slot address = .ok index ↔
      ∃ place, address.whole "address" = .ok place ∧ place < s.capacity
        ∧ index = s.capacity - place - 1 := by
  cases h : address.whole "address" with
  | error fault => simp [slot, h, bind, Except.bind]
  | ok place =>
      by_cases hlt : place < s.capacity
      · simp [slot, h, bind, Except.bind, hlt, pure, Except.pure, eq_comm]
      · simp [slot, h, bind, Except.bind, hlt, throw, throwThe, MonadExceptOf.throw]

theorem slot_lt {s : Stack} {address : Value} {index : Nat} (h : s.slot address = .ok index) :
    index < s.capacity := by
  obtain ⟨place, -, hlt, rfl⟩ := slot_eq_ok_iff.1 h
  omega

def read (address : Value) (s : Stack) : Except Fault Value := do
  s.slotValue (← s.slot address)

def pushed (s : Stack) (value : Value) : Stack :=
  { s with cells := s.cells.setIfInBounds s.height value, height := s.height + 1 }

def push (value : Value) : Action Stack Unit := fun s =>
  if s.height < s.capacity then .ok () (s.pushed value) else .error (.full s.name) s

theorem push_of_lt {s : Stack} (value : Value) (h : s.height < s.capacity) :
    push value s = .ok () (s.pushed value) :=
  if_pos h

theorem push_of_le {s : Stack} (value : Value) (h : s.capacity ≤ s.height) :
    push value s = .error (.full s.name) s :=
  if_neg (Nat.not_lt.2 h)

theorem pushed_capacity (s : Stack) (value : Value) : (s.pushed value).capacity = s.capacity :=
  Array.size_setIfInBounds

theorem live_pushed {s : Stack} (value : Value) (h : s.height < s.capacity) :
    (s.pushed value).live = s.live ++ [value] := by
  have hlen : s.height < s.cells.toList.length := by rwa [Array.length_toList]
  simp only [live, pushed, Array.toList_setIfInBounds]
  rw [List.take_add_one, List.take_set_of_le (Nat.le_refl _), List.getElem?_set_self hlen]
  rfl

def pop : Action Stack Value := fun s =>
  match s.peek with
  | .ok value => .ok value { s with height := s.height - 1 }
  | .error fault => .error fault s

theorem pop_ok {s : Stack} {value : Value} (h : s.peek = .ok value) :
    pop s = .ok value { s with height := s.height - 1 } := by
  simp only [pop, h]

theorem pop_error {s : Stack} {fault : Fault} (h : s.peek = .error fault) :
    pop s = .error fault s := by
  simp only [pop, h]

def requireTwo (s : Stack) : Except Fault Unit :=
  if s.height < 2 then .error (.empty s.name) else .ok ()

/-- Pops two values, the one pushed first in front; pops nothing unless both are there. -/
def popTwo : Action Stack (Value × Value) := do
  Action.inspect requireTwo
  let right ← pop
  let left ← pop
  return (left, right)

theorem popTwo_of_lt {s : Stack} (h : s.height < 2) : popTwo s = .error (.empty s.name) s :=
  Action.bind_error (Action.inspect_error (if_pos h))

theorem popTwo_of_le {s : Stack} {left right : Value} (h : 2 ≤ s.height)
    (hright : s.slotValue (s.height - 1) = .ok right)
    (hleft : s.slotValue (s.height - 2) = .ok left) :
    popTwo s = .ok (left, right) { s with height := s.height - 2 } := by
  have hneeded : requireTwo s = .ok () := if_neg (Nat.not_lt.2 h)
  have htop : s.peek = .ok right := by rw [peek_of_pos (by omega), hright]
  have hnext : ({ s with height := s.height - 1 } : Stack).peek = .ok left := by
    rw [peek_of_pos (by simp only; omega)]
    exact hleft
  unfold popTwo
  rw [Action.bind_ok (Action.inspect_ok hneeded), Action.bind_ok (pop_ok htop),
    Action.bind_ok (pop_ok hnext)]
  rfl

def setPointer (pointer : Int) : Action Stack Unit := fun s =>
  if -1 ≤ pointer ∧ pointer < s.capacity then
    .ok () { s with height := (pointer + 1).toNat }
  else
    .error (.pointerOutside s.name pointer) s

def writeSlot (index : Nat) (value : Value) : Action Stack Unit := fun s =>
  if index < s.capacity then
    .ok () { s with cells := s.cells.setIfInBounds index value }
  else
    .error (.slotOutside s.name index) s

theorem writeSlot_of_lt {s : Stack} {index : Nat} (value : Value) (h : index < s.capacity) :
    writeSlot index value s = .ok () { s with cells := s.cells.setIfInBounds index value } :=
  if_pos h

def write (address : Value) (value : Value) : Action Stack Unit := do
  let index ← Action.inspect (slot address)
  writeSlot index value

def store (address : Value) : Action Stack Value := do
  let index ← Action.inspect (slot address)
  let value ← pop
  writeSlot index value
  return value

theorem store_ok {s : Stack} {address value : Value} {index : Nat}
    (hslot : s.slot address = .ok index) (htop : s.peek = .ok value) :
    store address s =
      .ok value { s with cells := s.cells.setIfInBounds index value, height := s.height - 1 } := by
  have hlt : index < ({ s with height := s.height - 1 } : Stack).capacity := slot_lt hslot
  unfold store
  rw [Action.bind_ok (Action.inspect_ok hslot), Action.bind_ok (pop_ok htop),
    Action.bind_ok (writeSlot_of_lt value hlt)]
  rfl

def fetch (address : Value) : Action Stack Value := do
  let value ← Action.inspect (read address)
  push value
  return value

theorem fetch_ok {s : Stack} {address value : Value} (hread : s.read address = .ok value)
    (h : s.height < s.capacity) : fetch address s = .ok value (s.pushed value) := by
  unfold fetch
  rw [Action.bind_ok (Action.inspect_ok hread), Action.bind_ok (push_of_lt value h)]
  rfl

def drop : Nat → Action Stack Unit
  | 0 => pure ()
  | count + 1 => do
      let _ ← pop
      drop count

def quoted (s : Stack) : String :=
  "[" ++ ", ".intercalate (s.live.map Value.quoted) ++ "]"

end Stack

end StackMachine
