import StackMachine.Machine.Core

/-!
The operations of a stack read backwards: what a result says about the stack
that was there. Each operation has one equivalence for its success. Popping
never touches a slot, so a stack that has only been popped is the old one at a
lower height, written `s.lowered height`.
-/

namespace StackMachine

namespace Action

variable {σ α β : Type}

theorem inspect_eq_ok {look : σ → Except Fault α} {s t : σ} {a : α} :
    inspect look s = .ok a t ↔ look s = .ok a ∧ t = s := by
  cases found : look s with
  | ok b => simp [inspect_ok found, eq_comm]
  | error fault => simp [inspect_error found]

theorem inspect_eq_error {look : σ → Except Fault α} {s t : σ} {fault : Fault} :
    inspect look s = .error fault t ↔ look s = .error fault ∧ t = s := by
  cases found : look s with
  | ok b => simp [inspect_ok found]
  | error fault => simp [inspect_error found, eq_comm]

theorem check_eq_ok {result : Except Fault α} {s t : σ} {a : α} :
    check result s = .ok a t ↔ result = .ok a ∧ t = s :=
  inspect_eq_ok

theorem check_eq_error {result : Except Fault α} {s t : σ} {fault : Fault} :
    check result s = .error fault t ↔ result = .error fault ∧ t = s :=
  inspect_eq_error

theorem pure_eq_ok {s t : σ} {a b : α} :
    (pure a : Action σ α) s = .ok b t ↔ b = a ∧ t = s := by
  refine ⟨fun h => ?_, fun h => ?_⟩
  · cases h
    exact ⟨rfl, rfl⟩
  · obtain ⟨rfl, rfl⟩ := h
    rfl

theorem pure_ne_error {s t : σ} {a : α} {fault : Fault} :
    (pure a : Action σ α) s ≠ .error fault t := nofun

theorem bind_eq_ok {x : Action σ α} {f : α → Action σ β} {s u : σ} {b : β} :
    (x >>= f) s = .ok b u ↔ ∃ a t, x s = .ok a t ∧ f a t = .ok b u := by
  cases first : x s with
  | ok a t => simp [bind_ok first, and_assoc]
  | error fault t => simp [bind_error first]

theorem bind_eq_error {x : Action σ α} {f : α → Action σ β} {s u : σ} {fault : Fault} :
    (x >>= f) s = .error fault u ↔
      x s = .error fault u ∨ ∃ a t, x s = .ok a t ∧ f a t = .error fault u := by
  cases first : x s with
  | ok a t => simp [bind_ok first, and_assoc]
  | error fault t => simp [bind_error first]

end Action

namespace Value

def count? : Value → Option Nat
  | .number n => n.whole?
  | _ => none

theorem whole_eq_ok {what : String} {value : Value} {n : Nat} :
    value.whole what = .ok n ↔ value.count? = some n := by
  cases value with
  | number x => cases found : x.whole? <;> simp [whole, count?, found]
  | nil => simp [whole, count?]
  | text s => simp [whole, count?]

theorem count?_ofNat {n : Nat} (h : n < Number.wholeLimit) : (ofNat n).count? = some n :=
  Number.whole?_ofNat h

theorem count?_lt {value : Value} {n : Nat} (h : value.count? = some n) : n < Number.wholeLimit :=
  @whole_lt "" value n (whole_eq_ok.2 h)

end Value

namespace Stack

def lowered (s : Stack) (height : Nat) : Stack :=
  { s with height }

@[simp] theorem lowered_height (s : Stack) (height : Nat) : (s.lowered height).height = height := rfl

@[simp] theorem lowered_cells (s : Stack) (height : Nat) : (s.lowered height).cells = s.cells := rfl

@[simp] theorem lowered_capacity (s : Stack) (height : Nat) :
    (s.lowered height).capacity = s.capacity := rfl

@[simp] theorem lowered_self (s : Stack) : s.lowered s.height = s := rfl

@[simp] theorem lowered_lowered (s : Stack) (first second : Nat) :
    (s.lowered first).lowered second = s.lowered second := rfl

@[simp] theorem pushed_height (s : Stack) (value : Value) :
    (s.pushed value).height = s.height + 1 := rfl

theorem pushed_cells_self {s : Stack} (value : Value) (h : s.height < s.capacity) :
    (s.pushed value).cells[s.height]? = some value :=
  Array.getElem?_setIfInBounds_self_of_lt h

theorem pushed_cells_of_ne {s : Stack} (value : Value) {i : Nat} (h : i ≠ s.height) :
    (s.pushed value).cells[i]? = s.cells[i]? :=
  Array.getElem?_setIfInBounds_ne h.symm

theorem slotValue_eq_ok {s : Stack} {i : Nat} {value : Value} :
    s.slotValue i = .ok value ↔ s.cells[i]? = some value := by
  unfold slotValue
  cases s.cells[i]? <;> simp

theorem slotValue_ne_error {s : Stack} {i : Nat} {fault : Fault} (h : i < s.capacity) :
    s.slotValue i ≠ .error fault := by
  rw [slotValue_of_lt h]
  nofun

theorem peek_eq_ok {s : Stack} {value : Value} :
    s.peek = .ok value ↔ 0 < s.height ∧ s.cells[s.height - 1]? = some value := by
  rcases Nat.eq_zero_or_pos s.height with empty | pos
  · simp [peek_of_empty empty, empty]
  · rw [peek_of_pos pos, slotValue_eq_ok]
    simp [pos]

theorem live_of_peek {s : Stack} {value : Value} (top : s.peek = .ok value) :
    s.live = (s.lowered (s.height - 1)).live ++ [value] := by
  obtain ⟨pos, last⟩ := peek_eq_ok.1 top
  have height : s.height = s.height - 1 + 1 := by omega
  rw [live, height, List.take_add_one, Array.getElem?_toList, last]
  rfl

theorem push_eq_ok {s t : Stack} {value : Value} {u : Unit} :
    push value s = .ok u t ↔ s.height < s.capacity ∧ t = s.pushed value := by
  by_cases room : s.height < s.capacity
  · simp [push_of_lt value room, room, eq_comm]
  · simp [push_of_le value (Nat.le_of_not_lt room), room]

theorem pop_eq_ok {s t : Stack} {value : Value} :
    pop s = .ok value t ↔ s.peek = .ok value ∧ t = s.lowered (s.height - 1) := by
  cases top : s.peek with
  | ok found => simp [pop_ok top, lowered, eq_comm]
  | error fault => simp [pop_error top]

theorem requireTwo_eq_ok {s : Stack} {u : Unit} : s.requireTwo = .ok u ↔ 2 ≤ s.height := by
  unfold requireTwo
  split <;> simp <;> omega

theorem popTwo_eq_ok {s t : Stack} {left right : Value} :
    popTwo s = .ok (left, right) t ↔
      2 ≤ s.height ∧ s.cells[s.height - 1]? = some right ∧ s.cells[s.height - 2]? = some left
        ∧ t = s.lowered (s.height - 2) := by
  refine ⟨fun h => ?_, fun h => ?_⟩
  · simp only [popTwo, Action.bind_eq_ok, Action.inspect_eq_ok, requireTwo_eq_ok, pop_eq_ok,
      peek_eq_ok, Action.pure_eq_ok] at h
    obtain ⟨-, t₀, ⟨two, rfl⟩, r, t₁, ⟨⟨-, top⟩, rfl⟩, l, t₂, ⟨⟨-, next⟩, rfl⟩, pair, rfl⟩ := h
    cases pair
    exact ⟨two, top, next, rfl⟩
  · obtain ⟨two, top, next, rfl⟩ := h
    exact popTwo_of_le two (slotValue_eq_ok.2 top) (slotValue_eq_ok.2 next)

theorem writeSlot_eq_ok {s t : Stack} {i : Nat} {value : Value} {u : Unit} :
    writeSlot i value s = .ok u t ↔
      i < s.capacity ∧ t = { s with cells := s.cells.setIfInBounds i value } := by
  by_cases inside : i < s.capacity
  · simp [writeSlot_of_lt value inside, inside, eq_comm]
  · simp [writeSlot, inside]

def count? (s : Stack) (i : Nat) : Option Nat :=
  s.cells[i]?.bind Value.count?

@[simp] theorem lowered_count? (s : Stack) (height i : Nat) :
    (s.lowered height).count? i = s.count? i := rfl

theorem count?_of_ofNat {s : Stack} {i n : Nat} (slot : s.cells[i]? = some (.ofNat n))
    (h : n < Number.wholeLimit) : s.count? i = some n := by
  rw [count?, slot]
  exact Value.count?_ofNat h

theorem count?_lt {s : Stack} {i n : Nat} (h : s.count? i = some n) : n < Number.wholeLimit := by
  obtain ⟨value, -, found⟩ := Option.bind_eq_some_iff.1 h
  exact Value.count?_lt found

theorem popWhole_eq_ok {s t : Stack} {what : String} {n : Nat} :
    popWhole what s = .ok n t ↔
      0 < s.height ∧ s.count? (s.height - 1) = some n ∧ t = s.lowered (s.height - 1) := by
  simp only [popWhole, Action.bind_eq_ok, pop_eq_ok, peek_eq_ok, Action.check_eq_ok,
    Value.whole_eq_ok, count?, Option.bind_eq_some_iff]
  refine ⟨fun h => ?_, fun h => ?_⟩
  · obtain ⟨value, t, ⟨⟨pos, top⟩, rfl⟩, whole, rfl⟩ := h
    exact ⟨pos, ⟨value, top, whole⟩, rfl⟩
  · obtain ⟨pos, ⟨value, top, whole⟩, rfl⟩ := h
    exact ⟨value, _, ⟨⟨pos, top⟩, rfl⟩, whole, rfl⟩

theorem drop_eq_ok {s t : Stack} {count : Nat} {u : Unit} (valid : s.Valid) :
    drop count s = .ok u t ↔ count ≤ s.height ∧ t = s.lowered (s.height - count) := by
  induction count generalizing s with
  | zero => simp [drop, Action.pure_eq_ok]
  | succ count ih =>
    have lower : (s.lowered (s.height - 1)).Valid := Nat.le_trans (Nat.sub_le _ _) valid
    simp only [drop, Action.bind_eq_ok, pop_eq_ok, peek_eq_ok]
    refine ⟨fun h => ?_, fun h => ?_⟩
    · obtain ⟨value, t, ⟨⟨pos, top⟩, rfl⟩, rest⟩ := h
      obtain ⟨enough, rfl⟩ := (ih lower).1 rest
      simp only [lowered_height, lowered_lowered] at enough ⊢
      exact ⟨by omega, by rw [Nat.sub_sub, Nat.add_comm]⟩
    · obtain ⟨enough, rfl⟩ := h
      have inside : s.height - 1 < s.cells.size := by
        have bound : s.height ≤ s.cells.size := valid
        omega
      refine ⟨s.cells[s.height - 1], _, ⟨⟨by omega, Array.getElem?_eq_getElem inside⟩, rfl⟩, ?_⟩
      refine (ih lower).2 ⟨by simp only [lowered_height]; omega, ?_⟩
      simp only [lowered_height, lowered_lowered, Nat.sub_sub, Nat.add_comm]

theorem setPointer_eq_ok {s t : Stack} {frame : Nat} {u : Unit} :
    setPointer frame s = .ok u t ↔ frame < s.capacity ∧ t = s.lowered (frame + 1) := by
  have height : ((frame : Int) + 1).toNat = frame + 1 := by omega
  by_cases inside : frame < s.capacity
  · have range : (-1 : Int) ≤ frame ∧ (frame : Int) < s.capacity := by omega
    simp [setPointer, range, inside, height, lowered, eq_comm]
  · simp [setPointer, inside]

/-- A frame below the topmost value is closed exactly when its header holds
three counts and the arguments lie below the header. -/
theorem unwind_eq_ok {s t : Stack} {frame site caller : Nat} (below : frame + 1 < s.height) :
    unwind frame s = .ok (site, caller) t ↔
      ∃ result count, s.cells[s.height - 1]? = some result ∧ s.count? frame = some site
        ∧ s.count? (frame - 1) = some caller ∧ s.count? (frame - 2) = some count
        ∧ count + 2 ≤ frame ∧ t = (s.lowered (frame - 2 - count)).pushed result := by
  simp only [unwind, Action.bind_eq_ok, pop_eq_ok, peek_eq_ok, setPointer_eq_ok, popWhole_eq_ok,
    push_eq_ok, Action.pure_eq_ok]
  refine ⟨fun h => ?_, fun h => ?_⟩
  · obtain ⟨result, t₀, ⟨⟨-, top⟩, rfl⟩, -, t₁, ⟨inside, rfl⟩, site', t₂, ⟨-, hsite, rfl⟩,
      caller', t₃, ⟨-, hcaller, rfl⟩, count, t₄, ⟨three, hcount, rfl⟩, u, t₅, hdrop,
      -, t₆, ⟨-, rfl⟩, pair, rfl⟩ := h
    cases pair
    simp only [lowered_height, lowered_capacity, lowered_lowered, lowered_count?] at *
    have valid : (s.lowered (frame + 1 - 1 - 1 - 1)).Valid := by
      show frame + 1 - 1 - 1 - 1 ≤ s.capacity
      omega
    obtain ⟨enough, rfl⟩ := (drop_eq_ok valid).1 hdrop
    simp only [lowered_height, lowered_lowered] at *
    exact ⟨result, count, top, hsite, hcaller, hcount, by omega, rfl⟩
  · obtain ⟨result, count, top, hsite, hcaller, hcount, enough, rfl⟩ := h
    have inside : s.height - 1 < s.cells.size := (Array.getElem?_eq_some_iff.1 top).1
    have bound : s.height ≤ s.capacity := by
      show s.height ≤ s.cells.size
      omega
    have valid : (s.lowered (frame - 2)).Valid := by
      show frame - 2 ≤ s.capacity
      omega
    refine ⟨result, _, ⟨⟨by omega, top⟩, rfl⟩, (), _, ⟨by simp only [lowered_capacity]; omega, rfl⟩,
      site, _, ⟨by simp, hsite, rfl⟩, caller, _, ⟨by simp; omega, hcaller, rfl⟩,
      count, _, ⟨by simp; omega, hcount, rfl⟩, (), _, (drop_eq_ok valid).2 ⟨by simp; omega, rfl⟩,
      (), _, ⟨by simp; omega, rfl⟩, rfl, rfl⟩

theorem pushHeader_eq_ok {s t : Stack} {count caller site : Nat} {u : Unit}
    (room : s.height + 3 ≤ s.capacity) :
    pushHeader count caller site s = .ok u t ↔
      t = ((s.pushed (.ofNat count)).pushed (.ofNat caller)).pushed (.ofNat site) := by
  simp only [pushHeader, Action.bind_eq_ok, push_eq_ok]
  refine ⟨fun h => ?_, fun h => ?_⟩
  · obtain ⟨-, t₀, ⟨-, rfl⟩, -, t₁, ⟨-, rfl⟩, -, rfl⟩ := h
    rfl
  · obtain rfl := h
    have first := s.pushed_capacity (.ofNat count)
    have second := (s.pushed (.ofNat count)).pushed_capacity (.ofNat caller)
    exact ⟨(), _, ⟨by omega, rfl⟩, (), _, ⟨by simp; omega, rfl⟩, by simp; omega, rfl⟩

def stored (s : Stack) (i : Nat) (value : Value) : Stack :=
  { s with cells := s.cells.setIfInBounds i value, height := s.height - 1 }

@[simp] theorem stored_height (s : Stack) (i : Nat) (value : Value) :
    (s.stored i value).height = s.height - 1 := rfl

@[simp] theorem stored_capacity (s : Stack) (i : Nat) (value : Value) :
    (s.stored i value).capacity = s.capacity :=
  Array.size_setIfInBounds

theorem store_eq_ok {s t : Stack} {address value : Value} :
    store address s = .ok value t ↔
      ∃ i, s.slot address = .ok i ∧ s.peek = .ok value ∧ t = s.stored i value := by
  simp only [store, Action.bind_eq_ok, Action.inspect_eq_ok, pop_eq_ok, writeSlot_eq_ok,
    Action.pure_eq_ok]
  refine ⟨fun h => ?_, fun h => ?_⟩
  · obtain ⟨i, t₀, ⟨place, rfl⟩, found, t₁, ⟨top, rfl⟩, -, t₂, ⟨-, rfl⟩, rfl, rfl⟩ := h
    exact ⟨i, place, top, rfl⟩
  · obtain ⟨i, place, top, rfl⟩ := h
    exact ⟨i, s, ⟨place, rfl⟩, value, _, ⟨top, rfl⟩, (), _, ⟨slot_lt place, rfl⟩, rfl, rfl⟩

theorem fetch_eq_ok {s t : Stack} {address value : Value} :
    fetch address s = .ok value t ↔
      s.read address = .ok value ∧ s.height < s.capacity ∧ t = s.pushed value := by
  simp only [fetch, Action.bind_eq_ok, Action.inspect_eq_ok, push_eq_ok, Action.pure_eq_ok]
  refine ⟨fun h => ?_, fun h => ?_⟩
  · obtain ⟨found, t₀, ⟨content, rfl⟩, -, t₁, ⟨room, rfl⟩, rfl, rfl⟩ := h
    exact ⟨content, room, rfl⟩
  · obtain ⟨content, room, rfl⟩ := h
    exact ⟨value, s, ⟨content, rfl⟩, (), _, ⟨room, rfl⟩, rfl, rfl⟩

theorem write_eq_ok {s t : Stack} {address value : Value} {u : Unit} :
    write address value s = .ok u t ↔
      ∃ i, s.slot address = .ok i ∧ t = { s with cells := s.cells.setIfInBounds i value } := by
  simp only [write, Action.bind_eq_ok, Action.inspect_eq_ok, writeSlot_eq_ok]
  refine ⟨fun h => ?_, fun h => ?_⟩
  · obtain ⟨i, t₀, ⟨place, rfl⟩, -, rfl⟩ := h
    exact ⟨i, place, rfl⟩
  · obtain ⟨i, place, rfl⟩ := h
    exact ⟨i, s, ⟨place, rfl⟩, slot_lt place, rfl⟩

end Stack

end StackMachine
