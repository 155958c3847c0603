import StackMachine.Arithmetic
import StackMachine.Instruction
import StackMachine.Stack

/-!
The core of the machine: its registers and its storage, and what one
instruction does to them. A call puts a header of three values on the stack,
from the bottom the number of arguments, the caller's frame and the address of
the call, and the frame register addresses the last of them. A return takes the
result, unwinds to that header, drops it with the arguments below it, and puts
the result in their place.
-/

namespace StackMachine

structure Core where
  ip : Nat
  /-- Slot of the innermost frame's call address; zero outside of calls. -/
  fp : Nat
  depth : Nat
  stack : Stack
  globals : Stack
deriving DecidableEq

inductive Flow where
  | next
  | jump (target : Nat)
  | halt
deriving DecidableEq, Repr

structure Effect where
  flow : Flow
  printed : Option String := none
deriving DecidableEq, Repr

def addressLimit : Nat := 2 ^ 64

def globalsSize : Nat := 512

namespace Stack

def popWhole (what : String) : Action Stack Nat := do
  let value ← pop
  Action.check (value.whole what)

/-- Closes the frame whose header ends in slot `frame`, and returns the address
of its call and the caller's frame. -/
def unwind (frame : Nat) : Action Stack (Nat × Nat) := do
  let result ← pop
  setPointer frame
  let site ← popWhole "return address"
  let caller ← popWhole "frame pointer"
  let count ← popWhole "argument count"
  drop count
  push result
  return (site, caller)

def pushHeader (count caller site : Nat) : Action Stack Unit := do
  push (.ofNat count)
  push (.ofNat caller)
  push (.ofNat site)

end Stack

namespace Core

def start (stackSize entry : Nat) : Core :=
  ⟨entry, 0, 0, .empty "stack" stackSize, .empty "globals" globalsSize⟩

def onStack {α : Type} (action : Action Stack α) : Action Core α
  | ⟨ip, fp, depth, stack, globals⟩ =>
      match action stack with
      | .ok a stack => .ok a ⟨ip, fp, depth, stack, globals⟩
      | .error fault stack => .error fault ⟨ip, fp, depth, stack, globals⟩

theorem onStack_ok {α : Type} {action : Action Stack α} {core : Core} {a : α} {t : Stack}
    (h : action core.stack = .ok a t) : onStack action core = .ok a { core with stack := t } := by
  simp only [onStack, h]

theorem onStack_error {α : Type} {action : Action Stack α} {core : Core} {fault : Fault}
    {t : Stack} (h : action core.stack = .error fault t) :
    onStack action core = .error fault { core with stack := t } := by
  simp only [onStack, h]

def onGlobals {α : Type} (action : Action Stack α) : Action Core α
  | ⟨ip, fp, depth, stack, globals⟩ =>
      match action globals with
      | .ok a globals => .ok a ⟨ip, fp, depth, stack, globals⟩
      | .error fault globals => .error fault ⟨ip, fp, depth, stack, globals⟩

theorem onGlobals_ok {α : Type} {action : Action Stack α} {core : Core} {a : α} {t : Stack}
    (h : action core.globals = .ok a t) :
    onGlobals action core = .ok a { core with globals := t } := by
  simp only [onGlobals, h]

theorem onGlobals_error {α : Type} {action : Action Stack α} {core : Core} {fault : Fault}
    {t : Stack} (h : action core.globals = .error fault t) :
    onGlobals action core = .error fault { core with globals := t } := by
  simp only [onGlobals, h]

def setFrame (change : Core → Nat × Nat) : Action Core Unit := fun core =>
  let (fp, depth) := change core
  .ok () { core with fp, depth }

def const (value : Value) : Action Core Effect := do
  onStack (Stack.push value)
  return { flow := .next }

def store (address : Value) : Action Core Effect := do
  let _ ← onStack (Stack.store address)
  return { flow := .next }

def fetch (address : Value) : Action Core Effect := do
  let _ ← onStack (Stack.fetch address)
  return { flow := .next }

/-- The address is checked before anything is popped. -/
def gstore (address : Value) : Action Core Effect := do
  let _ ← Action.inspect fun core => core.globals.slot address
  let value ← onStack Stack.pop
  onGlobals (Stack.write address value)
  return { flow := .next }

def gfetch (address : Value) : Action Core Effect := do
  let value ← Action.inspect fun core => core.globals.read address
  onStack (Stack.push value)
  return { flow := .next }

def pop : Action Core Effect := do
  let _ ← onStack Stack.pop
  return { flow := .next }

def binary (operator : Operator) : Action Core Effect := do
  let (left, right) ← onStack Stack.popTwo
  let value ← Action.check (operator.apply left right)
  onStack (Stack.push value)
  return { flow := .next }

def branch (relation : Relation) (operand : Value) : Action Core Effect := do
  let target ← Action.check (operand.whole "target")
  let (next, top) ← onStack Stack.popTwo
  if ← Action.check (relation.holds top next) then
    return { flow := .jump target }
  else
    return { flow := .next }

def goto (operand : Value) : Action Core Effect := do
  let target ← Action.check (operand.whole "target")
  return { flow := .jump target }

def callSite (count : Nat) (core : Core) : Except Fault (Nat × Nat) :=
  if core.stack.height < count then
    .error (.tooFewArguments count core.stack.height)
  else if core.stack.capacity < core.stack.height + 3 then
    .error .noRoomForFrame
  else
    .ok (core.fp, core.ip)

def call (target count : Nat) : Action Core Effect := do
  let (caller, site) ← Action.inspect (callSite count)
  onStack (Stack.pushHeader count caller site)
  setFrame fun core => (core.stack.height - 1, core.depth + 1)
  return { flow := .jump target }

def openFrame (core : Core) : Except Fault Nat :=
  if core.depth = 0 then .error .returnWithoutCall
  else if core.stack.pointer ≤ core.fp then .error .nothingReturned
  else .ok core.fp

def ret : Action Core Effect := do
  let frame ← Action.inspect openFrame
  let (site, caller) ← onStack (Stack.unwind frame)
  setFrame fun core => (caller, core.depth - 1)
  if site + 1 < addressLimit then
    return { flow := .jump (site + 1) }
  else
    throw (.returnOutside site)

def print : Action Core Effect := do
  let value ← Action.inspect fun core => core.stack.peek
  return { flow := .next, printed := some (value.plain ++ "\n") }

def perform (instruction : Instruction) : Action Core Effect := do
  match instruction.opcode with
  | .halt => return { flow := .halt }
  | .const => const (← Action.check (instruction.operand 0))
  | .store => store (← Action.check (instruction.operand 0))
  | .fetch => fetch (← Action.check (instruction.operand 0))
  | .gstore => gstore (← Action.check (instruction.operand 0))
  | .gfetch => gfetch (← Action.check (instruction.operand 0))
  | .pop => pop
  | .binary operator => binary operator
  | .branch relation => branch relation (← Action.check (instruction.operand 0))
  | .goto => goto (← Action.check (instruction.operand 0))
  | .call =>
      let target ← Action.check do (← instruction.operand 0).whole "target"
      let count ← Action.check do (← instruction.operand 1).whole "argument count"
      call target count
  | .ret => ret
  | .print => print

end Core

end StackMachine
