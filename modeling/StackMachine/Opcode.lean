/-!
The instruction set: what each instruction is called and how many operands it
takes. The seven arithmetic and bitwise operators share one form, and so do the
five conditional branches.
-/

namespace StackMachine

inductive Operator where
  | add
  | sub
  | mul
  | div
  | and
  | or
  | xor
deriving DecidableEq, Repr

/-- Relations that a branch tests, read from the topmost value to the next. -/
inductive Relation where
  | equal
  | less
  | lessEqual
  | greater
  | greaterEqual
deriving DecidableEq, Repr

inductive Opcode where
  | halt
  | const
  | store
  | fetch
  | gstore
  | gfetch
  | pop
  | binary (operator : Operator)
  | branch (relation : Relation)
  | goto
  | call
  | ret
  | print
deriving DecidableEq, Repr

namespace Operator

def mnemonic : Operator → String
  | .add => "add"
  | .sub => "sub"
  | .mul => "mul"
  | .div => "div"
  | .and => "and"
  | .or => "or"
  | .xor => "xor"

end Operator

namespace Relation

def mnemonic : Relation → String
  | .equal => "ifeq"
  | .less => "lt"
  | .lessEqual => "lte"
  | .greater => "gt"
  | .greaterEqual => "gte"

end Relation

namespace Opcode

def mnemonic : Opcode → String
  | .halt => "halt"
  | .const => "const"
  | .store => "store"
  | .fetch => "fetch"
  | .gstore => "gstore"
  | .gfetch => "gfetch"
  | .pop => "pop"
  | .binary operator => operator.mnemonic
  | .branch relation => relation.mnemonic
  | .goto => "goto"
  | .call => "call"
  | .ret => "ret"
  | .print => "print"

def arity : Opcode → Nat
  | .const | .store | .fetch | .gstore | .gfetch | .branch _ | .goto => 1
  | .call => 2
  | .halt | .pop | .binary _ | .ret | .print => 0

def all : List Opcode :=
  [.halt, .const, .store, .fetch, .gstore, .gfetch, .pop,
    .binary .add, .binary .sub, .binary .mul, .binary .div,
    .binary .and, .binary .or, .binary .xor,
    .branch .equal, .branch .less, .branch .lessEqual,
    .branch .greater, .branch .greaterEqual,
    .goto, .call, .ret, .print]

theorem mem_all (op : Opcode) : op ∈ all := by
  cases op with
  | binary operator => cases operator <;> simp [all]
  | branch relation => cases relation <;> simp [all]
  | _ => simp [all]

/-- Letters `A` to `Z` count as their small forms; no other letters have two forms here. -/
def foldCase (s : String) : List Char :=
  s.toList.map Char.toLower

def ofMnemonic? (s : String) : Option Opcode :=
  all.find? fun op => op.mnemonic.toList == foldCase s

end Opcode

end StackMachine
