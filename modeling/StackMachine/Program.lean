import StackMachine.Instruction
import StackMachine.Symbols

/-!
Programs: instructions, addressed by their position, and the labels that name
addresses. The listing shows each instruction with its address, after the
labels that stand there; labels behind the last instruction come at the end.
-/

namespace StackMachine

def addressText (address : Nat) : String :=
  let digits := Nat.toDigits 10 address
  String.ofList (List.replicate (4 - digits.length) '0' ++ digits)

structure Program where
  instructions : Array Instruction
  symbols : Symbols
deriving DecidableEq

namespace Program

def ofInstructions (instructions : Array Instruction) : Program :=
  ⟨instructions, .empty⟩

def size (program : Program) : Nat :=
  program.instructions.size

def label? (program : Program) (name : String) : Option Nat :=
  program.symbols.find? name

def labelLines (program : Program) (address : Nat) : List String :=
  (program.symbols.namesAt address).map fun name => name ++ ":"

def linesFrom (program : Program) (address : Nat) : List Instruction → List String
  | [] => program.labelLines address
  | instruction :: rest =>
      program.labelLines address
        ++ (addressText address ++ " " ++ instruction.text)
        :: program.linesFrom (address + 1) rest

def listingLines (program : Program) : List String :=
  program.linesFrom 0 program.instructions.toList

def listing (program : Program) : String :=
  String.join (program.listingLines.map fun line => line ++ "\n")

end Program

end StackMachine
