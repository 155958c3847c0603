import StackMachine.Assembly
import StackMachine.Machine.Session

/-!
The command line. Arguments are read from left to right into a request, and
reading stops at the first argument that asks for the version or for help. A
request to run assembles a source file, shows its listing if asked to, and runs
it in bursts of fixed length; what it shows and how it ends do not depend on
that length.
-/

namespace StackMachine

structure Arguments where
  file : Option String := none
  entry : Option Nat := none
  stackSize : Option Nat := none
  tracing : Bool := false
  listing : Bool := false
deriving DecidableEq, Repr

inductive Request where
  | version
  | help
  | run (file : String) (settings : Settings) (listing : Bool)
deriving DecidableEq, Repr

/-- A count as an argument: digits after at most one plus sign, in 64 bits. -/
def readCount (s : String) : Option Nat :=
  let digits :=
    match s.toList with
    | '+' :: rest => rest
    | cs => cs
  if digits ≠ [] ∧ digits.all Char.isDigit ∧ Nat.ofDigitChars 10 digits 0 < addressLimit then
    some (Nat.ofDigitChars 10 digits 0)
  else
    none

/-- An argument that a flag can take as its value: anything that is not a flag itself. -/
def isFlagValue (s : String) : Bool :=
  match s.toList with
  | ['-'] => true
  | '-' :: _ => false
  | _ => true

namespace Arguments

def setFile (given : Arguments) (file : String) : Option Arguments :=
  if given.file.isSome ∨ file = "" then none else some { given with file := some file }

def setEntry (given : Arguments) (value : String) : Option Arguments :=
  if given.entry.isSome then none
  else (readCount value).map fun count => { given with entry := some count }

def setStackSize (given : Arguments) (value : String) : Option Arguments :=
  if given.stackSize.isSome then none
  else (readCount value).map fun count => { given with stackSize := some count }

def setTracing (given : Arguments) : Option Arguments :=
  if given.tracing then none else some { given with tracing := true }

def setListing (given : Arguments) : Option Arguments :=
  if given.listing then none else some { given with listing := true }

def request (given : Arguments) : Option Request :=
  given.file.map fun file =>
    .run file ⟨given.stackSize.getD 1024, given.entry.getD 0, given.tracing⟩ given.listing

def readFiles (given : Arguments) : List String → Option Request
  | [] => given.request
  | file :: rest => do (← given.setFile file).readFiles rest

end Arguments

inductive ValueFlag where
  | main
  | stacksize
deriving DecidableEq, Repr

namespace ValueFlag

def set (given : Arguments) (value : String) : ValueFlag → Option Arguments
  | .main => given.setEntry value
  | .stacksize => given.setStackSize value

end ValueFlag

inductive Argument where
  | file (name : String)
  | endOfFlags
  | version
  | help
  | tracing
  | listing
  | expectsValue (flag : ValueFlag)
  | carriesValue (flag : ValueFlag) (value : String)
  | unknown
deriving DecidableEq, Repr

namespace Argument

def ofLong (name : List Char) : Argument :=
  match String.ofList (name.takeWhile (· ≠ '=')), name.dropWhile (· ≠ '=') with
  | "version", [] => .version
  | "help", [] => .help
  | "trace", [] => .tracing
  | "listing", [] => .listing
  | "main", [] => .expectsValue .main
  | "stacksize", [] => .expectsValue .stacksize
  | "main", _ :: value => .carriesValue .main (String.ofList value)
  | "stacksize", _ :: value => .carriesValue .stacksize (String.ofList value)
  | _, _ => .unknown

def ofString (s : String) : Argument :=
  match s.toList with
  | ['-', '-'] => .endOfFlags
  | '-' :: '-' :: name => .ofLong name
  | '-' :: 'V' :: _ => .version
  | '-' :: 'h' :: _ => .help
  | '-' :: _ :: _ => .unknown
  | _ => .file s

end Argument

namespace Request

def readFrom (given : Arguments) : List String → Option Request
  | [] => given.request
  | argument :: rest =>
      match Argument.ofString argument, rest with
      | .version, _ => some .version
      | .help, _ => some .help
      | .endOfFlags, rest => given.readFiles rest
      | .file name, rest => do readFrom (← given.setFile name) rest
      | .tracing, rest => do readFrom (← given.setTracing) rest
      | .listing, rest => do readFrom (← given.setListing) rest
      | .carriesValue flag value, rest => do readFrom (← flag.set given value) rest
      | .expectsValue flag, value :: rest =>
          if isFlagValue value then do readFrom (← flag.set given value) rest else none
      | .expectsValue _, [] => none
      | .unknown, _ => none

def read (arguments : List String) : Option Request :=
  readFrom {} arguments

end Request

inductive FileFault where
  | missing
  | isDirectory
  | notDirectory
  | nameTooLong
  | notText
  | other (reason : String)
deriving DecidableEq, Repr

namespace FileFault

def reason : FileFault → String
  | .missing => "No such file or directory (os error 2)"
  | .isDirectory => "Is a directory (os error 21)"
  | .notDirectory => "Not a directory (os error 20)"
  | .nameTooLong => "File name too long (os error 36)"
  | .notText => "stream did not contain valid UTF-8"
  | .other reason => reason

def message (fault : FileFault) (file : String) : String :=
  "FileError: couldn't open file " ++ file ++ "; " ++ fault.reason

end FileFault

def decodeSource (bytes : ByteArray) : Except FileFault String :=
  match String.fromUTF8? bytes with
  | some source => .ok source
  | none => .error .notText

structure Transcript where
  code : Nat
  stdout : String
  stderr : String
deriving DecidableEq, Repr

namespace CommandLine

def versionText : String := "runvm 0.1.0\n"

def burstLength : Nat := 5000

def bold (message : String) : String :=
  "\x1b[1m" ++ message ++ "\x1b[0m\n"

def prepare (file : String) (settings : Settings) (listing : Bool)
    (source : Except FileFault String) : Except Transcript (String × Machine) :=
  match source with
  | .error fault => .error ⟨1, "", bold (fault.message file)⟩
  | .ok source =>
      match assemble source with
      | .error error => .error ⟨1, "", bold error.diagnostic.render⟩
      | .ok program => .ok (if listing then program.listing else "", .load program settings)

def closing? : Event → Option (Nat × String)
  | .failed error => some (1, bold error.diagnostic.render)
  | .interrupted address => some (130, bold ("BREAK AT " ++ addressText address))
  | .stopped => some (0, "")
  | .output _ => none
  | .running => none

/-- The whole run; the result is missing when `bursts` do not reach its end. -/
def transcript (bursts : Nat) (file : String) (settings : Settings) (listing : Bool)
    (source : Except FileFault String) : Option Transcript :=
  match prepare file settings listing source with
  | .error ended => some ended
  | .ok (shown, m) =>
      let events := (m.events Event.isFinal burstLength bursts).1
      (events.getLast?.bind closing?).map fun (code, message) =>
        ⟨code, shown ++ Event.texts events, message⟩

end CommandLine

end StackMachine
