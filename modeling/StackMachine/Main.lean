import StackMachine.CommandLine

/-!
The program that users start: it reads the source file, shows what each burst
of the machine returns, and ends with the exit status of the run.
-/

namespace StackMachine.CommandLine

def usage : String :=
  "Usage: runvm [--main N] [--stacksize N] [--trace] [--listing] FILE\n"

def fileFault : IO.Error → FileFault
  | .noFileOrDirectory _ _ _ => .missing
  | .inappropriateType _ 21 _ => .isDirectory
  | .inappropriateType _ _ _ => .notDirectory
  | .invalidArgument _ _ "name too long" => .nameTooLong
  | .permissionDenied _ _ _ => .other "Permission denied (os error 13)"
  | error => .other (toString error)

def readSource (file : String) : IO (Except FileFault String) := do
  try
    return decodeSource (← IO.FS.readBinFile file)
  catch error =>
    return .error (fileFault error)

partial def follow (m : Machine) : IO UInt32 := do
  let (event, next) := m.burst burstLength
  IO.print event.text
  match closing? event with
  | some (code, message) =>
      (← IO.getStdout).flush
      IO.eprint message
      return code.toUInt32
  | none => follow next

def start (file : String) (settings : Settings) (listing : Bool) : IO UInt32 := do
  match prepare file settings listing (← readSource file) with
  | .error ended =>
      IO.print ended.stdout
      IO.eprint ended.stderr
      return ended.code.toUInt32
  | .ok (shown, m) =>
      IO.print shown
      follow m

end StackMachine.CommandLine

open StackMachine in
def main (arguments : List String) : IO UInt32 := do
  match Request.read arguments with
  | none =>
      IO.eprint CommandLine.usage
      return 2
  | some .version =>
      IO.print CommandLine.versionText
      return 0
  | some .help =>
      IO.print CommandLine.usage
      return 0
  | some (.run file settings listing) => CommandLine.start file settings listing
