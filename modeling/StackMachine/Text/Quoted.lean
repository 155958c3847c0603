import StackMachine.Text.Printable

/-!
Quoted text. A quoted text stands between double quotes. Quotes, backslashes
and the four common controls have short escapes, every other character that is
not printable is written by its code point in hexadecimal, and the rest stands
for itself.
-/

namespace StackMachine.Quoted

def escape (c : Char) : List Char :=
  if c = '"' then ['\\', '"']
  else if c = '\\' then ['\\', '\\']
  else if c = '\n' then ['\\', 'n']
  else if c = '\r' then ['\\', 'r']
  else if c = '\t' then ['\\', 't']
  else if c = '\x00' then ['\\', '0']
  else if isPrintable c then [c]
  else ['\\', 'u', '\x7b'] ++ Nat.toDigits 16 c.toNat ++ ['\x7d']

def characters (cs : List Char) : List Char :=
  '"' :: cs.flatMap escape ++ ['"']

def text (s : String) : String :=
  String.ofList (characters s.toList)

theorem flatMap_escape_eq {cs : List Char}
    (h : ∀ c ∈ cs, escape c = [c]) : cs.flatMap escape = cs := by
  induction cs with
  | nil => rfl
  | cons c rest ih =>
      rw [List.flatMap_cons, h c List.mem_cons_self,
        ih fun d hd => h d (List.mem_cons_of_mem c hd)]
      rfl

end StackMachine.Quoted
