/-
# Quoted text

Messages show a text that may hold anything in double quotes, on one line and with nothing
hidden: quotes and backslashes get a backslash, tab, carriage return, newline and NUL have
escapes of their own, and any other character that is not printable on its own is written as its
code point.
-/
import ConstStore.Text.Printable

namespace ConstStore
namespace Quoted

/-- How one character stands between the quotes. -/
def escape (c : Char) : List Char :=
  if c = '\x00' then ['\\', '0']
  else if c = '\t' then ['\\', 't']
  else if c = '\r' then ['\\', 'r']
  else if c = '\n' then ['\\', 'n']
  else if c = '"' ∨ c = '\\' then ['\\', c]
  else if Printable.isPrintable c then [c]
  else ['\\', 'u', '\x7b'] ++ Nat.toDigits 16 c.toNat ++ ['\x7d']

/-- The quoted form of a text. -/
def quote (text : String) : String :=
  String.ofList ('"' :: text.toList.flatMap escape ++ ['"'])

end Quoted
end ConstStore
