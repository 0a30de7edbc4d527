import Dataflow.Text.Invisible
import Dataflow.Text.Marks

/-!
# Texts

What the readers and the printers share: blanks and letters, decimal numbers, and a text as messages
show it. In quotes a backslash stands before double quotes and backslashes, and every character that
would not show by itself is escaped. An apostrophe cannot end the text, so it stays as it is.
-/

namespace Dataflow

/-! ### Blanks and letters -/

/-- Whether a character has the property `White_Space`. -/
def isBlank (c : Char) : Bool :=
  let n := c.toNat
  (0x9 ≤ n && n ≤ 0xd) || n == 0x20 || n == 0x85 || n == 0xa0 || n == 0x1680 ||
    (0x2000 ≤ n && n ≤ 0x200a) || n == 0x2028 || n == 0x2029 || n == 0x202f || n == 0x205f || n == 0x3000

/-- Without the blanks at either end. -/
def trimBlanks (s : String) : String :=
  String.ofList ((s.toList.dropWhile isBlank).reverse.dropWhile isBlank).reverse

/-- With the letters `A` to `Z` in lower case. -/
def lowerAscii (s : String) : String := String.ofList (s.toList.map Char.toLower)

/-! ### Decimal numbers -/

/-- The value of a list of decimal digits. -/
def digitsValue (s : List Char) : Nat := s.foldl (fun n c => 10 * n + (c.toNat - '0'.toNat)) 0

/-- A number below a limit. -/
def readBelow (limit : Nat) (s : List Char) : Option Nat :=
  let n := digitsValue s
  if n < limit then some n else none

/-- A 32-bit integer, with a sign if it is negative. -/
def readInt32 : List Char → Option Int32
  | '-' :: s => let n := digitsValue s; if n ≤ 0x80000000 then some (Int32.ofInt (-n)) else none
  | s => let n := digitsValue s; if n < 0x80000000 then some (Int32.ofInt n) else none

/-! ### In quotes -/

/-- A character by its code point. -/
def codeEscape (c : Char) : List Char := ['\\', 'u', '\x7b'] ++ Nat.toDigits 16 c.toNat ++ ['\x7d']

/-- A character as it is shown between quotes. -/
def quotedChar (c : Char) : List Char :=
  match c with
  | '\x00' => ['\\', '0']
  | '\t' => ['\\', 't']
  | '\n' => ['\\', 'n']
  | '\r' => ['\\', 'r']
  | '"' | '\\' => ['\\', c]
  | _ => if isMark c || isInvisible c then codeEscape c else [c]

def quotedText (s : String) : String := "\"" ++ String.ofList (s.toList.flatMap quotedChar) ++ "\""

end Dataflow
