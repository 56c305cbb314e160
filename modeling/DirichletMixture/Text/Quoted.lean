/-
  DirichletMixture: text in quotes, as messages show it.

  A text stands in single quotes, or in double quotes if it holds a single quote
  and no double one.  The quote in use, the backslash and the usual line
  characters are escaped with a backslash, and characters that cannot be seen by
  their code.

  * `Quoted.escape` writes one character between quotes;
  * `Quoted.write` quotes a text.
-/
import DirichletMixture.Text.Invisible

namespace DirichletMixture

namespace Quoted

def singleQuote : Char := '\x27'

def doubleQuote : Char := '\x22'

/-- The character that starts an escape. -/
def backslash : Char := '\x5c'

/-- The last `width` hexadecimal digits of a code. -/
def hex : Nat → Nat → List Char
  | 0, _ => []
  | width + 1, n => hex width (n / 16) ++ [Nat.digitChar (n % 16)]

/-- A character by its code, in two, four or eight digits. -/
def escapeCode (c : Char) : List Char :=
  let n := c.toNat
  if n < 0x100 then backslash :: 'x' :: hex 2 n
  else if n < 0x10000 then backslash :: 'u' :: hex 4 n
  else backslash :: 'U' :: hex 8 n

/-- A character between quotes `q`. -/
def escape (q c : Char) : List Char :=
  if c = q ∨ c = backslash then [backslash, c]
  else if c = '\n' then [backslash, 'n']
  else if c = '\r' then [backslash, 'r']
  else if c = '\t' then [backslash, 't']
  else if isVisible c then [c]
  else escapeCode c

/-- The quote for a text: double if it holds single quotes only. -/
def quoteFor (cs : List Char) : Char :=
  if cs.contains singleQuote && !cs.contains doubleQuote then doubleQuote else singleQuote

def write (s : String) : String :=
  let cs := s.toList
  let q := quoteFor cs
  String.ofList (q :: cs.flatMap (escape q) ++ [q])

end Quoted

end DirichletMixture
