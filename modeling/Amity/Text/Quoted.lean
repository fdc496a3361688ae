/-
  Amity/Text/Quoted.lean
  ======================
  **Texts in messages.**  A text that a message repeats back is put in double quotes.  The quote and
  the backslash are escaped, the four common controls have short escapes, and any other character
  that does not show is given by its code point in hexadecimal.  A single quote stays as it is.
-/
import Amity.Text.Invisible

namespace Amity.Text

/-- The code point of a character, in braces and lower-case hexadecimal. -/
def codePointEscape (c : Char) : List Char :=
  '\\' :: 'u' :: '\x7b' :: (Nat.toDigits 16 c.toNat ++ ['\x7d'])

def quotedChar (c : Char) : List Char :=
  if c = '"' then ['\\', '"']
  else if c = '\\' then ['\\', '\\']
  else if c = '\x00' then ['\\', '0']
  else if c = '\t' then ['\\', 't']
  else if c = '\n' then ['\\', 'n']
  else if c = '\r' then ['\\', 'r']
  else if isInvisible c then codePointEscape c
  else [c]

/-- The text in double quotes, with everything escaped that would not show. -/
def quoted (s : String) : String :=
  String.ofList ('"' :: (s.toList.flatMap quotedChar ++ ['"']))

end Amity.Text
