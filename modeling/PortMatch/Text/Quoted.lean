import PortMatch.Text.Unprintable

/-!
# Quoted text

How a text is shown inside a message: between quotation marks, on one line, and with nothing in it
that could be taken for the closing mark.

* `escapeChar` — what is written for one character;
* `escape` — what is written for a text, character by character;
* `quote` — the text between its quotation marks.

Texts are handled as `List Char`; `quote` is the entry point for a `String`.
-/

namespace PortMatch.Text

/-- What is written for one character of a quoted text.  Five control and quoting characters have a
short form after a backslash, the NUL character is one of them; every other character without a
printed form is written by its code point in lower-case hexadecimal digits; the rest, the
apostrophe included, stand for themselves. -/
def escapeChar (c : Char) : List Char :=
  if c = '\x00' then ['\\', '0']
  else if c = '\t' then ['\\', 't']
  else if c = '\r' then ['\\', 'r']
  else if c = '\n' then ['\\', 'n']
  else if c = '"' then ['\\', '"']
  else if c = '\\' then ['\\', '\\']
  else if isUnprintable c then ['\\', 'u', '{'] ++ Nat.toDigits 16 c.toNat ++ ['}']
  else [c]

/-- What is written for a text, without the quotation marks around it. -/
def escape (s : List Char) : List Char := s.flatMap escapeChar

/-- A text between quotation marks. -/
def quote (s : String) : String := String.ofList ('"' :: (escape s.toList ++ ['"']))

@[simp] theorem escape_nil : escape [] = [] := rfl

@[simp] theorem escape_cons (c : Char) (s : List Char) :
    escape (c :: s) = escapeChar c ++ escape s := rfl

@[simp] theorem toList_quote (s : String) :
    (quote s).toList = '"' :: (escape s.toList ++ ['"']) := by
  simp [quote]

end PortMatch.Text
