import PluginHost.Text.Glyph

/-!
# Quoted texts

The form in which a text is shown inside a diagnostic: between double quotes, with the quote,
the backslash and the usual controls behind a backslash, and every other character that has no
glyph of its own by its code point in braces.
-/
namespace PluginHost.Text.Quoted

/-- A number in lower-case hexadecimal digits, without leading zeros. -/
def hexadecimal (n : Nat) : List Char :=
  Nat.toDigits 16 n

/-- How one character is written between the quotes. -/
def escape (c : Char) : List Char :=
  if c = '\x00' then ['\\', '0']
  else if c = '\t' then ['\\', 't']
  else if c = '\r' then ['\\', 'r']
  else if c = '\n' then ['\\', 'n']
  else if c = '\\' then ['\\', '\\']
  else if c = '"' then ['\\', '"']
  else if Glyph.isShown c then [c]
  else ['\\', 'u', '\x7b'] ++ hexadecimal c.toNat ++ ['\x7d']

/-- The text between quotes. -/
def quote (s : String) : String :=
  String.ofList ('"' :: s.toList.flatMap escape ++ ['"'])

/-- A list of texts, each quoted, between brackets. -/
def quoteList (ss : List String) : String :=
  "[" ++ String.intercalate ", " (ss.map quote) ++ "]"

end PluginHost.Text.Quoted

namespace PluginHost.Text

export Quoted (quote quoteList)

end PluginHost.Text
