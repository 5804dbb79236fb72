import PluginHost.Json.Basic

/-!
# Writing JSON

Two layouts of the same document. The compact one has no white space at all; the other gives
every item and member a line of its own, indented by two columns a level, and keeps an empty
array or object on one line.

* `Json.compact`, `Json.pretty`: the two layouts.
* `Json.sortMembers`: the same document with members in ascending order of their names.
-/
namespace PluginHost.Json

/-- A digit in lower-case hexadecimal. -/
def hexChar (n : Nat) : Char :=
  if n < 10 then Char.ofNat ('0'.toNat + n) else Char.ofNat ('a'.toNat + (n - 10))

/-- How a character is written in a string: the quote, the backslash and the controls are
escaped and nothing else. -/
def escapeChar (c : Char) : List Char :=
  if c = '"' then ['\\', '"']
  else if c = '\\' then ['\\', '\\']
  else if c = '\x08' then ['\\', 'b']
  else if c = '\x0c' then ['\\', 'f']
  else if c = '\n' then ['\\', 'n']
  else if c = '\r' then ['\\', 'r']
  else if c = '\t' then ['\\', 't']
  else if c < ' ' then ['\\', 'u', '0', '0', hexChar (c.toNat / 16), hexChar (c.toNat % 16)]
  else [c]

/-- A string literal. -/
def printText (s : String) : List Char :=
  '"' :: s.toList.flatMap escapeChar ++ ['"']

/-- A number, digit by digit as it was read. -/
def Number.print (n : Number) : List Char :=
  (if n.negative then ['-'] else []) ++ Nat.toDigits 10 n.whole ++
    (if n.fraction.isEmpty then [] else '.' :: n.fraction) ++
    match n.exponent with
    | none => []
    | some e => 'e' :: (if e < 0 then ['-'] else []) ++ Nat.toDigits 10 e.natAbs

/-- The words of the language. -/
def printBool : Bool → List Char
  | true => ['t', 'r', 'u', 'e']
  | false => ['f', 'a', 'l', 's', 'e']

mutual

/-- The document without white space. -/
def printCompact : Json → List Char
  | .null | .garbled => ['n', 'u', 'l', 'l']
  | .bool b => printBool b
  | .number n => n.print
  | .string s => printText s
  | .array [] => ['[', ']']
  | .array (j :: js) => '[' :: printCompact j ++ printItems js ++ [']']
  | .object [] => ['{', '}']
  | .object ((name, j) :: ms) =>
    '{' :: printText name ++ ':' :: printCompact j ++ printMembers ms ++ ['}']

/-- Further items, each after a comma. -/
def printItems : List Json → List Char
  | [] => []
  | j :: js => ',' :: printCompact j ++ printItems js

/-- Further members, each after a comma. -/
def printMembers : List (String × Json) → List Char
  | [] => []
  | (name, j) :: ms => ',' :: printText name ++ ':' :: printCompact j ++ printMembers ms

end

/-- A new line at a level of indentation. -/
def newLine (level : Nat) : List Char :=
  '\n' :: List.replicate (2 * level) ' '

mutual

/-- The document with a line for each part, at a level of indentation. -/
def printPretty (level : Nat) : Json → List Char
  | .null | .garbled => ['n', 'u', 'l', 'l']
  | .bool b => printBool b
  | .number n => n.print
  | .string s => printText s
  | .array [] => ['[', ']']
  | .array (j :: js) =>
    '[' :: newLine (level + 1) ++ printPretty (level + 1) j ++
      printPrettyItems (level + 1) js ++ newLine level ++ [']']
  | .object [] => ['{', '}']
  | .object ((name, j) :: ms) =>
    '{' :: newLine (level + 1) ++ printText name ++ ':' :: ' ' ::
      printPretty (level + 1) j ++ printPrettyMembers (level + 1) ms ++ newLine level ++ ['}']

/-- Further items, each after a comma on a line of its own. -/
def printPrettyItems (level : Nat) : List Json → List Char
  | [] => []
  | j :: js => ',' :: newLine level ++ printPretty level j ++ printPrettyItems level js

/-- Further members, each after a comma on a line of its own. -/
def printPrettyMembers (level : Nat) : List (String × Json) → List Char
  | [] => []
  | (name, j) :: ms =>
    ',' :: newLine level ++ printText name ++ ':' :: ' ' :: printPretty level j ++
      printPrettyMembers level ms

end

/-- The document on one line. -/
def compact (j : Json) : String :=
  String.ofList (printCompact j)

/-- The document with a line for each part. -/
def pretty (j : Json) : String :=
  String.ofList (printPretty 0 j)

/-- Puts a member among members in ascending order; one of the same name is replaced. -/
def insertMember (name : String) (j : Json) : List (String × Json) → List (String × Json)
  | [] => [(name, j)]
  | m :: ms =>
    if name < m.1 then (name, j) :: m :: ms
    else if name = m.1 then (name, j) :: ms
    else m :: insertMember name j ms

mutual

/-- The same document with the members of every object in ascending order of their names; of
several members of one name the last is kept. -/
def sortMembers : Json → Json
  | .array items => .array (sortItems items)
  | .object members => .object (sortInto members [])
  | j => j

/-- `sortMembers` for every item. -/
def sortItems : List Json → List Json
  | [] => []
  | j :: js => sortMembers j :: sortItems js

/-- `sortMembers` for every member, put in order among those already there. -/
def sortInto : List (String × Json) → List (String × Json) → List (String × Json)
  | [], done => done
  | (name, j) :: ms, done => sortInto ms (insertMember name (sortMembers j) done)

end

end PluginHost.Json
