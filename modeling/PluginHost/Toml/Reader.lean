import PluginHost.Toml.Number
import PluginHost.Toml.Table

/-!
# Reading TOML

A reader takes something off the front of the text and returns it with what is left. Values
nest by brackets only, so the nested readers carry the number of steps they may still take,
which `read?` sets to more than the text has characters.

* `Toml.read?`: the document that a text spells, as JSON; `none` when it spells none.
-/
namespace PluginHost.Toml

/-- White space within a line. -/
def isSpace (c : Char) : Bool :=
  c = ' ' || c = '\t'

/-- The characters that may stand in comments and, unless they have a meaning there, in
strings: all but the controls, of which the tab is allowed. -/
def isTextChar (c : Char) : Bool :=
  c = '\t' || (' ' ≤ c && c ≠ '\x7f')

/-- Skips white space within a line. -/
def skipSpace (cs : List Char) : List Char :=
  cs.dropWhile isSpace

/-- Reads the end of a line. -/
def newLine? : List Char → Option (List Char)
  | '\n' :: r => some r
  | '\r' :: '\n' :: r => some r
  | _ => none

/-- Reads up to the end of a line or of the text: white space and a comment. -/
def lineEnd? (cs : List Char) : Option (List Char) :=
  let rest := match skipSpace cs with
    | '#' :: r => r.dropWhile isTextChar
    | r => r
  match rest with
  | [] => some []
  | rest => newLine? rest

/-- Skips white space, comments and the ends of lines. -/
def skipLines (inComment : Bool) : List Char → List Char
  | [] => []
  | '\n' :: r => skipLines false r
  | '\r' :: '\n' :: r => skipLines false r
  | c :: r =>
    if inComment then if isTextChar c then skipLines true r else c :: r
    else if isSpace c then skipLines false r
    else if c = '#' then skipLines true r
    else c :: r

/-! ## Strings -/

/-- The character of a code point given in hexadecimal digits. -/
def codePoint? (ds : List Char) : Option Char := do
  let n := (← ds.mapM Json.hexDigit?).foldl (fun n d => 16 * n + d) 0
  if n.isValidChar then some (Char.ofNat n) else none

/-- What a letter stands for after a backslash, `\u` and `\U` apart. -/
def escaped? : Char → Option Char
  | '"' => some '"'
  | '\\' => some '\\'
  | 'b' => some '\x08'
  | 'f' => some '\x0c'
  | 'n' => some '\n'
  | 'r' => some '\r'
  | 't' => some '\t'
  | _ => none

/-- Puts a character in front of what was read. -/
def consRead (c : Char) (r : Option (List Char × List Char)) : Option (List Char × List Char) :=
  r.map fun (cs, rest) => (c :: cs, rest)

/-- Reads the rest of a string on one line after its opening quote. -/
def basicString? : List Char → Option (List Char × List Char)
  | [] => none
  | '"' :: r => some ([], r)
  | '\\' :: 'u' :: a :: b :: c :: d :: r =>
    (codePoint? [a, b, c, d]).bind fun x => consRead x (basicString? r)
  | '\\' :: 'U' :: a :: b :: c :: d :: e :: f :: g :: h :: r =>
    (codePoint? [a, b, c, d, e, f, g, h]).bind fun x => consRead x (basicString? r)
  | '\\' :: c :: r => (escaped? c).bind fun x => consRead x (basicString? r)
  | c :: r => if isTextChar c ∧ c ≠ '\\' then consRead c (basicString? r) else none

/-- Reads the rest of a string without escapes after its opening quote. -/
def literalString? : List Char → Option (List Char × List Char)
  | [] => none
  | '\'' :: r => some ([], r)
  | c :: r => if isTextChar c then consRead c (literalString? r) else none

/-- Up to two more quotes may stand before the three that close a string. -/
def closingQuotes (q : Char) : List Char → List Char × List Char
  | a :: b :: r =>
    if a = q ∧ b = q then ([q, q], r)
    else if a = q then ([q], b :: r)
    else ([], a :: b :: r)
  | [a] => if a = q then ([q], []) else ([], [a])
  | [] => ([], [])

/-- Reads the rest of a string on several lines. After a backslash at the end of a line, white
space is skipped up to the next character that is none. -/
def basicLines? (skipping : Bool) : List Char → Option (List Char × List Char)
  | [] => none
  | '"' :: '"' :: '"' :: r => some (closingQuotes '"' r)
  | '\n' :: r => if skipping then basicLines? true r else consRead '\n' (basicLines? false r)
  | '\r' :: '\n' :: r =>
    if skipping then basicLines? true r else consRead '\n' (basicLines? false r)
  | '\\' :: 'u' :: a :: b :: c :: d :: r =>
    (codePoint? [a, b, c, d]).bind fun x => consRead x (basicLines? false r)
  | '\\' :: 'U' :: a :: b :: c :: d :: e :: f :: g :: h :: r =>
    (codePoint? [a, b, c, d, e, f, g, h]).bind fun x => consRead x (basicLines? false r)
  | '\\' :: c :: r =>
    if isSpace c ∨ c = '\n' ∨ c = '\r' then
      if (newLine? (skipSpace (c :: r))).isSome then basicLines? true (c :: r) else none
    else (escaped? c).bind fun x => consRead x (basicLines? false r)
  | c :: r =>
    if skipping ∧ isSpace c then basicLines? true r
    else if isTextChar c ∧ c ≠ '\\' then consRead c (basicLines? false r)
    else none

/-- Reads the rest of a string without escapes on several lines. -/
def literalLines? : List Char → Option (List Char × List Char)
  | [] => none
  | '\'' :: '\'' :: '\'' :: r => some (closingQuotes '\'' r)
  | '\n' :: r => consRead '\n' (literalLines? r)
  | '\r' :: '\n' :: r => consRead '\n' (literalLines? r)
  | c :: r => if isTextChar c then consRead c (literalLines? r) else none

/-- An end of line right after the three opening quotes is left out. -/
def skipFirstNewLine (cs : List Char) : List Char :=
  (newLine? cs).getD cs

/-- Reads a string of any of the four kinds. -/
def string? : List Char → Option (List Char × List Char)
  | '"' :: '"' :: '"' :: r => basicLines? false (skipFirstNewLine r)
  | '"' :: r => basicString? r
  | '\'' :: '\'' :: '\'' :: r => literalLines? (skipFirstNewLine r)
  | '\'' :: r => literalString? r
  | _ => none

/-! ## Keys -/

/-- The characters of a key without quotes. -/
def isKeyChar (c : Char) : Bool :=
  c.isAlphanum || c = '-' || c = '_'

/-- Reads one part of a key. -/
def keyPart? : List Char → Option (String × List Char)
  | '"' :: r => (basicString? r).map fun (s, r) => (String.ofList s, r)
  | '\'' :: r => (literalString? r).map fun (s, r) => (String.ofList s, r)
  | cs =>
    let name := cs.takeWhile isKeyChar
    if name.isEmpty then none else some (String.ofList name, cs.dropWhile isKeyChar)

/-- Reads a key of several parts with points between them, in at most `fuel` parts; the last
part stands apart. -/
def key? : Nat → List Char → Option ((List String × String) × List Char)
  | 0, _ => none
  | fuel + 1, cs => do
    let (part, r) ← keyPart? (skipSpace cs)
    match skipSpace r with
    | '.' :: r =>
      let ((path, last), r) ← key? fuel r
      return ((part :: path, last), r)
    | r => return (([], part), r)

/-- How many parts a key may have, and how deep arrays and inline tables may be nested. -/
def maxDepth : Nat := 79

/-! ## Values -/

/-- The characters that words are made of. -/
def isWordChar (c : Char) : Bool :=
  c.isAlphanum || c = '+' || c = '-' || c = '_' || c = '.' || c = ':'

/-- Reads a value that is written without quotes and brackets. A date may be followed by a
space and a time. -/
def word? (cs : List Char) : Option (Json × List Char) :=
  let word := cs.takeWhile isWordChar
  let rest := cs.dropWhile isWordChar
  if isDate word then
    match rest with
    | ' ' :: r =>
      let time := r.takeWhile isWordChar
      if time.isEmpty then some (ofDateTime word, rest)
      else if isTimeWithOffset time then
        some (ofDateTime (word ++ ' ' :: time), r.dropWhile isWordChar)
      else none
    | rest => some (ofDateTime word, rest)
  else (wordValue? word).map fun v => (v, rest)

mutual

/-- Reads a value; `depth` more levels of brackets are allowed. -/
def value? (fuel depth : Nat) (cs : List Char) : Option (Json × List Char) :=
  match fuel with
  | 0 => none
  | fuel + 1 =>
    match cs with
    | '"' :: _ | '\'' :: _ => (string? cs).map fun (s, r) => (.string (String.ofList s), r)
    | '[' :: r =>
      if depth = 0 then none
      else (items? fuel (depth - 1) r).map fun (js, r) => (.array js, r)
    | '{' :: r =>
      if depth = 0 then none
      else
        match skipSpace r with
        | '}' :: r => some (.object [], r)
        | r => (members? fuel (depth - 1) [] r).map fun (es, r) => (.object (entriesToJson es), r)
    | cs => word? cs

/-- Reads the items of an array after its opening bracket or a comma. -/
def items? (fuel depth : Nat) (cs : List Char) : Option (List Json × List Char) :=
  match fuel with
  | 0 => none
  | fuel + 1 =>
    match skipLines false cs with
    | ']' :: r => some ([], r)
    | cs => do
      let (j, r) ← value? fuel depth cs
      match skipLines false r with
      | ']' :: r => return ([j], r)
      | ',' :: r =>
        let (js, r) ← items? fuel depth r
        return (j :: js, r)
      | _ => none

/-- Reads the members of an inline table after its opening brace or a comma. -/
def members? (fuel depth : Nat) (entries : Entries) (cs : List Char) :
    Option (Entries × List Char) :=
  match fuel with
  | 0 => none
  | fuel + 1 => do
    let ((path, key), r) ← key? maxDepth cs
    match r with
    | '=' :: r =>
      let (v, r) ← value? fuel depth (skipSpace r)
      let entries ← assign path key v .header entries
      match skipSpace r with
      | '}' :: r => return (entries, r)
      | ',' :: r => members? fuel depth entries r
      | _ => none
    | _ => none

end

/-! ## Statements -/

/-- Reads the key and the value of an assignment. -/
def assignment? (cs : List Char) : Option (Statement × List Char) := do
  let ((path, key), r) ← key? maxDepth cs
  match r with
  | '=' :: r =>
    let (v, r) ← value? (2 * r.length + 2) maxDepth (skipSpace r)
    return (.assign path key v, r)
  | _ => none

/-- Reads a statement. -/
def statement? : List Char → Option (Statement × List Char)
  | '[' :: '[' :: r => do
    let ((path, key), r) ← key? maxDepth r
    match r with
    | ']' :: ']' :: r => return (.element path key, r)
    | _ => none
  | '[' :: r => do
    let ((path, key), r) ← key? maxDepth r
    match r with
    | ']' :: r => return (.table path key, r)
    | _ => none
  | cs => assignment? cs

/-- Reads the statements, each on a line of its own, in at most `fuel` lines. -/
def statements? : Nat → List Char → Option (List Statement)
  | 0, _ => none
  | fuel + 1, cs =>
    match skipSpace cs with
    | [] => some []
    | '#' :: r => (lineEnd? ('#' :: r)).bind (statements? fuel)
    | '\n' :: r => statements? fuel r
    | '\r' :: r => (newLine? ('\r' :: r)).bind (statements? fuel)
    | cs => do
      let (s, r) ← statement? cs
      let ss ← statements? fuel (← lineEnd? r)
      return s :: ss

/-- The text without the byte order mark at its start. -/
def skipMark : List Char → List Char
  | '\ufeff' :: cs => cs
  | cs => cs

/-- The document that the text spells. -/
def read? (s : String) : Option Json :=
  let cs := skipMark s.toList
  (statements? (cs.length + 1) cs).bind Document.ofStatements?

end PluginHost.Toml
