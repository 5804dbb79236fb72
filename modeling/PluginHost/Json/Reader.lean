import PluginHost.Json.Basic
import PluginHost.Text.Natural

/-!
# Reading JSON

A text becomes a document in two passes over lists, each a fold that carries its state: the
first cuts the characters into tokens, the second puts the tokens together on a stack of the
arrays and objects that are still open. Neither is bounded in depth.

* `Json.read?`: the document that a text spells; `none` when it spells none.
-/
namespace PluginHost.Json

/-! ## Tokens -/

/-- The smallest parts of a document. -/
inductive Token where
  | openArray
  | closeArray
  | openObject
  | closeObject
  | comma
  | colon
  /-- `null`, `true`, `false` or a number. -/
  | scalar (value : Json)
  /-- A string; `none` when it spells no text. -/
  | string (text : Option String)
  deriving Inhabited

/-- A part of a string: a character, or a UTF-16 unit given by its number. -/
inductive Piece where
  | char (c : Char)
  | unit (u : Nat)
  deriving DecidableEq, Repr, Inhabited

/-- The first half of a pair of surrogates. -/
def isLeading (u : Nat) : Bool := 0xd800 ≤ u && u < 0xdc00

/-- The second half of a pair of surrogates. -/
def isTrailing (u : Nat) : Bool := 0xdc00 ≤ u && u < 0xe000

/-- The text that the pieces spell; `pending` is a leading surrogate that waits for its
partner, which has to follow at once. -/
def Piece.text? (pending : Option Nat) : List Piece → Option (List Char)
  | [] => if pending.isNone then some [] else none
  | .char c :: ps => if pending.isNone then (text? none ps).map (c :: ·) else none
  | .unit u :: ps =>
    match pending with
    | none =>
      if isLeading u then text? (some u) ps
      else if isTrailing u then none
      else (text? none ps).map (Char.ofNat u :: ·)
    | some l =>
      if isTrailing u then
        (text? none ps).map
          (Char.ofNat (0x10000 + (l - 0xd800) * 0x400 + (u - 0xdc00)) :: ·)
      else none

/-- The value of a hexadecimal digit. -/
def hexDigit? (c : Char) : Option Nat :=
  if '0' ≤ c ∧ c ≤ '9' then some (c.toNat - '0'.toNat)
  else if 'a' ≤ c ∧ c ≤ 'f' then some (c.toNat - 'a'.toNat + 10)
  else if 'A' ≤ c ∧ c ≤ 'F' then some (c.toNat - 'A'.toNat + 10)
  else none

/-- What a letter stands for after a backslash, `\u` apart. -/
def escaped? : Char → Option Char
  | '"' => some '"'
  | '\\' => some '\\'
  | '/' => some '/'
  | 'b' => some '\x08'
  | 'f' => some '\x0c'
  | 'n' => some '\n'
  | 'r' => some '\r'
  | 't' => some '\t'
  | _ => none

/-- The digits at the front of a text, and what follows them. -/
def spanDigits (cs : List Char) : List Char × List Char :=
  (cs.takeWhile Char.isDigit, cs.dropWhile Char.isDigit)

/-- The exponent that the rest of a number spells; nothing is no exponent. -/
def exponent? : List Char → Option (Option Int)
  | [] => some none
  | c :: cs =>
    if c = 'e' ∨ c = 'E' then
      match cs with
      | '-' :: ds => (Text.decimal? ds).map fun n => some (-n)
      | '+' :: ds => (Text.decimal? ds).map fun n => some n
      | ds => (Text.decimal? ds).map fun n => some n
    else none

/-- The number that the characters spell: no zero in front of other digits, and a digit on
both sides of the point. -/
def Number.ofChars? (cs : List Char) : Option Number := do
  let (negative, cs) := match cs with
    | '-' :: rest => (true, rest)
    | _ => (false, cs)
  let (whole, cs) := spanDigits cs
  if whole.head? = some '0' ∧ whole.length ≠ 1 then none
  let value ← Text.decimal? whole
  match cs with
  | '.' :: cs =>
    let (fraction, cs) := spanDigits cs
    if fraction.isEmpty then none
    let e ← exponent? cs
    some ⟨negative, value, fraction, e⟩
  | cs =>
    let e ← exponent? cs
    some ⟨negative, value, [], e⟩

/-- The token of a word. -/
def Token.ofWord? (cs : List Char) : Option Token :=
  if cs = ['n', 'u', 'l', 'l'] then some (.scalar .null)
  else if cs = ['t', 'r', 'u', 'e'] then some (.scalar (.bool true))
  else if cs = ['f', 'a', 'l', 's', 'e'] then some (.scalar (.bool false))
  else (Number.ofChars? cs).map fun n => .scalar (.number n)

/-- Where the tokenizer stands: between tokens, in a word or number, in a string, or in an
escape of a string. What was read so far is kept backwards. -/
inductive Mode where
  | between
  | word (chars : List Char)
  | string (pieces : List Piece)
  | escape (pieces : List Piece)
  | unit (pieces : List Piece) (missing : Nat) (value : Nat)
  deriving Inhabited

/-- The tokens so far, the last one first, and where the tokenizer stands. -/
structure Tokenizer where
  tokens : List Token := []
  mode : Mode := .between
  deriving Inhabited

/-- The token that a single character is. -/
def Token.ofMark? : Char → Option Token
  | '[' => some .openArray
  | ']' => some .closeArray
  | '{' => some .openObject
  | '}' => some .closeObject
  | ',' => some .comma
  | ':' => some .colon
  | _ => none

/-- White space between tokens. -/
def isSpace (c : Char) : Bool :=
  c = ' ' || c = '\n' || c = '\t' || c = '\r'

/-- The characters that words and numbers are made of. -/
def isWordChar (c : Char) : Bool :=
  c.isAlphanum || c = '-' || c = '+' || c = '.'

namespace Tokenizer

/-- Reads a character between tokens. -/
def start (ts : List Token) (c : Char) : Option Tokenizer :=
  if isSpace c then some ⟨ts, .between⟩
  else if c = '"' then some ⟨ts, .string []⟩
  else if isWordChar c then some ⟨ts, .word [c]⟩
  else (Token.ofMark? c).map fun t => ⟨t :: ts, .between⟩

/-- Reads one character. -/
def step (t : Tokenizer) (c : Char) : Option Tokenizer :=
  match t.mode with
  | .between => start t.tokens c
  | .word w =>
    if isWordChar c then some ⟨t.tokens, .word (c :: w)⟩
    else do
      let word ← Token.ofWord? w.reverse
      start (word :: t.tokens) c
  | .string ps =>
    if c = '"' then
      some ⟨.string ((Piece.text? none ps.reverse).map String.ofList) :: t.tokens, .between⟩
    else if c = '\\' then some ⟨t.tokens, .escape ps⟩
    else if c < ' ' then none
    else some ⟨t.tokens, .string (.char c :: ps)⟩
  | .escape ps =>
    if c = 'u' then some ⟨t.tokens, .unit ps 4 0⟩
    else (escaped? c).map fun d => ⟨t.tokens, .string (.char d :: ps)⟩
  | .unit ps missing value => do
    let d ← hexDigit? c
    if missing = 1 then some ⟨t.tokens, .string (.unit (16 * value + d) :: ps)⟩
    else some ⟨t.tokens, .unit ps (missing - 1) (16 * value + d)⟩

/-- The tokens at the end of the text; a string must have been closed. -/
def finish (t : Tokenizer) : Option (List Token) :=
  match t.mode with
  | .between => some t.tokens.reverse
  | .word w => (Token.ofWord? w.reverse).map fun word => (word :: t.tokens).reverse
  | _ => none

end Tokenizer

/-- The tokens of a text. -/
def tokens? (cs : List Char) : Option (List Token) :=
  (cs.foldlM Tokenizer.step {}).bind Tokenizer.finish

/-! ## Documents -/

/-- An array or object that is still open. Its parts are kept backwards; `none` is a member
name that spells no text. -/
inductive Frame where
  | array (items : List Json)
  | object (members : List (Option String × Json))
  | member (members : List (Option String × Json)) (name : Option String)
  deriving Inhabited

/-- What may stand next. -/
inductive Expect where
  | value
  | valueOrClose
  | nameOrClose
  | name
  | colon
  | commaOrClose
  | nothing
  deriving DecidableEq, Inhabited

/-- The frames that are open, the innermost first, what may come next, and the document once
it is complete. -/
structure Builder where
  frames : List Frame := []
  expect : Expect := .value
  document : Json := .null
  deriving Inhabited

namespace Builder

/-- The object of the members, or `garbled` when a name among them spells no text. -/
def closeObject (members : List (Option String × Json)) : Json :=
  match members.reverse.mapM fun m => m.1.map fun name => (name, m.2) with
  | some ms => .object ms
  | none => .garbled

/-- Puts a complete value where it belongs. -/
def put (frames : List Frame) (j : Json) : Option Builder :=
  match frames with
  | [] => some ⟨[], .nothing, j⟩
  | .array items :: fs => some ⟨.array (j :: items) :: fs, .commaOrClose, .null⟩
  | .member ms name :: fs => some ⟨.object ((name, j) :: ms) :: fs, .commaOrClose, .null⟩
  | .object _ :: _ => none

/-- Reads a token where a value may stand. -/
def startValue (frames : List Frame) : Token → Option Builder
  | .scalar j => put frames j
  | .string (some s) => put frames (.string s)
  | .string none => put frames .garbled
  | .openArray => some ⟨.array [] :: frames, .valueOrClose, .null⟩
  | .openObject => some ⟨.object [] :: frames, .nameOrClose, .null⟩
  | _ => none

/-- Closes the innermost frame. -/
def close (frames : List Frame) (t : Token) : Option Builder :=
  match frames, t with
  | .array items :: fs, .closeArray => put fs (.array items.reverse)
  | .object ms :: fs, .closeObject => put fs (closeObject ms)
  | _, _ => none

/-- Reads the name of a member. -/
def startMember (frames : List Frame) (t : Token) : Option Builder :=
  match frames, t with
  | .object ms :: fs, .string name => some ⟨.member ms name :: fs, .colon, .null⟩
  | _, _ => none

/-- Reads the comma between two items or two members. -/
def separate (frames : List Frame) : Option Builder :=
  match frames with
  | .array _ :: _ => some ⟨frames, .value, .null⟩
  | .object _ :: _ => some ⟨frames, .name, .null⟩
  | _ => none

/-- Reads one token. -/
def step (b : Builder) (t : Token) : Option Builder :=
  match b.expect, t with
  | .value, t => startValue b.frames t
  | .valueOrClose, .closeArray => close b.frames .closeArray
  | .valueOrClose, t => startValue b.frames t
  | .nameOrClose, .closeObject => close b.frames .closeObject
  | .nameOrClose, t => startMember b.frames t
  | .name, t => startMember b.frames t
  | .colon, .colon => some ⟨b.frames, .value, .null⟩
  | .colon, _ => none
  | .commaOrClose, .comma => separate b.frames
  | .commaOrClose, t => close b.frames t
  | .nothing, _ => none

/-- The document, once nothing is missing. -/
def finish (b : Builder) : Option Json :=
  if b.expect = .nothing then some b.document else none

end Builder

/-- The document that the tokens make up. -/
def build? (ts : List Token) : Option Json :=
  (ts.foldlM Builder.step {}).bind Builder.finish

/-- The document that the text spells. -/
def read? (s : String) : Option Json :=
  (tokens? s.toList).bind build?

/-- The value that the text spells. -/
def readValue? (s : String) : Option Json :=
  (read? s).filter isValue

end PluginHost.Json
