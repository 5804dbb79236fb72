/-!
# JSON documents

`Json` is a document as it was written: members stand in the order of the text and a name may
occur twice, numbers keep their digits. `garbled` stands for a part that is well formed and
means nothing, so that a reader can skip it without having to understand it.

* `Json.isValue`: the document stands for a value as a whole: nothing in it is garbled, no
  number is too large for a binary double, and it is nested at most `Json.maxDepth` deep.
-/
namespace PluginHost

/-- A number as it is written: a sign, the whole part, the digits after the point (none when
there is no point) and the exponent. -/
structure Json.Number where
  negative : Bool
  whole : Nat
  fraction : List Char
  exponent : Option Int
  deriving DecidableEq, Repr, Inhabited

/-- A JSON document. -/
inductive Json where
  | null
  | bool (value : Bool)
  | number (value : Json.Number)
  | string (text : String)
  | array (items : List Json)
  | object (members : List (String × Json))
  /-- A string that spells no text, since a surrogate in it has no partner, or an object with
  such a member name. -/
  | garbled
  deriving Repr, Inhabited, BEq

namespace Json

/-- The document of an integer. -/
def ofInt (n : Int) : Json :=
  .number ⟨n < 0, n.natAbs, [], none⟩

/-- The document of a natural number. -/
def ofNat (n : Nat) : Json :=
  ofInt n

/-- The document of a list of texts. -/
def ofTexts (ss : List String) : Json :=
  .array (ss.map .string)

namespace Number

/-- The integer that is written without point and exponent; `-0` is not one. -/
def integer? (n : Number) : Option Int :=
  if n.fraction.isEmpty ∧ n.exponent = none ∧ ¬(n.negative ∧ n.whole = 0) then
    some (if n.negative then -n.whole else n.whole)
  else none

/-- The nearest number of 53 binary digits; a tie goes to the even neighbour. -/
def roundTo53Bits (n : Nat) : Nat :=
  let unit := Nat.pow 2 (n.log2 - 52)
  let kept := n / unit
  let rest := 2 * (n % unit)
  let up := unit < rest ∨ (rest = unit ∧ kept % 2 = 1)
  (if up then kept + 1 else kept) * unit

/-- Reads digits into a significand of 64 bits: the significand and the digits left over. -/
def significand (acc : Nat) : List Char → Nat × List Char
  | [] => (acc, [])
  | c :: cs =>
    let next := 10 * acc + (c.toNat - '0'.toNat)
    if next < Nat.pow 2 64 then significand next cs else (acc, c :: cs)

/-- The number rounds to no finite double when its leading digits are scaled by the power of
ten that is left. -/
def isTooLarge (n : Number) : Bool :=
  let wholeDigits := Nat.toDigits 10 n.whole
  let (s, rest) := significand 0 (wholeDigits ++ n.fraction)
  let scale := n.exponent.getD 0 - n.fraction.length + rest.length
  s ≠ 0 && 0 < scale &&
    (308 < scale ||
      Nat.pow 2 1024 ≤
        roundTo53Bits (roundTo53Bits s * roundTo53Bits (Nat.pow 10 scale.toNat)))

end Number

/-- How deep the arrays and objects of a value may be nested. -/
def maxDepth : Nat := 127

mutual

/-- Whether the document stands for a value that is nested at most `depth` deep. -/
def isValueWithin (depth : Nat) : Json → Bool
  | .null | .bool _ | .string _ => true
  | .number n => !n.isTooLarge
  | .array items => 0 < depth && areValuesWithin (depth - 1) items
  | .object members => 0 < depth && membersWithin (depth - 1) members
  | .garbled => false

/-- `isValueWithin` for every item. -/
def areValuesWithin (depth : Nat) : List Json → Bool
  | [] => true
  | j :: js => isValueWithin depth j && areValuesWithin depth js

/-- `isValueWithin` for every member. -/
def membersWithin (depth : Nat) : List (String × Json) → Bool
  | [] => true
  | (_, j) :: ms => isValueWithin depth j && membersWithin depth ms

end

/-- The document stands for a value as a whole. -/
def isValue (j : Json) : Bool :=
  j.isValueWithin maxDepth

/-- What stands under `name`; of several, the last. -/
def member? (name : String) : Json → Option Json
  | .object members => (members.filter (·.1 == name)).getLast?.map (·.2)
  | _ => none

/-- The text of a string. -/
def text? : Json → Option String
  | .string s => some s
  | _ => none

/-- The texts of an array that holds nothing but strings. -/
def texts? : Json → Option (List String)
  | .array items => items.mapM text?
  | _ => none

/-- The integer that a number stands for. -/
def int? : Json → Option Int
  | .number n => n.integer?
  | _ => none

end Json

end PluginHost
