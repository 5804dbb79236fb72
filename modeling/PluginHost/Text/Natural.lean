/-!
# Natural numbers of bounded size

`boundedNat? limit s` reads decimal digits, after an optional plus sign, into a number that is
at most `limit`. Anything else, the empty text and a larger number included, is refused.
-/
namespace PluginHost.Text

/-- The value of an ASCII decimal digit. -/
def digit? (c : Char) : Option Nat :=
  if '0' ≤ c ∧ c ≤ '9' then some (c.toNat - '0'.toNat) else none

/-- The value of a row of decimal digits, read on from `acc`. -/
def decimalFrom? (acc : Nat) : List Char → Option Nat
  | [] => some acc
  | c :: cs => (digit? c).bind fun d => decimalFrom? (10 * acc + d) cs

/-- The value of a row of decimal digits that is not empty. -/
def decimal? (cs : List Char) : Option Nat :=
  if cs.isEmpty then none else decimalFrom? 0 cs

/-- A number of at most `limit`, with or without a plus sign in front. -/
def boundedNat? (limit : Nat) (s : String) : Option Nat :=
  let digits := match s.toList with
    | '+' :: cs => cs
    | cs => cs
  (decimal? digits).filter (· ≤ limit)

/-- The largest number of 32 bits. -/
def maxUInt32 : Nat := Nat.pow 2 32 - 1

/-- The largest number of 64 bits. -/
def maxUInt64 : Nat := Nat.pow 2 64 - 1

end PluginHost.Text
