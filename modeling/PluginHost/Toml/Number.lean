import PluginHost.Json.Reader

/-!
# Numbers, dates and times of TOML

Everything that is written without quotes is cut out as one word first and then read as a whole.
Integers have 64 bits with a sign; a float has to be finite unless it is written `inf` or `nan`
or is negative.

* `Toml.wordValue?`: the value of a word, as a JSON document. Floats without a finite value have
  no JSON form and are `garbled`; a date is an object with one member.
-/
namespace PluginHost.Toml

/-- Digits with underscores between them, without the underscores. -/
def digits? (isDigit : Char → Bool) (afterDigit : Bool) : List Char → Option (List Char)
  | [] => if afterDigit then some [] else none
  | c :: cs =>
    if isDigit c then (digits? isDigit true cs).map (c :: ·)
    else if c = '_' ∧ afterDigit then digits? isDigit false cs
    else none

/-- Takes the sign off. -/
def signed (cs : List Char) : Bool × List Char :=
  match cs with
  | '-' :: r => (true, r)
  | '+' :: r => (false, r)
  | r => (false, r)

/-- Decimal digits without a leading zero. -/
def wholeDigits? (cs : List Char) : Option (List Char) :=
  match digits? Char.isDigit false cs with
  | some ('0' :: _ :: _) => none
  | r => r

/-- The value of digits in a base. -/
def valueIn (base : Nat) (ds : List Char) : Nat :=
  ds.foldl (fun n d => base * n + (Json.hexDigit? d).getD 0) 0

/-- Whether a number lies in the range of a signed integer of 64 bits. -/
def fitsInt64 (n : Int) : Bool :=
  -Int.pow 2 63 ≤ n && n < Int.pow 2 63

/-- A digit of a base up to sixteen. -/
def isDigitIn (base : Nat) (c : Char) : Bool :=
  match Json.hexDigit? c with
  | some d => d < base
  | none => false

/-- The integer that the digits spell in a base. -/
def integerIn? (base : Nat) (cs : List Char) : Option Int :=
  (digits? (isDigitIn base) false cs).bind fun ds =>
    let n : Int := valueIn base ds
    if fitsInt64 n then some n else none

/-- The integer that the word spells: decimal with an optional sign, or in base 16, 8 or 2
without one. -/
def integer? (cs : List Char) : Option Int :=
  match cs with
  | '0' :: 'x' :: r => integerIn? 16 r
  | '0' :: 'o' :: r => integerIn? 8 r
  | '0' :: 'b' :: r => integerIn? 2 r
  | cs =>
    let (negative, r) := signed cs
    (wholeDigits? r).bind fun ds =>
      let n : Int := valueIn 10 ds
      let n := if negative then -n else n
      if fitsInt64 n then some n else none

/-- The digits stand for a number that rounds to no finite double once it is scaled by a power
of ten. -/
def overflows (ds : List Char) (scale : Int) : Bool :=
  let ds := ds.dropWhile (· = '0')
  let n := valueIn 10 ds
  let magnitude := scale + ds.length
  let limit := Nat.pow 2 1024 - Nat.pow 2 970
  if n = 0 || magnitude < 308 then false
  else if 310 < magnitude then true
  else if 0 ≤ scale then limit ≤ n * Nat.pow 10 scale.toNat
  else limit * Nat.pow 10 (-scale).toNat ≤ n

/-- The exponent of a float; nothing is no exponent. -/
def exponent? : List Char → Option (Option Int)
  | [] => some none
  | c :: cs =>
    if c = 'e' ∨ c = 'E' then
      let (negative, r) := signed cs
      (digits? Char.isDigit false r).map fun ds =>
        let n : Int := valueIn 10 ds
        some (if negative then -n else n)
    else none

/-- Neither a point nor the letter of an exponent. -/
def isWholePart (c : Char) : Bool :=
  !(c = '.' || c = 'e' || c = 'E')

/-- The float that the word spells: a whole part and then a fraction, an exponent or both. -/
def float? (cs : List Char) : Option Json := do
  let (negative, r) := signed cs
  if r = ['i', 'n', 'f'] ∨ r = ['n', 'a', 'n'] then return .garbled
  let whole ← wholeDigits? (r.takeWhile isWholePart)
  let (fraction, r) ← match r.dropWhile isWholePart with
    | [] => none
    | '.' :: r =>
      (digits? Char.isDigit false (r.takeWhile isWholePart)).map
        fun ds => (ds, r.dropWhile isWholePart)
    | r => some ([], r)
  let exponent ← exponent? r
  let scale := exponent.getD 0 - fraction.length
  if !negative && overflows (whole ++ fraction) scale then none
  else some (.number ⟨negative, valueIn 10 whole, fraction, exponent⟩)

/-! ## Dates and times -/

/-- A number of exactly two digits that is at most `limit`. -/
def twoDigits? (limit : Nat) (a b : Char) : Option Nat := do
  let n := 10 * (← Text.digit? a) + (← Text.digit? b)
  if n ≤ limit then some n else none

/-- How many days a month has. -/
def daysIn (year month : Nat) : Nat :=
  if month = 2 then
    if year % 4 = 0 ∧ (year % 100 ≠ 0 ∨ year % 400 = 0) then 29 else 28
  else if month = 4 ∨ month = 6 ∨ month = 9 ∨ month = 11 then 30
  else 31

/-- Reads a date off the front; what follows it. -/
def date? : List Char → Option (List Char)
  | y₁ :: y₂ :: y₃ :: y₄ :: '-' :: m₁ :: m₂ :: '-' :: d₁ :: d₂ :: rest => do
    let year ← Text.decimal? [y₁, y₂, y₃, y₄]
    let month ← twoDigits? 12 m₁ m₂
    let day ← twoDigits? 31 d₁ d₂
    if month = 0 ∨ day = 0 ∨ daysIn year month < day then none else some rest
  | _ => none

/-- Reads a time of day off the front; what follows it. -/
def time? : List Char → Option (List Char)
  | h₁ :: h₂ :: ':' :: m₁ :: m₂ :: ':' :: s₁ :: s₂ :: rest => do
    let _ ← twoDigits? 23 h₁ h₂
    let _ ← twoDigits? 59 m₁ m₂
    let _ ← twoDigits? 60 s₁ s₂
    match rest with
    | '.' :: r =>
      let (fraction, r) := Json.spanDigits r
      if fraction.isEmpty then none else some r
    | r => some r
  | _ => none

/-- The distance from universal time, or nothing. -/
def isOffset : List Char → Bool
  | [] => true
  | [c] => c = 'Z' || c = 'z'
  | [sign, h₁, h₂, ':', m₁, m₂] =>
    (sign = '+' || sign = '-') && (twoDigits? 23 h₁ h₂).isSome && (twoDigits? 59 m₁ m₂).isSome
  | _ => false

/-- A time of day, with or without an offset. -/
def isTimeWithOffset (cs : List Char) : Bool :=
  match time? cs with
  | some r => isOffset r
  | none => false

/-- A date, with or without a time of day, or a time of day alone. -/
def isDateTime (cs : List Char) : Bool :=
  match date? cs with
  | some [] => true
  | some (c :: r) => (c = 'T' || c = 't') && isTimeWithOffset r
  | none =>
    match time? cs with
    | some r => r.isEmpty
    | none => false

/-- A date and nothing else; a time may follow after a space. -/
def isDate (cs : List Char) : Bool :=
  date? cs = some []

/-- The document of a date or time. -/
def ofDateTime (cs : List Char) : Json :=
  .object [("$datetime", .string (String.ofList cs))]

/-- The value of a word. -/
def wordValue? (cs : List Char) : Option Json :=
  if cs = ['t', 'r', 'u', 'e'] then some (.bool true)
  else if cs = ['f', 'a', 'l', 's', 'e'] then some (.bool false)
  else if isDateTime cs then some (ofDateTime cs)
  else
    match integer? cs with
    | some n => some (Json.ofInt n)
    | none => float? cs

end PluginHost.Toml
