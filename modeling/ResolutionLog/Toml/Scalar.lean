import ResolutionLog.Text.Split
import ResolutionLog.Toml.Text

/-! # Unquoted values in TOML

Truth values, numbers and points in time are written as one word without quotes. `scalar?` reads such
a word. Digits may be set apart by single underscores. -/

namespace ResolutionLog.Toml

/-! ## Numbers -/

/-- Whether a character is a decimal digit. -/
def isDigit (c : Char) : Bool := '0' ≤ c && c ≤ '9'

/-- The digits of a base in a word without its underscores, each of which stands between digits. -/
def digits? (base : Nat) (word : List Char) : Option (List Char) :=
  let groups := Text.pieces '_' word
  if groups.all (fun g => g ≠ [] && (number? base g).isSome) then some groups.flatten else none

/-- A number without a sign in decimal digits. It starts with a zero only if that is all of it. -/
def decimal? (word : List Char) : Option Nat := do
  let digits ← digits? 10 word
  if digits.length = 1 ∨ digits.head? ≠ some '0' then number? 10 digits else none

/-- A word without the sign in front of it, and whether the sign is a minus. -/
def takeSign : List Char → Bool × List Char
  | '-' :: rest => (true, rest)
  | '+' :: rest => (false, rest)
  | word => (false, word)

/-- A whole number: in decimal digits, with a sign or without, or in digits of another base. -/
def integer? : List Char → Option Int
  | '0' :: 'x' :: rest => do return (← number? 16 (← digits? 16 rest))
  | '0' :: 'o' :: rest => do return (← number? 8 (← digits? 8 rest))
  | '0' :: 'b' :: rest => do return (← number? 2 (← digits? 2 rest))
  | word => do
    let (negative, digits) := takeSign word
    let n ← decimal? digits
    return if negative then -(n : Int) else n

/-- Whether each underscore of a word stands between digits, where hexadecimal digits count
everywhere. -/
def isSpaced (word : List Char) : Bool :=
  let isDigit (c : Char) : Bool := (hexDigit? c).isSome
  let groups := Text.pieces '_' word
  groups.tail.all (fun g => g.head?.any isDigit) && groups.dropLast.all (fun g => g.getLast?.any isDigit)

/-- Whether a word begins like a decimal integer, up to an underscore, and has neither a space nor a mark
of a number with a fraction behind it. -/
def resemblesDecimal (word : List Char) : Bool :=
  match (takeSign word).2.span isDigit with
  | (first :: _, '_' :: rest) => first ≠ '0' && !rest.any fun c => [' ', '.', 'e', 'E'].contains c
  | _ => false

/-- Whether a word is taken for an integer without being one in full: such words are told from others by
the form of their beginning and the place of their underscores. -/
def isLooseInteger (word : List Char) : Bool :=
  word = ['0', 'x'] || word = ['0', 'o'] || word = ['0', 'b'] || (resemblesDecimal word && isSpaced word)

/-- Whether a word is the power of ten of a number: digits, perhaps with a sign. -/
def isExponent (word : List Char) : Bool := (digits? 10 (takeSign word).2).isSome

/-- Whether a word is a number with a fraction but no power of ten. -/
def hasFraction (word : List Char) : Bool :=
  match Text.cutFirst? ['.'] word with
  | some (whole, fraction) => (decimal? whole).isSome && (digits? 10 fraction).isSome
  | none => false

/-- Whether a word is a number with a fraction, with a power of ten, or with both. -/
def isFloat (word : List Char) : Bool :=
  let unsigned := (takeSign word).2
  let mantissa := unsigned.takeWhile fun c => c ≠ 'e' && c ≠ 'E'
  match unsigned.drop mantissa.length with
  | [] => hasFraction mantissa || unsigned = ['i', 'n', 'f'] || unsigned = ['n', 'a', 'n']
  | _ :: exponent =>
    (hasFraction mantissa || (decimal? mantissa).isSome) && isExponent exponent

/-! ## Points in time -/

/-- The number of days in a month. -/
def daysIn (year month : Nat) : Nat :=
  if month = 2 then
    if year % 4 = 0 ∧ (year % 100 ≠ 0 ∨ year % 400 = 0) then 29 else 28
  else if month = 4 ∨ month = 6 ∨ month = 9 ∨ month = 11 then 30
  else 31

/-- What follows a date, if there is one in front. -/
def afterDate? : List Char → Option (List Char)
  | y₁ :: y₂ :: y₃ :: y₄ :: '-' :: m₁ :: m₂ :: '-' :: d₁ :: d₂ :: rest => do
    let year ← number? 10 [y₁, y₂, y₃, y₄]
    let month ← number? 10 [m₁, m₂]
    let day ← number? 10 [d₁, d₂]
    if 1 ≤ month ∧ month ≤ 12 ∧ 1 ≤ day ∧ day ≤ daysIn year month then some rest else none
  | _ => none

/-- What follows an hour and a minute, if they are in front. -/
def afterMinute? : List Char → Option (List Char)
  | h₁ :: h₂ :: ':' :: m₁ :: m₂ :: rest => do
    let hour ← number? 10 [h₁, h₂]
    let minute ← number? 10 [m₁, m₂]
    if hour ≤ 23 ∧ minute ≤ 59 then some rest else none
  | _ => none

/-- What follows a time of day, if there is one in front. Seconds may be left out, and may have a
fraction. -/
def afterTime? (word : List Char) : Option (List Char) := do
  match ← afterMinute? word with
  | ':' :: s₁ :: s₂ :: rest =>
    let second ← number? 10 [s₁, s₂]
    if 60 < second then none
    else
      match rest with
      | '.' :: d :: rest => if isDigit d then some (rest.dropWhile isDigit) else none
      | _ => some rest
  | rest => some rest

/-- Whether a word is empty or the distance of a local time from the universal one. -/
def isOffset : List Char → Bool
  | [] | ['Z'] | ['z'] => true
  | '+' :: rest | '-' :: rest => afterMinute? rest = some []
  | _ => false

/-- Whether a word is a date, a time, or a date with a time. -/
def isMoment (word : List Char) : Bool :=
  match afterDate? word with
  | some [] => true
  | some (c :: time) => (c = 'T' || c = 't' || c = ' ') && ((afterTime? time).map isOffset).getD false
  | none => afterTime? word = some []

/-! ## All words -/

/-- The value that a word writes. -/
def scalar? (word : List Char) : Option Value :=
  if word = "true".toList then some (.boolean true)
  else if word = "false".toList then some (.boolean false)
  else
    match integer? word with
    | some n => some (.integer n)
    | none =>
      if isFloat word then some (.float (String.ofList word))
      else if isMoment word then some (.moment (String.ofList word))
      else if isLooseInteger word then some (.malformed (String.ofList word))
      else none

end ResolutionLog.Toml
