import DispatchGen.Toml.Quoted
import DispatchGen.Toml.Value

/-!
# Numbers

Integers have 64 bits, signed; underscores may stand between digits. A float keeps its text, but one
that rounds to positive infinity is refused.
-/

namespace DispatchGen.Toml

open Reader

/-- Digits of one kind, of which single underscores may separate any two. -/
def digits (accept : Char → Bool) : Reader (List Char) :=
  return (← satisfy accept) :: (← many (satisfy accept <|> (char '_' *> satisfy accept)))

/-- A sign, or none. -/
def sign : Reader (List Char) :=
  (do return [← satisfy fun c => c == '+' || c == '-']) <|> pure []

/-- Decimal digits without leading zeros. -/
def wholeDigits : Reader (List Char) := do
  if (← peek) = some '0' then
    char '0'
    return ['0']
  else
    digits Char.isDigit

/-- A whole number in another base, behind the mark of the base; it has no sign. -/
def basedInteger : Reader Int := do
  let value ← (do word "0x"; return ofDigits 16 (← digits isHexDigit)) <|>
    (do word "0o"; return ofDigits 8 (← digits fun c => '0' ≤ c && c ≤ '7')) <|>
    (do word "0b"; return ofDigits 2 (← digits fun c => c == '0' || c == '1'))
  guard (value ≤ maxInteger)
  return value

def decimalInteger : Reader Int := do
  let mark ← sign
  let magnitude : Int := ofDigits 10 (← wholeDigits)
  let value := if mark = ['-'] then -magnitude else magnitude
  guard (-maxInteger - 1 ≤ value ∧ value ≤ maxInteger)
  return value

/-- A number in a base other than ten must be read as a whole: `0` alone would leave the rest. -/
def integer : Reader Int :=
  basedInteger <|> decimalInteger

/-- From `bound` on, a decimal rounds to an infinite double: halfway from the largest finite one to
the next power of two, and halfway goes up. -/
def infinityBound : Nat := Nat.pow 2 1024 - Nat.pow 2 970

/-- The decimal `mantissa * 10 ^ exponent` rounds to an infinite double. Its order of magnitude
settles all but a few cases, so that no power is computed for a huge exponent. -/
def isInfinite (mantissa : Nat) (exponent : Int) : Bool :=
  let magnitude := ((Nat.toDigits 10 mantissa).length : Int) + exponent
  if mantissa = 0 ∨ magnitude < 300 then false
  else if 320 < magnitude then true
  else infinityBound * Nat.pow 10 (-exponent).toNat ≤ mantissa * Nat.pow 10 exponent.toNat

/-- The part of a float behind the point. -/
def fraction : Reader (List Char) := do
  char '.'
  digits Char.isDigit

/-- The exponent of a float, with its sign. -/
def exponent : Reader Int := do
  let _ ← satisfy fun c => c == 'e' || c == 'E'
  let mark ← sign
  let magnitude : Int := ofDigits 10 (← digits Char.isDigit)
  return if mark = ['-'] then -magnitude else magnitude

/-- The text that a reader takes. -/
def taken {α : Type} (item : Reader α) : Reader (List Char) := fun cs =>
  (item cs).map fun (_, rest) => (cs.take (cs.length - rest.length), rest)

/-- A float in digits: it has a fraction, an exponent or both. -/
def decimalFloat : Reader Unit := do
  let mark ← sign
  let whole ← wholeDigits
  let frac ← optional fraction
  let exp ← optional exponent
  guard (frac.isSome ∨ exp.isSome)
  let behind := frac.getD []
  guard (mark = ['-'] ∨ !isInfinite (ofDigits 10 (whole ++ behind)) (exp.getD 0 - behind.length))

/-- An infinity, or a value that is not a number. -/
def specialFloat : Reader Unit := do
  let _ ← sign
  word "inf" <|> word "nan"

/-- A float, as it is written. -/
def float : Reader String := do
  return String.ofList (← taken (decimalFloat <|> specialFloat))

end DispatchGen.Toml
