import ScriptConsole.Number.Shortest

/-!
# Texts of numbers

Whole numbers below `10 ^ 21` are written with all their digits.  Other numbers
have the shortest digits that read back: from `10 ^ 21` on with an exponent,
below it with a decimal point.
-/

namespace ScriptConsole.Number

def digitChars (n : Nat) : List Char :=
  Nat.toDigits 10 n

/-- Digits with a decimal point after the first `point` of them. -/
def positional (digits : List Char) (point : Int) : List Char :=
  if point ≤ 0 then '0' :: '.' :: List.replicate (-point).toNat '0' ++ digits
  else if digits.length ≤ point.toNat then
    digits ++ List.replicate (point.toNat - digits.length) '0'
  else digits.take point.toNat ++ '.' :: digits.drop point.toNat

/-- Digits with a point after the first of them and an exponent. -/
def scientific (digits : List Char) (point : Int) : List Char :=
  let mantissa :=
    match digits with
    | [] => []
    | [digit] => [digit]
    | digit :: more => digit :: '.' :: more
  mantissa ++ 'e' :: '+' :: digitChars (point - 1).toNat

def Magnitude.text (magnitude : Magnitude) : List Char :=
  let large := powerOfTen 21 ≤ magnitude.floor
  if magnitude.isWhole && !large then digitChars magnitude.floor
  else
    let decimal := magnitude.shortest
    let digits := digitChars decimal.digits
    if large then scientific digits decimal.point else positional digits decimal.point

def text (number : Number) : List Char :=
  if number.isNaN then "NaN".toList
  else
    (if number.isNegative then ['-'] else []) ++
      if number.isInfinite then "Infinity".toList else number.magnitude.text

end ScriptConsole.Number
