import ScriptConsole.Power
import ScriptConsole.Toml
import ScriptConsole.Toml.Lexical

/-!
# Numbers and dates of documents
-/

namespace ScriptConsole.Toml.Reader

/-- Digits of a class, with single underscores between them. -/
def moreDigits (isDigit : Char → Bool) : Reader (List Char) :=
  many (one isDigit <|> (do exactly '_'; one isDigit))

def digits (isDigit : Char → Bool) : Reader (List Char) := do
  let first ← one isDigit
  return first :: (← moreDigits isDigit)

def sign : Reader Bool := do
  match ← maybe (one fun c => c == '+' || c == '-') with
  | some c => return c == '-'
  | none => return false

/-- The digits of a whole number; only zero starts with a zero. -/
def wholeDigits : Reader (List Char) :=
  (do
    let first ← one fun c => Text.isAsciiDigit c && c ≠ '0'
    return first :: (← moreDigits Text.isAsciiDigit)) <|>
  (do return [← one Text.isAsciiDigit])

def numberOf (base : Nat) (text : List Char) : Nat :=
  text.foldl (fun n c => n * base + (Text.hexDigit? c).getD 0) 0

/-- An integer of 64 bits. -/
def bounded (n : Int) : Reader Toml :=
  if -powerOfTwo 63 ≤ n && n < powerOfTwo 63 then return .integer n else failure

def based (mark : String) (base : Nat) : Reader Toml := do
  word mark
  let text ← digits fun c => (Text.hexDigit? c).any (· < base)
  bounded (numberOf base text)

def integer : Reader Toml :=
  based "0x" 16 <|> based "0o" 8 <|> based "0b" 2 <|>
  (do
    let negative ← sign
    let n := (numberOf 10 (← wholeDigits) : Int)
    bounded (if negative then -n else n))

/-- Numbers from here on are beyond all doubles. -/
def doubleBound : Nat :=
  powerOfTwo 1024 - powerOfTwo 970

/-- Whether decimal digits with an exponent are beyond all doubles. -/
def overflows (text : List Char) (exponent : Int) : Bool :=
  let n := numberOf 10 text
  if n = 0 || exponent + text.length < 300 then false
  else if 400 < exponent then true
  else if 0 ≤ exponent then doubleBound ≤ n * powerOfTen exponent.toNat
  else doubleBound * powerOfTen (-exponent).toNat ≤ n

def exponent : Reader Int := do
  let _ ← one fun c => c == 'e' || c == 'E'
  let negative ← sign
  let n := (numberOf 10 (← digits Text.isAsciiDigit) : Int)
  return if negative then -n else n

def fraction : Reader (List Char) := do
  exactly '.'
  digits Text.isAsciiDigit

/-- A number with a fraction, an exponent or both. -/
def decimal : Reader Toml := do
  let negative ← sign
  let whole ← wholeDigits
  let (after, power) ←
    (do return ([], ← exponent)) <|>
    (do
      let after ← fraction
      let power ← maybe exponent
      return (after, power.getD 0))
  if !negative && overflows (whole ++ after) (power - after.length) then failure
  else return .float

def float : Reader Toml :=
  decimal <|>
  (do
    let _ ← sign
    word "inf" <|> word "nan"
    return .float)

/-! ## Dates -/

def fixedNumber (width : Nat) : Reader Nat :=
  return numberOf 10 (← count Text.isAsciiDigit width)

def within (low high : Nat) : Reader Nat := do
  let n ← fixedNumber 2
  if low ≤ n && n ≤ high then return n else failure

def daysOf (year month : Nat) : Nat :=
  if month = 2 then
    if year % 4 = 0 && (year % 100 ≠ 0 || year % 400 = 0) then 29 else 28
  else if month = 4 || month = 6 || month = 9 || month = 11 then 30
  else 31

def date : Reader Unit := do
  let year ← fixedNumber 4
  exactly '-'
  let month ← within 1 12
  exactly '-'
  let _ ← within 1 (daysOf year month)

def time : Reader Unit := do
  let _ ← within 0 23
  exactly ':'
  let _ ← within 0 59
  exactly ':'
  let _ ← within 0 60
  let _ ← maybe (do
    exactly '.'
    let _ ← one Text.isAsciiDigit
    let _ ← run Text.isAsciiDigit)

def timeOffset : Reader Unit :=
  (do let _ ← one fun c => c == 'Z' || c == 'z') <|>
  (do
    let _ ← one fun c => c == '+' || c == '-'
    let _ ← within 0 23
    exactly ':'
    let _ ← within 0 59)

def dateTime : Reader Toml :=
  (do
    date
    let _ ← maybe (do
      let _ ← one fun c => c == 'T' || c == 't' || c == ' '
      time
      let _ ← maybe timeOffset)
    return .dateTime) <|>
  (do
    time
    return .dateTime)

def boolean : Reader Toml :=
  (do word "true"; return .boolean true) <|> (do word "false"; return .boolean false)

def scalar : Reader Toml :=
  (do return .string (← string)) <|> dateTime <|> float <|> integer <|> boolean

end ScriptConsole.Toml.Reader
