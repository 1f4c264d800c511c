import ScriptConsole.Power

/-!
# Numbers

A number is a double, kept as its 64 bits.  Equality is the arithmetic one: a
value that is not a number equals nothing, and the two zeros are equal.
-/

namespace ScriptConsole

/-- The 64 bits of a double. -/
structure Number where
  bits : UInt64
  deriving DecidableEq, Repr, Inhabited

namespace Number

/-- The biased exponent. -/
def exponentField (number : Number) : Nat :=
  number.bits.toNat / powerOfTwo 52 % powerOfTwo 11

def fractionField (number : Number) : Nat :=
  number.bits.toNat % powerOfTwo 52

def isNegative (number : Number) : Bool :=
  powerOfTwo 63 ≤ number.bits.toNat

def isNaN (number : Number) : Bool :=
  number.exponentField == 2047 && number.fractionField != 0

def isInfinite (number : Number) : Bool :=
  number.exponentField == 2047 && number.fractionField == 0

def isZero (number : Number) : Bool :=
  number.exponentField == 0 && number.fractionField == 0

/-- The one number that is written for all that are none. -/
def nan : Number :=
  ⟨0x7ff8000000000000⟩

/-- Arithmetic equality. -/
def equals (left right : Number) : Bool :=
  !left.isNaN && !right.isNaN && ((left.isZero && right.isZero) || left == right)

theorem equals_comm (left right : Number) : left.equals right = right.equals left := by
  unfold equals
  rw [Bool.and_comm (!left.isNaN), Bool.and_comm left.isZero, BEq.comm (a := left)]

theorem equals_self (number : Number) : number.equals number = !number.isNaN := by
  simp [equals]

theorem equals_trans {a b c : Number} (hab : a.equals b = true)
    (hbc : b.equals c = true) : a.equals c = true := by
  simp only [equals, Bool.and_eq_true, Bool.or_eq_true, Bool.not_eq_true',
    beq_iff_eq] at hab hbc ⊢
  obtain ⟨⟨ha, -⟩, hab⟩ := hab
  obtain ⟨⟨-, hc⟩, hbc⟩ := hbc
  refine ⟨⟨ha, hc⟩, ?_⟩
  rcases hab with ⟨za, zb⟩ | rfl
  · rcases hbc with ⟨-, zc⟩ | rfl
    · exact Or.inl ⟨za, zc⟩
    · exact Or.inl ⟨za, zb⟩
  · exact hbc

/-- The magnitude of a finite number as a whole number and a power of two. -/
structure Magnitude where
  mantissa : Nat
  exponent : Int
  deriving DecidableEq, Repr

def magnitude (number : Number) : Magnitude :=
  if number.exponentField = 0 then ⟨number.fractionField, -1074⟩
  else ⟨powerOfTwo 52 + number.fractionField, (number.exponentField : Int) - 1075⟩

namespace Magnitude

def floor (magnitude : Magnitude) : Nat :=
  if 0 ≤ magnitude.exponent then magnitude.mantissa * powerOfTwo magnitude.exponent.toNat
  else magnitude.mantissa / powerOfTwo (-magnitude.exponent).toNat

def isWhole (magnitude : Magnitude) : Bool :=
  0 ≤ magnitude.exponent || magnitude.mantissa % powerOfTwo (-magnitude.exponent).toNat == 0

end Magnitude

end Number

end ScriptConsole
