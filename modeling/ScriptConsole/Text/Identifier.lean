import ScriptConsole.Text.Identifier.Ranges

/-!
# Identifier characters

An identifier opens with `$`, `_` or a character of `XID_Start`; further
characters may also come from `XID_Continue` or be one of the two joiners.
Every character that opens an identifier may continue one.
-/

namespace ScriptConsole.Text

/-- Membership of a code point in a list of inclusive ranges. -/
def inRanges (ranges : List (Nat × Nat)) (n : Nat) : Bool :=
  ranges.any fun range => range.1 ≤ n && n ≤ range.2

def isAsciiLetter (c : Char) : Bool :=
  ('a' ≤ c && c ≤ 'z') || ('A' ≤ c && c ≤ 'Z')

def isAsciiDigit (c : Char) : Bool :=
  '0' ≤ c && c ≤ '9'

def isAsciiAlphanumeric (c : Char) : Bool :=
  isAsciiLetter c || isAsciiDigit c

def isIdentStart (c : Char) : Bool :=
  c == '$' || c == '_' || isAsciiLetter c ||
    (0x80 ≤ c.toNat && inRanges identStartRanges c.toNat)

/-- Characters that may follow the first one of an identifier. -/
def isIdentContinue (c : Char) : Bool :=
  isIdentStart c || isAsciiDigit c || c == '\u200c' || c == '\u200d' ||
    (0x80 ≤ c.toNat && inRanges identExtendRanges c.toNat)

theorem isIdentContinue_of_isIdentStart {c : Char} (h : isIdentStart c = true) :
    isIdentContinue c = true := by
  simp [isIdentContinue, h]

end ScriptConsole.Text
