/-!
# Blanks and line breaks

Blanks are the characters of the Unicode property `White_Space`.  Trimming
removes them from one end or from both, and every trimmed text is an infix of
the text it was cut from.
-/

namespace ScriptConsole.Text

/-- Unicode `White_Space`. -/
def isBlank (c : Char) : Bool :=
  let n := c.toNat
  (0x9 ≤ n && n ≤ 0xd) || n == 0x20 || n == 0x85 || n == 0xa0 || n == 0x1680 ||
    (0x2000 ≤ n && n ≤ 0x200a) || n == 0x2028 || n == 0x2029 || n == 0x202f ||
    n == 0x205f || n == 0x3000

/-- The four characters that end a line of script source. -/
def isLineBreak (c : Char) : Bool :=
  c == '\n' || c == '\r' || c == '\u2028' || c == '\u2029'

theorem isBlank_of_isLineBreak {c : Char} (h : isLineBreak c = true) :
    isBlank c = true := by
  simp only [isLineBreak, Bool.or_eq_true, beq_iff_eq] at h
  rcases h with ((rfl | rfl) | rfl) | rfl <;> rfl

def trimStart (cs : List Char) : List Char :=
  cs.dropWhile isBlank

def trimEnd (cs : List Char) : List Char :=
  (cs.reverse.dropWhile isBlank).reverse

def trim (cs : List Char) : List Char :=
  trimEnd (trimStart cs)

def indent (cs : List Char) : List Char :=
  cs.takeWhile isBlank

@[simp] theorem indent_append_trimStart (cs : List Char) :
    indent cs ++ trimStart cs = cs :=
  List.takeWhile_append_dropWhile

theorem trimStart_length_le (cs : List Char) :
    (trimStart cs).length ≤ cs.length :=
  (List.dropWhile_suffix isBlank).length_le

theorem trimEnd_length_le (cs : List Char) :
    (trimEnd cs).length ≤ cs.length := by
  have h := (List.dropWhile_suffix (l := cs.reverse) isBlank).length_le
  simpa [trimEnd] using h

theorem trim_length_le (cs : List Char) : (trim cs).length ≤ cs.length :=
  Nat.le_trans (trimEnd_length_le _) (trimStart_length_le _)

def isAllBlank (cs : List Char) : Bool :=
  cs.all isBlank

theorem isAllBlank_iff_trimStart_eq_nil (cs : List Char) :
    isAllBlank cs = true ↔ trimStart cs = [] := by
  induction cs with
  | nil => simp [isAllBlank, trimStart]
  | cons c cs ih =>
      by_cases h : isBlank c <;>
        simp_all [isAllBlank, trimStart]

end ScriptConsole.Text
