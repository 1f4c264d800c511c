/-!
# Escape sequences

Terminals read two kinds of escape sequence out of a text: control sequences,
which end with a letter, and operating system commands, which end with a bell or
a string terminator.  Stripping removes those that are complete.
-/

namespace ScriptConsole.Text

def isSequenceParameter (c : Char) : Bool :=
  ('0' ≤ c && c ≤ '9') || c == ';' || c == '?'

def isSequenceIntermediate (c : Char) : Bool :=
  ' ' ≤ c && c ≤ '/'

def isSequenceFinal (c : Char) : Bool :=
  '@' ≤ c && c ≤ '~'

/-- What follows a control sequence after its opening bracket. -/
def afterControl? (cs : List Char) : Option (List Char) :=
  match (cs.dropWhile isSequenceParameter).dropWhile isSequenceIntermediate with
  | c :: rest => if isSequenceFinal c then some rest else none
  | [] => none

/-- What follows a system command after its opening bracket. -/
def afterCommand? (cs : List Char) : Option (List Char) :=
  match cs.dropWhile fun c => c != '\x07' && c != '\x1b' with
  | '\x07' :: rest => some rest
  | '\x1b' :: '\\' :: rest => some rest
  | _ => none

/-- What follows the escape sequence that opens a text. -/
def afterEscape? : List Char → Option (List Char)
  | '\x1b' :: '[' :: cs => afterControl? cs
  | '\x1b' :: ']' :: cs => afterCommand? cs
  | _ => none

theorem afterControl?_length_lt {cs rest : List Char} (h : afterControl? cs = some rest) :
    rest.length < cs.length := by
  unfold afterControl? at h
  split at h
  · rename_i c more hd
    split at h
    · simp only [Option.some.injEq] at h
      subst h
      have h1 := (List.dropWhile_suffix (l := cs) isSequenceParameter).length_le
      have h2 := (List.dropWhile_suffix (l := cs.dropWhile isSequenceParameter)
        isSequenceIntermediate).length_le
      rw [hd, List.length_cons] at h2
      omega
    · simp at h
  · simp at h

theorem afterCommand?_length_lt {cs rest : List Char} (h : afterCommand? cs = some rest) :
    rest.length < cs.length := by
  unfold afterCommand? at h
  have hlen := (List.dropWhile_suffix (l := cs)
    fun c => c != '\x07' && c != '\x1b').length_le
  split at h
  · rename_i more hd
    simp only [Option.some.injEq] at h
    subst h
    rw [hd, List.length_cons] at hlen
    omega
  · rename_i more hd
    simp only [Option.some.injEq] at h
    subst h
    rw [hd, List.length_cons, List.length_cons] at hlen
    omega
  · simp at h

theorem afterEscape?_length_lt {cs rest : List Char} (h : afterEscape? cs = some rest) :
    rest.length < cs.length := by
  unfold afterEscape? at h
  split at h
  · have := afterControl?_length_lt h
    simp only [List.length_cons]
    omega
  · have := afterCommand?_length_lt h
    simp only [List.length_cons]
    omega
  · simp at h

/-- Remove all complete escape sequences, from left to right. -/
def stripEscapes (cs : List Char) : List Char :=
  match cs with
  | [] => []
  | c :: more =>
      match _h : afterEscape? (c :: more) with
      | some rest => stripEscapes rest
      | none => c :: stripEscapes more
termination_by cs.length
decreasing_by
  · exact afterEscape?_length_lt _h
  · simp

end ScriptConsole.Text
