import ScriptConsole.Token

/-!
# Binding patterns

The names that a destructuring pattern binds, left to right.  Reading a pattern
works on any run of tokens: it never goes back, and what it cannot make sense of
it steps over.
-/

namespace ScriptConsole.Pattern

/-- Step over an element up to the next comma or closing bracket. -/
def skipElement (depth : Nat) : List Token → List Token
  | [] => []
  | token :: rest =>
      if token.isOpener then skipElement (depth + 1) rest
      else if token.isCloser then
        if depth = 0 then token :: rest else skipElement (depth - 1) rest
      else if depth = 0 ∧ token.isPunctuator "," then token :: rest
      else skipElement depth rest

/-- Step over a bracket and all up to the one that closes it. -/
def skipBalanced (depth : Nat) : List Token → List Token
  | [] => []
  | token :: rest =>
      if token.isOpener then skipBalanced (depth + 1) rest
      else if token.isCloser then
        if depth - 1 = 0 then rest else skipBalanced (depth - 1) rest
      else skipBalanced depth rest

theorem skipElement_suffix (depth : Nat) (tokens : List Token) :
    skipElement depth tokens <:+ tokens := by
  induction tokens generalizing depth with
  | nil => exact List.suffix_refl _
  | cons token rest ih =>
      unfold skipElement
      split
      · exact (ih _).trans (List.suffix_cons _ _)
      · split
        · split
          · exact List.suffix_refl _
          · exact (ih _).trans (List.suffix_cons _ _)
        · split
          · exact List.suffix_refl _
          · exact (ih _).trans (List.suffix_cons _ _)

theorem skipBalanced_suffix (depth : Nat) (tokens : List Token) :
    skipBalanced depth tokens <:+ tokens := by
  induction tokens generalizing depth with
  | nil => exact List.suffix_refl _
  | cons token rest ih =>
      unfold skipBalanced
      split
      · exact (ih _).trans (List.suffix_cons _ _)
      · split
        · split
          · exact List.suffix_cons _ _
          · exact (ih _).trans (List.suffix_cons _ _)
        · exact (ih _).trans (List.suffix_cons _ _)

def nextIs (text : String) (tokens : List Token) : Bool :=
  tokens.head?.any (·.isPunctuator text)

/-- The tokens that a pattern binds, and the tokens after it, which are no more
than the pattern began with. -/
structure Reading (tokens : List Token) where
  bound : List Token
  rest : List Token
  length_le : rest.length ≤ tokens.length

namespace Reading

def stop (tokens : List Token) : Reading tokens :=
  ⟨[], tokens, Nat.le_refl _⟩

def skipDefault {tokens : List Token} (reading : Reading tokens) : Reading tokens :=
  if nextIs "=" reading.rest then
    { reading with
      rest := skipElement 0 reading.rest
      length_le :=
        Nat.le_trans (skipElement_suffix _ _).length_le reading.length_le }
  else reading

/-- A reading of fewer tokens is one of all of them. -/
def weaken {tokens fewer : List Token} (h : fewer.length ≤ tokens.length)
    (reading : Reading fewer) : Reading tokens :=
  { reading with length_le := Nat.le_trans reading.length_le h }

/-- Put the tokens of an earlier reading before those of this one. -/
def after {tokens : List Token} (bound : List Token) (reading : Reading tokens) :
    Reading tokens :=
  { reading with bound := bound ++ reading.bound }

end Reading

/-- Where the next entry begins after one of a list has been read: after its
comma, and if nothing was read after the first token. -/
def nextEntry (token : Token) (rest after : List Token) : List Token :=
  if nextIs "," after then after.tail
  else if after.length = (token :: rest).length then rest
  else after

theorem nextEntry_length_le {token : Token} {rest after : List Token}
    (h : after.length ≤ (token :: rest).length) :
    (nextEntry token rest after).length ≤ rest.length := by
  unfold nextEntry
  simp only [List.length_cons] at h ⊢
  split
  · rw [List.length_tail]
    omega
  · split
    · exact Nat.le_refl _
    · omega

mutual

/-- A name, an object pattern or an array pattern, with its default value. -/
def readTarget (tokens : List Token) : Reading tokens :=
  match tokens with
  | [] => .stop []
  | token :: rest =>
      if token.isIdentifier then
        Reading.skipDefault ⟨[token], rest, Nat.le_succ _⟩
      else if token.opensWith .curly then
        ((readEntries rest).weaken (Nat.le_succ _)).skipDefault
      else if token.opensWith .square then
        ((readElements rest).weaken (Nat.le_succ _)).skipDefault
      else
        Reading.skipDefault
          ⟨[], skipElement 0 (token :: rest), (skipElement_suffix _ _).length_le⟩
termination_by (tokens.length, 0)

/-- The entry of an object pattern that opens a run of tokens. -/
def readEntry (tokens : List Token) : Reading tokens :=
  match tokens with
  | [] => .stop []
  | token :: rest =>
      if token.isPunctuator "..." then
        (readTarget rest).weaken (Nat.le_succ _)
      else if token.opensWith .square then
        let after := skipBalanced 0 (token :: rest)
        have hafter : after.length ≤ (token :: rest).length :=
          (skipBalanced_suffix _ _).length_le
        match after, hafter with
        | colon :: value, hafter =>
            if colon.isPunctuator ":" then
              (readTarget value).weaken (Nat.le_of_succ_le hafter)
            else ⟨[], colon :: value, hafter⟩
        | [], hafter => ⟨[], [], hafter⟩
      else
        match rest with
        | colon :: value =>
            if colon.isPunctuator ":" then
              (readTarget value).weaken (by simp only [List.length_cons]; omega)
            else readTarget (token :: colon :: value)
        | [] => readTarget [token]
termination_by (tokens.length, 1)

/-- The element of an array pattern that opens a run of tokens. -/
def readElement (tokens : List Token) : Reading tokens :=
  match tokens with
  | [] => .stop []
  | token :: rest =>
      if token.isPunctuator "..." then (readTarget rest).weaken (Nat.le_succ _)
      else readTarget (token :: rest)
termination_by (tokens.length, 1)

/-- The entries of an object pattern up to and including its closing bracket. -/
def readEntries (tokens : List Token) : Reading tokens :=
  match tokens with
  | [] => .stop []
  | token :: rest =>
      if token.closesWith .curly then ⟨[], rest, Nat.le_succ _⟩
      else
        match readEntry (token :: rest) with
        | ⟨bound, after, hafter⟩ =>
            have hnext := nextEntry_length_le hafter
            ((readEntries (nextEntry token rest after)).weaken
              (Nat.le_succ_of_le hnext)).after bound
termination_by (tokens.length, 2)

/-- The elements of an array pattern up to and including its closing bracket. -/
def readElements (tokens : List Token) : Reading tokens :=
  match tokens with
  | [] => .stop []
  | token :: rest =>
      if token.closesWith .square then ⟨[], rest, Nat.le_succ _⟩
      else if token.isPunctuator "," then (readElements rest).weaken (Nat.le_succ _)
      else
        match readElement (token :: rest) with
        | ⟨bound, after, hafter⟩ =>
            have hnext := nextEntry_length_le hafter
            ((readElements (nextEntry token rest after)).weaken
              (Nat.le_succ_of_le hnext)).after bound
termination_by (tokens.length, 2)

end

/-- The tokens that the pattern at the start of a run of tokens binds. -/
def boundTokens (tokens : List Token) : List Token :=
  (readTarget tokens).bound

/-- The names that the pattern at the start of a run of tokens binds. -/
def names (tokens : List Token) : List (List Char) :=
  (boundTokens tokens).map (·.text)

end ScriptConsole.Pattern
