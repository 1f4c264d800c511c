import ScriptConsole.Text.Blank

/-!
# Tokens

A token carries its text and the gap before it, the blanks and comments that
separate it from the token to its left.  Gaps and texts in order spell the
source again, so every later stage works on tokens and never on positions.
-/

namespace ScriptConsole

inductive TokenKind where
  /-- Identifiers and keywords, private names included. -/
  | identifier
  | number
  /-- Text in single or double quotes. -/
  | string
  /-- A template with all its substitutions. -/
  | template
  | regex
  | punctuator
  deriving DecidableEq, Repr, Inhabited

structure Token where
  kind : TokenKind
  gap : List Char
  text : List Char
  deriving DecidableEq, Repr, Inhabited

inductive Bracket where
  | round
  | square
  | curly
  deriving DecidableEq, Repr, Inhabited

namespace Bracket

def opening : Bracket → Char
  | round => '('
  | square => '['
  | curly => '{'

def closing : Bracket → Char
  | round => ')'
  | square => ']'
  | curly => '}'

def ofOpening? (c : Char) : Option Bracket :=
  if c = '(' then some round
  else if c = '[' then some square
  else if c = '{' then some curly
  else none

def ofClosing? (c : Char) : Option Bracket :=
  if c = ')' then some round
  else if c = ']' then some square
  else if c = '}' then some curly
  else none

@[simp] theorem ofOpening?_opening (b : Bracket) : ofOpening? b.opening = some b := by
  cases b <;> rfl

@[simp] theorem ofClosing?_closing (b : Bracket) : ofClosing? b.closing = some b := by
  cases b <;> rfl

theorem eq_opening_of_ofOpening? {c : Char} {b : Bracket}
    (h : ofOpening? c = some b) : c = b.opening := by
  unfold ofOpening? at h
  split at h
  · cases h; assumption
  · split at h
    · cases h; assumption
    · split at h
      · cases h; assumption
      · cases h

theorem eq_closing_of_ofClosing? {c : Char} {b : Bracket}
    (h : ofClosing? c = some b) : c = b.closing := by
  unfold ofClosing? at h
  split at h
  · cases h; assumption
  · split at h
    · cases h; assumption
    · split at h
      · cases h; assumption
      · cases h

end Bracket

namespace Token

/-- Whether a line break stands between this token and the one before it. -/
def startsLine (token : Token) : Bool :=
  token.gap.any Text.isLineBreak

def isPunctuator (token : Token) (text : String) : Bool :=
  token.kind == .punctuator && token.text == text.toList

def isWord (token : Token) (word : String) : Bool :=
  token.kind == .identifier && token.text == word.toList

def isIdentifier (token : Token) : Bool :=
  token.kind == .identifier

def isWordIn (token : Token) (words : List String) : Bool :=
  token.kind == .identifier && words.any fun word => token.text == word.toList

def isPunctuatorIn (token : Token) (texts : List String) : Bool :=
  token.kind == .punctuator && texts.any fun text => token.text == text.toList

def opens? (token : Token) : Option Bracket :=
  match token.kind, token.text with
  | .punctuator, [c] => Bracket.ofOpening? c
  | _, _ => none

def closes? (token : Token) : Option Bracket :=
  match token.kind, token.text with
  | .punctuator, [c] => Bracket.ofClosing? c
  | _, _ => none

def isOpener (token : Token) : Bool :=
  token.opens?.isSome

def isCloser (token : Token) : Bool :=
  token.closes?.isSome

def opensWith (token : Token) (bracket : Bracket) : Bool :=
  token.opens? == some bracket

def closesWith (token : Token) (bracket : Bracket) : Bool :=
  token.closes? == some bracket

def source (token : Token) : List Char :=
  token.gap ++ token.text

/-- The source that a run of tokens spells, the gap before its first included. -/
def sourceOf (tokens : List Token) : List Char :=
  tokens.flatMap source

/-- The source from the first to the last token of a run. -/
def textOf : List Token → List Char
  | [] => []
  | token :: tokens => token.text ++ sourceOf tokens

def gapOf : List Token → List Char
  | [] => []
  | token :: _ => token.gap

@[simp] theorem sourceOf_nil : sourceOf [] = [] := rfl

@[simp] theorem sourceOf_cons (token : Token) (tokens : List Token) :
    sourceOf (token :: tokens) = token.gap ++ token.text ++ sourceOf tokens := by
  simp [sourceOf, source]

@[simp] theorem sourceOf_append (left right : List Token) :
    sourceOf (left ++ right) = sourceOf left ++ sourceOf right := by
  simp [sourceOf]

theorem gapOf_append_textOf (tokens : List Token) :
    gapOf tokens ++ textOf tokens = sourceOf tokens := by
  cases tokens <;> simp [gapOf, textOf]

theorem closes?_eq_some_iff {token : Token} {bracket : Bracket} :
    token.closes? = some bracket ↔
      token.kind = .punctuator ∧ token.text = [bracket.closing] := by
  obtain ⟨kind, gap, text⟩ := token
  constructor
  · intro h
    unfold closes? at h
    split at h
    · rename_i c hk ht
      simp only at hk ht
      exact ⟨hk, by rw [ht, Bracket.eq_closing_of_ofClosing? h]⟩
    · cases h
  · rintro ⟨hk, ht⟩
    simp only at hk ht
    subst hk ht
    simp [closes?]

theorem opens?_eq_some_iff {token : Token} {bracket : Bracket} :
    token.opens? = some bracket ↔
      token.kind = .punctuator ∧ token.text = [bracket.opening] := by
  obtain ⟨kind, gap, text⟩ := token
  constructor
  · intro h
    unfold opens? at h
    split at h
    · rename_i c hk ht
      simp only at hk ht
      exact ⟨hk, by rw [ht, Bracket.eq_opening_of_ofOpening? h]⟩
    · cases h
  · rintro ⟨hk, ht⟩
    simp only at hk ht
    subst hk ht
    simp [opens?]

theorem opens?_eq_none_of_closes? {token : Token} {bracket : Bracket}
    (h : token.closes? = some bracket) : token.opens? = none := by
  obtain ⟨hk, ht⟩ := closes?_eq_some_iff.1 h
  simp only [opens?, hk, ht]
  cases bracket <;> rfl

/-- The number of characters in the texts of a run of tokens. -/
def textLength : List Token → Nat
  | [] => 0
  | token :: tokens => token.text.length + textLength tokens

@[simp] theorem textLength_nil : textLength [] = 0 := rfl

@[simp] theorem textLength_cons (token : Token) (tokens : List Token) :
    textLength (token :: tokens) = token.text.length + textLength tokens := rfl

end Token

end ScriptConsole
