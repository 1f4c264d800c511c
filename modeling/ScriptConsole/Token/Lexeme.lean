import ScriptConsole.Text.Identifier
import ScriptConsole.Token.Nested

/-!
# Lexemes

The longest token that opens a source, given the token before it.  That token
decides one thing: whether a slash opens a regular expression or divides.
Reading never fails; what is open at the end of the source ends there.
-/

namespace ScriptConsole

/-- A token's kind, its text after the first character, and what follows it. -/
structure Lexeme where
  kind : TokenKind
  more : List Char
  rest : List Char
  deriving DecidableEq, Repr

namespace Lexeme

/-- Punctuators of two characters and more, longest first. -/
def punctuators : List String :=
  [">>>=", "...", "===", "!==", "**=", "<<=", ">>=", ">>>", "&&=", "||=", "??=",
    "=>", "==", "!=", "<=", ">=", "&&", "||", "??", "?.", "++", "--", "+=", "-=",
    "*=", "/=", "%=", "&=", "|=", "^=", "**", "<<", ">>"]

/-- Keywords after which a slash opens a regular expression. -/
def regexKeywords : List String :=
  ["return", "typeof", "instanceof", "in", "of", "new", "delete", "void", "throw",
    "case", "do", "else", "yield", "await"]

/-- Whether a slash after this token opens a regular expression. -/
def allowsRegex : Option Token → Bool
  | none => true
  | some previous =>
      match previous.kind with
      | .punctuator => !previous.isPunctuatorIn [")", "]", "++", "--"]
      | .identifier => previous.isWordIn regexKeywords
      | _ => false

/-- The rest of a number whose last character read is `last`.  A sign belongs to
it after an exponent mark, except in hexadecimal. -/
def numberMore (hex : Bool) (last : Char) : List Char → List Char × List Char
  | [] => ([], [])
  | c :: cs =>
      let sign := (c == '+' || c == '-') && (last == 'e' || last == 'E') && !hex
      if Text.isAsciiAlphanumeric c || c == '.' || c == '_' || sign then
        (c :: (numberMore hex c cs).1, (numberMore hex c cs).2)
      else ([], c :: cs)

@[simp] theorem numberMore_append (hex : Bool) (last : Char) (cs : List Char) :
    (numberMore hex last cs).1 ++ (numberMore hex last cs).2 = cs := by
  induction cs generalizing last with
  | nil => rfl
  | cons c cs ih =>
      simp only [numberMore]
      split
      · simp [ih]
      · rfl

/-- The body of a regular expression up to its closing slash, which a class in
square brackets or a backslash hides.  None if its line or the source ends
first; a backslash hides a line break too. -/
def regexBody (inClass escaped : Bool) : List Char → Option (List Char × List Char)
  | [] => none
  | c :: cs =>
      let further inClass escaped :=
        (regexBody inClass escaped cs).map fun parts => (c :: parts.1, parts.2)
      if escaped then further inClass false
      else if Text.isLineBreak c then none
      else if c = '\\' then further inClass true
      else if c = '[' then further true false
      else if c = ']' then further false false
      else if c = '/' ∧ inClass = false then some ([c], cs)
      else further inClass false

theorem regexBody_append {inClass escaped : Bool} {cs body rest : List Char}
    (h : regexBody inClass escaped cs = some (body, rest)) : body ++ rest = cs := by
  induction cs generalizing inClass escaped body with
  | nil => simp [regexBody] at h
  | cons c cs ih =>
      have further : ∀ {a b : Bool} {body : List Char},
          (regexBody a b cs).map (fun parts => (c :: parts.1, parts.2)) =
            some (body, rest) → body ++ rest = c :: cs := by
        intro a b body hmap
        obtain ⟨⟨first, second⟩, hb, he⟩ := Option.map_eq_some_iff.1 hmap
        simp only [Prod.mk.injEq] at he
        obtain ⟨rfl, rfl⟩ := he
        simp [ih hb]
      simp only [regexBody] at h
      split at h
      · exact further h
      · split at h
        · simp at h
        · split at h
          · exact further h
          · split at h
            · exact further h
            · split at h
              · exact further h
              · split at h
                · simp only [Option.some.injEq, Prod.mk.injEq] at h
                  rw [← h.1, ← h.2]
                  rfl
                · exact further h

/-- A regular expression after its opening slash, its flags included. -/
def regexMore? (cs : List Char) : Option (List Char × List Char) :=
  (regexBody false false cs).map fun parts =>
    (parts.1 ++ parts.2.takeWhile Text.isIdentContinue,
      parts.2.dropWhile Text.isIdentContinue)

theorem regexMore?_append {cs more rest : List Char}
    (h : regexMore? cs = some (more, rest)) : more ++ rest = cs := by
  obtain ⟨⟨body, after⟩, hb, he⟩ := Option.map_eq_some_iff.1 h
  simp only [Prod.mk.injEq] at he
  obtain ⟨rfl, rfl⟩ := he
  rw [List.append_assoc, List.takeWhile_append_dropWhile]
  exact regexBody_append hb

/-- The number of further characters that a punctuator opening with `c` takes. -/
def punctuatorReach (c : Char) (cs : List Char) : Nat :=
  match punctuators.find? fun text => text.toList.isPrefixOf (c :: cs) with
  | some text => text.toList.length - 1
  | none => 0

/-- The punctuator or single character that opens a source. -/
def punctuator (c : Char) (cs : List Char) : Lexeme :=
  ⟨.punctuator, cs.take (punctuatorReach c cs), cs.drop (punctuatorReach c cs)⟩

/-- An identifier opens with its first character or with a hash before it. -/
def opensIdentifier (c : Char) (cs : List Char) : Bool :=
  Text.isIdentStart c || (c == '#' && cs.head?.any Text.isIdentStart)

/-- A number opens with a digit, or with a point before a digit. -/
def opensNumber (c : Char) (cs : List Char) : Bool :=
  Text.isAsciiDigit c || (c == '.' && cs.head?.any Text.isAsciiDigit)

/-- Hexadecimal numbers open with a zero and an `x`. -/
def opensHexadecimal (c : Char) (cs : List Char) : Bool :=
  c == '0' && (cs.head? == some 'x' || cs.head? == some 'X')

/-- The token that opens `c :: cs` after the token `previous`. -/
def read (previous : Option Token) (c : Char) (cs : List Char) : Lexeme :=
  if opensIdentifier c cs then
    ⟨.identifier, cs.takeWhile Text.isIdentContinue, cs.dropWhile Text.isIdentContinue⟩
  else if opensNumber c cs then
    ⟨.number, (numberMore (opensHexadecimal c cs) c cs).1,
      (numberMore (opensHexadecimal c cs) c cs).2⟩
  else if c = '\'' ∨ c = '"' then
    ⟨.string, (Nested.read [.quoted c] cs).text, (Nested.read [.quoted c] cs).rest⟩
  else if c = '\x60' then
    ⟨.template, (Nested.read [.template] cs).text, (Nested.read [.template] cs).rest⟩
  else if c = '/' ∧ allowsRegex previous = true then
    match regexMore? cs with
    | some parts => ⟨.regex, parts.1, parts.2⟩
    | none => ⟨.punctuator, [], cs⟩
  else punctuator c cs

@[simp] theorem read_append (previous : Option Token) (c : Char) (cs : List Char) :
    (read previous c cs).more ++ (read previous c cs).rest = cs := by
  unfold read
  split
  · exact List.takeWhile_append_dropWhile
  · split
    · exact numberMore_append _ _ _
    · split
      · exact Nested.read_text_append_rest _ _
      · split
        · exact Nested.read_text_append_rest _ _
        · split
          · split
            · rename_i h
              exact regexMore?_append h
            · rfl
          · exact List.take_append_drop _ _

theorem read_rest_length_le (previous : Option Token) (c : Char) (cs : List Char) :
    (read previous c cs).rest.length ≤ cs.length := by
  have h := congrArg List.length (read_append previous c cs)
  simp only [List.length_append] at h
  omega

end Lexeme

end ScriptConsole
