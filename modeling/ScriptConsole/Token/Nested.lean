import ScriptConsole.Token.Trivia

/-!
# Nested literals

Quoted text and templates are read by one machine.  Its stack tells what the
reader is inside of, innermost first: a quoted text, a template, or the code of
a substitution, where every further brace adds an entry.  The literal ends with
the character that empties the stack.
-/

namespace ScriptConsole.Nested

/-- One level of nesting. -/
inductive Mode where
  | template
  /-- In a template, after a backslash. -/
  | templateEscape
  /-- In a template, after a dollar sign. -/
  | templateDollar
  /-- In the code of a substitution, or in braces there. -/
  | code
  | quoted (quote : Char)
  /-- In quoted text, after a backslash. -/
  | quotedEscape (quote : Char)
  deriving DecidableEq, Repr

/-- A character of a template that no backslash and no dollar sign precedes. -/
def stepTemplate (c : Char) : List Mode :=
  if c = '\\' then [.templateEscape]
  else if c = '\x60' then []
  else if c = '$' then [.templateDollar]
  else [.template]

/-- What replaces the innermost level when a character is read. -/
def Mode.step : Mode → Char → List Mode
  | .template, c => stepTemplate c
  | .templateEscape, _ => [.template]
  | .templateDollar, c => if c = '{' then [.code, .template] else stepTemplate c
  | .code, c =>
      if c = '{' then [.code, .code]
      else if c = '}' then []
      else if c = '\'' ∨ c = '"' then [.quoted c, .code]
      else if c = '\x60' then [.template, .code]
      else [.code]
  | .quoted quote, c =>
      if c = '\\' then [.quotedEscape quote]
      else if c = quote ∨ c = '\n' then []
      else [.quoted quote]
  | .quotedEscape quote, _ => [.quoted quote]

/-- A literal read from a source, what follows it, and whether it was ended by
its own last character and not by the end of the source. -/
structure Reading where
  text : List Char
  rest : List Char
  closed : Bool
  deriving DecidableEq, Repr

def read : List Mode → List Char → Reading
  | [], cs => ⟨[], cs, true⟩
  | _ :: _, [] => ⟨[], [], false⟩
  | mode :: stack, c :: cs =>
      let reading := read (mode.step c ++ stack) cs
      { reading with text := c :: reading.text }

@[simp] theorem read_nil (cs : List Char) : read [] cs = ⟨[], cs, true⟩ := by
  cases cs <;> rfl

@[simp] theorem read_cons_nil (mode : Mode) (stack : List Mode) :
    read (mode :: stack) [] = ⟨[], [], false⟩ := rfl

@[simp] theorem read_cons_cons (mode : Mode) (stack : List Mode) (c : Char)
    (cs : List Char) :
    read (mode :: stack) (c :: cs) =
      { read (mode.step c ++ stack) cs with
        text := c :: (read (mode.step c ++ stack) cs).text } := rfl

@[simp] theorem read_text_append_rest (stack : List Mode) (cs : List Char) :
    (read stack cs).text ++ (read stack cs).rest = cs := by
  induction cs generalizing stack with
  | nil => cases stack <;> simp
  | cons c cs ih =>
      cases stack with
      | nil => simp
      | cons mode stack => simp [ih]

theorem read_rest_of_not_closed {stack : List Mode} {cs : List Char}
    (h : (read stack cs).closed = false) : (read stack cs).rest = [] := by
  induction cs generalizing stack with
  | nil => cases stack <;> simp_all
  | cons c cs ih =>
      cases stack with
      | nil => simp at h
      | cons mode stack =>
          simp only [read_cons_cons] at h ⊢
          exact ih h

end ScriptConsole.Nested
