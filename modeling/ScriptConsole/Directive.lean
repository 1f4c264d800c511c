import ScriptConsole.Dictionary
import ScriptConsole.Text.Blank
import ScriptConsole.Text.Identifier

/-!
# Directives

A line of a dot and a keyword is a command to the session and is not evaluated.
What a directive of an embedding does is its own affair: the type `α` stands for
it.
-/

namespace ScriptConsole

inductive DirectiveAction (α : Type) where
  /-- Drop the lines of an unfinished statement. -/
  | dropBuffer
  | leave
  | showHelp
  | custom (action : α)

structure Directive (α : Type) where
  help : String
  action : DirectiveAction α

namespace Directive

variable {α : Type}

def standard : Dictionary (Directive α) :=
  [("break", ⟨"Sometimes you get stuck, this gets you out", .dropBuffer⟩),
    ("clear", ⟨"Alias for .break", .dropBuffer⟩),
    ("exit", ⟨"Exit the REPL", .leave⟩),
    ("help", ⟨"Print this help message", .showHelp⟩)]

/-- Define a directive; directives are kept in the order of their names. -/
def define (name : String) (directive : Directive α) (directives : Dictionary (Directive α)) :
    Dictionary (Directive α) :=
  (Dictionary.insert name directive directives).mergeSort
    (fun left right => decide (left.1 ≤ right.1))

/-- The keyword and the arguments of a line without blanks around it. -/
def ofLine? : List Char → Option (String × String)
  | '.' :: letter :: rest =>
      if Text.isAsciiLetter letter then
        let isWordChar (c : Char) : Bool := !Text.isBlank c
        some (String.ofList (letter :: rest.takeWhile isWordChar),
          String.ofList (Text.trim (rest.dropWhile isWordChar)))
      else none
  | _ => none

theorem find?_define {directives : Dictionary (Directive α)}
    (distinct : Dictionary.Distinct directives) (name : String) (directive : Directive α)
    (keyword : String) :
    Dictionary.find? keyword (define name directive directives) =
      if keyword = name then some directive else Dictionary.find? keyword directives := by
  have sorted := List.mergeSort_perm (Dictionary.insert name directive directives)
    (fun left right => decide (left.1 ≤ right.1))
  rw [define, ← (distinct.insert name directive).find?_perm sorted.symm]
  split
  · rename_i same
    rw [same, Dictionary.find?_insert_self]
  · rename_i other
    rw [Dictionary.find?_insert_of_ne other]

def helpLines (directives : Dictionary (Directive α)) : List String :=
  let longest := (directives.map fun entry => entry.1.utf8ByteSize).foldl max 0
  (directives.map fun (name, directive) =>
      let padding := String.ofList
        (List.replicate (longest - name.utf8ByteSize + 4) ' ')
      "." ++ name ++ padding ++ directive.help) ++
    ["", "Press Ctrl+C to abort current expression, Ctrl+D to exit the REPL"]

/-- The buffered lines are dropped under two names only, unless by an action of the
embedding. -/
def DropsByName (directives : Dictionary (Directive α)) : Prop :=
  ∀ entry ∈ directives, entry.2.action = .dropBuffer → entry.1 = "break" ∨ entry.1 = "clear"

theorem dropsByName_standard : DropsByName (standard : Dictionary (Directive α)) := by
  intro entry mem drops
  simp only [standard, List.mem_cons, List.not_mem_nil, or_false] at mem
  rcases mem with rfl | rfl | rfl | rfl
  · exact .inl rfl
  · exact .inr rfl
  · cases drops
  · cases drops

theorem DropsByName.define {directives : Dictionary (Directive α)}
    (h : DropsByName directives) (name help : String) (action : α) :
    DropsByName (define name ⟨help, .custom action⟩ directives) := by
  intro entry mem drops
  rw [Directive.define, List.mem_mergeSort] at mem
  rcases Dictionary.eq_or_mem_of_mem_insert mem with rfl | mem
  · cases drops
  · exact h entry mem drops

end Directive

end ScriptConsole
