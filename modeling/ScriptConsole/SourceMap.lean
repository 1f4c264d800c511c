import ScriptConsole.Text.Blank
import ScriptConsole.Text.Search

/-!
# Source map comments

Compiled code may end with a line comment that names its source map.  As a block
comment it cannot hide code that is put after it on the same line.
-/

namespace ScriptConsole.SourceMap

/-- How a source map comment opens, after the two slashes. -/
def opening : List Char :=
  "# sourceMappingURL=".toList

/-- Put a block comment in place of the first source map comment. -/
def patch (code : List Char) : List Char :=
  match Text.splitFirst? ('/' :: '/' :: opening) code with
  | none => code
  | some (before, after) =>
      let line := after.takeWhile (· != '\n')
      before ++ "/**".toList ++ Text.trimEnd (opening ++ line) ++ " */".toList ++
        after.dropWhile (· != '\n')

theorem patch_of_not_contained {code : List Char}
    (h : Text.splitFirst? ('/' :: '/' :: opening) code = none) : patch code = code := by
  simp [patch, h]

end ScriptConsole.SourceMap
