/-!
# Styles

Output is painted with escape sequences.  A plain palette leaves all text as it
is.
-/

namespace ScriptConsole

inductive Style where
  | red
  | green
  | yellow
  | cyan
  | gray
  | dim
  | bold
  /-- Yellow italics, for notices. -/
  | notice
  deriving DecidableEq, Repr

namespace Style

def ofName? : String → Option Style
  | "red" => some red
  | "green" => some green
  | "yellow" => some yellow
  | "cyan" => some cyan
  | "gray" => some gray
  | "dim" => some dim
  | "bold" => some bold
  | "notice" => some notice
  | _ => none

/-- A sequence that selects the graphic rendition of the given number. -/
def select (rendition : String) : List Char :=
  '\x1b' :: '[' :: rendition.toList ++ ['m']

def opening : Style → List Char
  | red => select "31"
  | green => select "32"
  | yellow => select "33"
  | cyan => select "36"
  | gray => select "90"
  | dim => select "2"
  | bold => select "1"
  | notice => select "3" ++ select "33"

def closing : Style → List Char
  | red | green | yellow | cyan | gray => select "39"
  | dim | bold => select "0"
  | notice => select "39" ++ select "0"

end Style

/-- Whether output is painted. -/
structure Palette where
  enabled : Bool
  deriving DecidableEq, Repr

namespace Palette

def plain : Palette :=
  ⟨false⟩

def paintChars (palette : Palette) (style : Style) (text : List Char) : List Char :=
  if palette.enabled then style.opening ++ text ++ style.closing else text

def paint (palette : Palette) (style : Style) (text : String) : String :=
  String.ofList (palette.paintChars style text.toList)

@[simp] theorem paintChars_plain (style : Style) (text : List Char) :
    plain.paintChars style text = text := rfl

end Palette

end ScriptConsole
