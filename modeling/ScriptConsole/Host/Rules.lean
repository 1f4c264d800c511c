import ScriptConsole.Host

/-!
# Hosts by rules

A host may be a list of rules: the first rule that admits a unit says what
executing it does.  A unit that no rule admits gives nothing.
-/

namespace ScriptConsole

inductive UnitGuard where
  /-- Units of exactly this code. -/
  | code (text : String)
  /-- Units whose code holds a word. -/
  | contains (word : String)
  | always
  deriving DecidableEq, Repr

namespace UnitGuard

def admits (guard : UnitGuard) (unit : CompiledUnit) : Bool :=
  match guard with
  | code text => unit.code == text
  | contains word => Text.containsWord word.toList unit.code.toList
  | always => true

end UnitGuard

structure HostRule where
  guard : UnitGuard
  program : Host

namespace Host

def ofRules (rules : List HostRule) : Host :=
  fun unit filename =>
    match rules.find? fun rule => rule.guard.admits unit with
    | some rule => rule.program unit filename
    | none => .give .undefined

end Host

end ScriptConsole
