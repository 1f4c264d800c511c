import ScriptConsole.Proofs.Nesting

/-!
# What stands outside brackets

The tokens of a run that stand outside its brackets, those that open a group
among them.  A well-nested group counts for the bracket that opens it.
-/

namespace ScriptConsole.Token

open Declaration (depthAfter)

/-- The tokens outside brackets of a run that begins inside `depth` brackets. -/
def outsideFrom (depth : Nat) : List Token → List Token
  | [] => []
  | token :: rest =>
      if depth = 0 then token :: outsideFrom (depthAfter depth token) rest
      else outsideFrom (depthAfter depth token) rest

/-- The tokens of a run outside brackets, opening brackets included. -/
def outside (tokens : List Token) : List Token :=
  outsideFrom 0 tokens

@[simp] theorem outside_nil : outside [] = [] := rfl

theorem outsideFrom_append_of_inside {inner : List Token} (nested : WellNested inner)
    (depth : Nat) (rest : List Token) :
    outsideFrom (depth + 1) (inner ++ rest) = outsideFrom (depth + 1) rest :=
  nested.read_append_of_skips
    (fun _ _ _ _ => by rw [outsideFrom, if_neg (Nat.succ_ne_zero _)]) depth rest

theorem outside_plain {token : Token} (opens : token.opens? = none)
    (closes : token.closes? = none) (rest : List Token) :
    outside (token :: rest) = token :: outside rest := by
  rw [outside, outsideFrom, if_pos rfl, depthAfter_of_plain opens closes, outside]

theorem outside_group {opening closing : Token} {inner : List Token} {bracket : Bracket}
    (opens : opening.opens? = some bracket) (closes : closing.closes? = some bracket)
    (nested : WellNested inner) (rest : List Token) :
    outside (opening :: (inner ++ closing :: rest)) = opening :: outside rest := by
  rw [outside, outsideFrom, if_pos rfl, depthAfter_of_opens opens,
    outsideFrom_append_of_inside nested, outsideFrom, if_neg (Nat.succ_ne_zero _),
    depthAfter_of_closes closes, outside]

theorem outside_append {left : List Token} (nested : WellNested left) (right : List Token) :
    outside (left ++ right) = outside left ++ outside right := by
  induction nested with
  | nil => rfl
  | plain opens closes tail ih =>
      rw [List.cons_append, outside_plain opens closes, ih, outside_plain opens closes,
        List.cons_append]
  | group opens closes within tail ihWithin ihTail =>
      rw [List.cons_append, List.append_assoc, List.cons_append, outside_group opens closes within,
        ihTail, outside_group opens closes within, List.cons_append]

end ScriptConsole.Token
