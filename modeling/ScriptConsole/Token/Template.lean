import ScriptConsole.Token.Nested

/-!
# Template parts

A template is its opening mark and then chunks of text and substitutions in
turn.  A substitution in a nested template belongs to the substitution that
holds that template.
-/

namespace ScriptConsole.Template

/-- The text of a template before its next substitution or closing mark. -/
def chunk : List Char → List Char × List Char
  | [] => ([], [])
  | ['\\'] => (['\\'], [])
  | '\\' :: c :: cs => ('\\' :: c :: (chunk cs).1, (chunk cs).2)
  | c :: cs =>
      if c = '\x60' ∨ (c = '$' ∧ cs.head? = some '{') then ([], c :: cs)
      else (c :: (chunk cs).1, (chunk cs).2)

@[simp] theorem chunk_append (cs : List Char) : (chunk cs).1 ++ (chunk cs).2 = cs := by
  fun_induction chunk cs <;> simp_all

theorem chunk_rest_length_le (cs : List Char) : (chunk cs).2.length ≤ cs.length := by
  have h := congrArg List.length (chunk_append cs)
  simp only [List.length_append] at h
  omega

/-- The code of a substitution after its opening brace, without its closing
brace if it has one. -/
def code (cs : List Char) : List Char :=
  if (Nested.read [.code] cs).closed then (Nested.read [.code] cs).text.dropLast
  else (Nested.read [.code] cs).text

/-- What follows a substitution after its closing brace. -/
def afterCode (cs : List Char) : List Char :=
  (Nested.read [.code] cs).rest

theorem code_length_add_afterCode_length_le (cs : List Char) :
    (code cs).length + (afterCode cs).length ≤ cs.length := by
  have h := congrArg List.length (Nested.read_text_append_rest [.code] cs)
  simp only [List.length_append] at h
  unfold code afterCode
  split <;> simp <;> omega

/-- The substitutions of a template after its opening mark. -/
def substitutionsFrom (cs : List Char) : List (List Char) :=
  match _h : (chunk cs).2 with
  | '$' :: _ :: rest => code rest :: substitutionsFrom (afterCode rest)
  | _ => []
termination_by cs.length
decreasing_by
  have hc := chunk_rest_length_le cs
  have hs := code_length_add_afterCode_length_le rest
  rw [_h] at hc
  simp only [List.length_cons] at hc
  omega

/-- The code of each substitution of a template. -/
def substitutions : List Char → List (List Char)
  | '\x60' :: cs => substitutionsFrom cs
  | _ => []

theorem length_lt_of_mem_substitutionsFrom {cs part : List Char}
    (h : part ∈ substitutionsFrom cs) : part.length < cs.length := by
  induction hn : cs.length using Nat.strongRecOn generalizing cs with
  | _ n ih =>
      subst hn
      rw [substitutionsFrom] at h
      split at h
      · rename_i c rest hc
        have hl := chunk_rest_length_le cs
        have hs := code_length_add_afterCode_length_le rest
        rw [hc] at hl
        simp only [List.length_cons] at hl
        rcases List.mem_cons.1 h with rfl | hmem
        · omega
        · have := ih (afterCode rest).length (by omega) hmem rfl
          omega
      · simp at h

theorem length_lt_of_mem_substitutions {text part : List Char}
    (h : part ∈ substitutions text) : part.length < text.length := by
  unfold substitutions at h
  split at h
  · have := length_lt_of_mem_substitutionsFrom h
    simp only [List.length_cons]
    omega
  · simp at h

end ScriptConsole.Template
