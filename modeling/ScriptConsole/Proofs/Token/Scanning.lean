import ScriptConsole.Token.Scan

/-!
# Scanning step by step

One token of a scan, and a scan with a bound on its steps.  The latter recurs on
the bound, so that the tokens of a given source can be computed in a proof.
-/

namespace ScriptConsole.Scan

theorem after_of_split_eq_nil {cs : List Char} (h : (Trivia.split .between cs).2 = [])
    (previous : Option Token) :
    after previous cs = ⟨[], (Trivia.split .between cs).1⟩ := by
  rw [after]
  split
  · rfl
  · rename_i hcs
    rw [h] at hcs
    cases hcs

theorem after_of_split_eq_cons {cs gap rest : List Char} {c : Char}
    (h : Trivia.split .between cs = (gap, c :: rest)) (previous : Option Token) {kind : TokenKind}
    {more rest' : List Char} (read : Lexeme.read previous c rest = ⟨kind, more, rest'⟩) :
    after previous cs =
      { after (some ⟨kind, gap, c :: more⟩) rest' with
        tokens :=
          ⟨kind, gap, c :: more⟩ :: (after (some ⟨kind, gap, c :: more⟩) rest').tokens } := by
  rw [after]
  split
  · rename_i hcs
    rw [h] at hcs
    cases hcs
  · rename_i hcs
    rw [h] at hcs
    cases hcs
    simp only [h, read]

/-- Scan a source of fewer than `bound` tokens. -/
def within : Nat → Option Token → List Char → Option Scan
  | 0, _, _ => none
  | bound + 1, previous, cs =>
      match Trivia.split .between cs with
      | (gap, []) => some ⟨[], gap⟩
      | (gap, c :: rest) =>
          let lexeme := Lexeme.read previous c rest
          (within bound (some ⟨lexeme.kind, gap, c :: lexeme.more⟩) lexeme.rest).map fun scan =>
            { scan with tokens := ⟨lexeme.kind, gap, c :: lexeme.more⟩ :: scan.tokens }

theorem after_of_within {bound : Nat} {previous : Option Token} {cs : List Char} {scan : Scan}
    (h : within bound previous cs = some scan) : after previous cs = scan := by
  induction bound generalizing previous cs scan with
  | zero => cases h
  | succ bound ih =>
      rw [within] at h
      split at h
      · rename_i gap hcs
        cases h
        rw [after_of_split_eq_nil (by rw [hcs]), hcs]
      · rename_i gap c rest hcs
        cases hread : Lexeme.read previous c rest with
        | mk kind more rest' =>
            rw [hread] at h
            obtain ⟨tail, htail, rfl⟩ := Option.map_eq_some_iff.1 h
            rw [after_of_split_eq_cons hcs previous hread, ih htail]

theorem ofSource_of_within {bound : Nat} {cs : List Char} {scan : Scan}
    (h : within bound none cs = some scan) : ofSource cs = scan :=
  after_of_within h

end ScriptConsole.Scan
