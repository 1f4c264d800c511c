/-!
# Searching in texts

The first occurrence of a word splits a text into what stands before and after
it.  Cutting a text at every occurrence and writing another word between the
pieces replaces all of them, from left to right and without overlap.
-/

namespace ScriptConsole.Text

/-- What follows `word` in `cs`, if `cs` opens with it. -/
def afterWord? : (word cs : List Char) → Option (List Char)
  | [], cs => some cs
  | _ :: _, [] => none
  | w :: word, c :: cs => if w = c then afterWord? word cs else none

theorem eq_append_of_afterWord? {word cs rest : List Char}
    (h : afterWord? word cs = some rest) : cs = word ++ rest := by
  induction word generalizing cs with
  | nil => simpa [afterWord?] using h
  | cons w word ih =>
      cases cs with
      | nil => simp [afterWord?] at h
      | cons c cs =>
          by_cases hc : w = c
          · simp only [afterWord?, hc, if_true] at h
            simp [hc, ih h]
          · simp [afterWord?, hc] at h

/-- The texts before and after the first occurrence of `word`. -/
def splitFirst? (word : List Char) : List Char → Option (List Char × List Char)
  | [] => if word.isEmpty then some ([], []) else none
  | c :: cs =>
      match afterWord? word (c :: cs) with
      | some rest => some ([], rest)
      | none => (splitFirst? word cs).map fun parts => (c :: parts.1, parts.2)

theorem eq_append_of_splitFirst? {word cs before after : List Char}
    (h : splitFirst? word cs = some (before, after)) :
    cs = before ++ word ++ after := by
  induction cs generalizing before with
  | nil =>
      simp only [splitFirst?, List.isEmpty_iff] at h
      split at h <;> simp_all
  | cons c cs ih =>
      simp only [splitFirst?] at h
      split at h
      · rename_i rest hrest
        have e := eq_append_of_afterWord? hrest
        simp only [Option.some.injEq, Prod.mk.injEq] at h
        rw [← h.1, ← h.2]
        simpa using e
      · obtain ⟨⟨first, second⟩, hs, he⟩ := Option.map_eq_some_iff.1 h
        simp only [Prod.mk.injEq] at he
        obtain ⟨rfl, rfl⟩ := he
        simpa using ih hs

def containsWord (word cs : List Char) : Bool :=
  (splitFirst? word cs).isSome

theorem splitFirst?_length_lt {word cs before after : List Char} (hw : word ≠ [])
    (h : splitFirst? word cs = some (before, after)) : after.length < cs.length := by
  have e := congrArg List.length (eq_append_of_splitFirst? h)
  have := List.length_pos_iff.2 hw
  simp only [List.length_append] at e
  omega

/-- The pieces of a text between the occurrences of a non-empty word. -/
def cutAt (word : List Char) (cs : List Char) : List (List Char) :=
  if _hw : word = [] then [cs]
  else
    match _h : splitFirst? word cs with
    | none => [cs]
    | some (before, after) => before :: cutAt word after
termination_by cs.length
decreasing_by exact splitFirst?_length_lt _hw _h

/-- Put `word` before every character of a text and at its end. -/
def interleave (word : List Char) (cs : List Char) : List Char :=
  word ++ cs.flatMap fun c => c :: word

/-- Write `other` for every occurrence of `word`; the empty word occurs around
every character. -/
def replaceAll (word other cs : List Char) : List Char :=
  if word = [] then interleave other cs
  else List.intercalate other (cutAt word cs)

/-- The pieces of a text between the occurrences of a character. -/
def cutAtChar (separator : Char) : List Char → List (List Char)
  | [] => [[]]
  | c :: cs =>
      if c = separator then [] :: cutAtChar separator cs
      else
        match cutAtChar separator cs with
        | [] => [[c]]
        | piece :: pieces => (c :: piece) :: pieces

theorem cutAtChar_ne_nil (separator : Char) (cs : List Char) :
    cutAtChar separator cs ≠ [] := by
  cases cs with
  | nil => simp [cutAtChar]
  | cons c cs =>
      simp only [cutAtChar]
      split
      · simp
      · split <;> simp

end ScriptConsole.Text
