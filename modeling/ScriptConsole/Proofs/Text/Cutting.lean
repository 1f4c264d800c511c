import Mathlib.Data.List.Basic
import ScriptConsole.Text.Search

/-!
# Cutting and joining texts

A text that is cut at a character falls into pieces without it.  What stands behind an
occurrence is cut by itself, so the pieces of a joined text are those of its parts.
-/

namespace ScriptConsole

namespace Text

theorem exists_cutAtChar_cons {separator c : Char} (other : c ≠ separator) (cs : List Char) :
    ∃ piece pieces, cutAtChar separator cs = piece :: pieces ∧
      cutAtChar separator (c :: cs) = (c :: piece) :: pieces := by
  obtain ⟨piece, pieces, h⟩ := List.exists_cons_of_ne_nil (cutAtChar_ne_nil separator cs)
  exact ⟨piece, pieces, h, by rw [cutAtChar, if_neg other, h]⟩

/-- A text without separators belongs to the first piece of what it opens. -/
theorem cutAtChar_append {separator : Char} {cs rest piece : List Char}
    {pieces : List (List Char)} (free : separator ∉ cs)
    (cut : cutAtChar separator rest = piece :: pieces) :
    cutAtChar separator (cs ++ rest) = (cs ++ piece) :: pieces := by
  induction cs with
  | nil => exact cut
  | cons c cs ih =>
      rw [List.mem_cons, not_or] at free
      rw [List.cons_append, cutAtChar, if_neg (Ne.symm free.1), ih free.2]
      rfl

theorem cutAtChar_of_not_mem {separator : Char} {cs : List Char} (free : separator ∉ cs) :
    cutAtChar separator cs = [cs] := by
  have whole := cutAtChar_append free (rfl : cutAtChar separator [] = [[]])
  rwa [List.append_nil] at whole

theorem cutAtChar_append_cons (separator : Char) (cs rest : List Char) :
    cutAtChar separator (cs ++ separator :: rest) =
      cutAtChar separator cs ++ cutAtChar separator rest := by
  induction cs with
  | nil => simp [cutAtChar]
  | cons c cs ih =>
      by_cases same : c = separator
      · rw [List.cons_append, cutAtChar, cutAtChar, if_pos same, if_pos same, ih]
        rfl
      · obtain ⟨piece, pieces, cut, whole⟩ := exists_cutAtChar_cons same cs
        rw [whole, List.cons_append, cutAtChar, if_neg same, ih, cut]
        rfl

theorem cutAtChar_append_of_not_mem {separator : Char} {cs : List Char} (free : separator ∉ cs)
    (rest : List Char) :
    cutAtChar separator (cs ++ separator :: rest) = cs :: cutAtChar separator rest := by
  rw [cutAtChar_append_cons, cutAtChar_of_not_mem free, List.singleton_append]

theorem intercalate_cons_eq_append {α : Type} (separator first : List α)
    (others : List (List α)) :
    List.intercalate separator (first :: others) =
      first ++ others.flatMap fun other => separator ++ other := by
  induction others generalizing first with
  | nil => rw [List.intercalate_singleton, List.flatMap_nil, List.append_nil]
  | cons other others ih =>
      rw [List.intercalate_cons_cons, ih, List.flatMap_cons, List.append_assoc, List.append_assoc]

theorem flatMap_intercalate {α β : Type} (f : α → List β) (separator : List α)
    (parts : List (List α)) :
    (List.intercalate separator parts).flatMap f =
      List.intercalate (separator.flatMap f) (parts.map fun part => part.flatMap f) := by
  cases parts with
  | nil => rfl
  | cons part parts =>
      rw [intercalate_cons_eq_append, List.map_cons, intercalate_cons_eq_append,
        List.flatMap_append, List.flatMap_assoc, List.flatMap_map]
      simp only [List.flatMap_append]

theorem not_mem_of_mem_cutAtChar {separator : Char} {cs piece : List Char}
    (mem : piece ∈ cutAtChar separator cs) : separator ∉ piece := by
  induction cs generalizing piece with
  | nil =>
      obtain rfl := List.mem_singleton.1 mem
      exact List.not_mem_nil
  | cons c cs ih =>
      by_cases same : c = separator
      · rw [cutAtChar, if_pos same] at mem
        rcases List.mem_cons.1 mem with rfl | mem
        · exact List.not_mem_nil
        · exact ih mem
      · obtain ⟨first, others, cut, whole⟩ := exists_cutAtChar_cons same cs
        rw [whole] at mem
        rw [cut] at ih
        rcases List.mem_cons.1 mem with rfl | mem
        · rw [List.mem_cons, not_or]
          exact ⟨Ne.symm same, ih List.mem_cons_self⟩
        · exact ih (List.mem_cons_of_mem first mem)

end Text

end ScriptConsole
