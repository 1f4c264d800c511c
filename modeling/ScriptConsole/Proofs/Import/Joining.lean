import Mathlib.Data.List.TakeWhile
import ScriptConsole.Proofs.Import.RoundTrip

/-!
# The code after an import

The pieces between the semicolons of a statement are trimmed and joined again,
whatever the semicolons stand in.  Read along the code, blanks are dropped next
to a semicolon and at both ends, one space is put behind each semicolon, and
everything else is copied.
-/

namespace ScriptConsole

namespace Text

theorem isAllBlank_cons (c : Char) (cs : List Char) :
    isAllBlank (c :: cs) = (isBlank c && isAllBlank cs) :=
  List.all_cons

theorem trimEnd_of_isAllBlank {cs : List Char} (blank : isAllBlank cs = true) :
    trimEnd cs = [] := by
  rw [trimEnd_eq, (isAllBlank_iff_trimStart_eq_nil _).1 (isAllBlank_reverse blank),
    List.reverse_nil]

theorem trimEnd_cons (c : Char) (cs : List Char) :
    trimEnd (c :: cs) = if isAllBlank (c :: cs) then [] else c :: trimEnd cs := by
  have nothing : (cs.reverse.dropWhile isBlank).isEmpty = isAllBlank cs := by
    rw [Bool.eq_iff_iff, List.isEmpty_iff, List.dropWhile_eq_nil_iff]
    simp [isAllBlank]
  rw [trimEnd, List.reverse_cons, List.dropWhile_append, nothing, isAllBlank_cons]
  cases blank : isAllBlank cs with
  | false => simp [trimEnd]
  | true => cases first : isBlank c <;> simp [first, trimEnd_of_isAllBlank blank]

theorem trimStart_cons (c : Char) (cs : List Char) :
    trimStart (c :: cs) = if isBlank c then trimStart cs else c :: cs :=
  List.dropWhile_cons

theorem trim_cons (c : Char) (cs : List Char) :
    trim (c :: cs) = if isBlank c then trim cs else c :: trimEnd cs := by
  rw [trim, trimStart_cons]
  split
  · rfl
  · rename_i visible
    rw [trimEnd_cons, isAllBlank_cons, Bool.eq_false_iff.2 visible, Bool.false_and]
    rfl

end Text

namespace Import

open Text

/-- Whether a piece ends before this code, blanks apart. -/
def endsPiece (ahead : List Char) : Bool :=
  (trimStart ahead).head?.all (· == ';')

/-- What becomes of the next character when the pieces are joined again. -/
inductive Joining where
  /-- So many characters are copied, then the code goes on inside a piece. -/
  | copying (count : Nat)
  /-- A piece begins. -/
  | opening
  deriving DecidableEq, Repr

namespace Joining

/-- What is written for a character, and how it goes on. -/
def step : Joining → Char → (ahead : List Char) → List Char × Joining
  | copying (count + 1), c, _ => ([c], copying count)
  | copying 0, c, ahead =>
      if c = ';' then ("; ".toList, opening)
      else if isBlank c && endsPiece ahead then ([], copying 0)
      else ([c], copying 0)
  | opening, c, _ =>
      if c = ';' then ("; ".toList, opening)
      else if isBlank c then ([], opening)
      else ([c], copying 0)

/-- What is written for a part of the code that `ahead` follows. -/
def write (joining : Joining) (ahead : List Char) : List Char → List Char
  | [] => []
  | c :: cs =>
      (joining.step c (cs ++ ahead)).1 ++ (joining.step c (cs ++ ahead)).2.write ahead cs

/-- How it goes on after a part of the code that `ahead` follows. -/
def after (joining : Joining) (ahead : List Char) : List Char → Joining
  | [] => joining
  | c :: cs => (joining.step c (cs ++ ahead)).2.after ahead cs

variable (joining : Joining) (ahead : List Char)

theorem write_append (left right : List Char) :
    joining.write ahead (left ++ right) =
      joining.write (right ++ ahead) left ++
        (joining.after (right ++ ahead) left).write ahead right := by
  induction left generalizing joining with
  | nil => rfl
  | cons c left ih =>
      rw [List.cons_append, write, write, after, ih, List.append_assoc, List.append_assoc]

theorem write_copying (head : List Char) (rest : List Char) :
    (copying head.length).write ahead (head ++ rest) = head ++ (copying 0).write ahead rest := by
  induction head with
  | nil => rfl
  | cons c head ih =>
      rw [List.length_cons, List.cons_append, write, step, ih]
      rfl

theorem write_copying_append (head code : List Char) :
    (copying head.length).write [] (head ++ "; ".toList ++ code) =
      head ++ "; ".toList ++ opening.write [] code := by
  rw [List.append_assoc, write_copying, List.append_assoc]
  rfl

/-- A character is copied, or it is a semicolon that gets a space, or a blank that is
dropped. -/
theorem step_cases (joining : Joining) (c : Char) (ahead : List Char) :
    (∃ count, joining.step c ahead = ([c], copying count) ∧
        (joining = opening → isBlank c = false)) ∨
      (c = ';' ∧ joining.step c ahead = ("; ".toList, opening)) ∨
      (isBlank c = true ∧ c ≠ ';' ∧ joining.step c ahead = ([], joining) ∧
        (joining = opening ∨ joining = copying 0 ∧ endsPiece ahead = true)) := by
  match joining with
  | copying (count + 1) => exact .inl ⟨count, rfl, by simp⟩
  | copying 0 =>
      rw [step]
      split
      · rename_i semicolon
        exact .inr (.inl ⟨semicolon, rfl⟩)
      · rename_i other
        split
        · rename_i dropped
          rw [Bool.and_eq_true] at dropped
          exact .inr (.inr ⟨dropped.1, other, rfl, .inr ⟨rfl, dropped.2⟩⟩)
        · exact .inl ⟨0, rfl, by simp⟩
  | opening =>
      rw [step]
      split
      · rename_i semicolon
        exact .inr (.inl ⟨semicolon, rfl⟩)
      · rename_i other
        split
        · rename_i blank
          exact .inr (.inr ⟨blank, other, rfl, .inl rfl⟩)
        · rename_i visible
          exact .inl ⟨0, rfl, fun _ => Bool.eq_false_iff.2 visible⟩

/-- A visible character is copied, except that a semicolon gets a space. -/
theorem exists_step_of_visible {c : Char} (visible : isBlank c = false) (other : c ≠ ';') :
    ∃ count, joining.step c ahead = ([c], copying count) := by
  rcases joining.step_cases c ahead with ⟨count, copied, -⟩ | ⟨semicolon, -⟩ | ⟨blank, -⟩
  · exact ⟨count, copied⟩
  · exact absurd semicolon other
  · rw [visible] at blank
    cases blank

theorem write_of_visible {text : List Char}
    (visible : ∀ c ∈ text, isBlank c = false ∧ c ≠ ';') : joining.write ahead text = text := by
  induction text generalizing joining with
  | nil => rfl
  | cons c text ih =>
      rw [List.forall_mem_cons] at visible
      obtain ⟨count, copied⟩ :=
        joining.exists_step_of_visible (text ++ ahead) visible.1.1 visible.1.2
      rw [write, copied, ih _ visible.2]
      rfl

theorem write_subset {text : List Char} (free : ';' ∉ text) :
    joining.write ahead text ⊆ text := by
  induction text generalizing joining with
  | nil => exact List.Subset.refl _
  | cons c text ih =>
      rw [List.mem_cons, not_or] at free
      rw [write]
      rcases joining.step_cases c (text ++ ahead) with ⟨count, copied, -⟩ | ⟨rfl, -⟩ |
        ⟨-, -, dropped, -⟩
      · rw [copied]
        exact List.cons_subset_cons c (ih _ free.2)
      · exact absurd rfl free.1
      · rw [dropped]
        exact List.subset_cons_of_subset c (ih _ free.2)

/-- Where a piece begins nothing is written before its first visible character. -/
theorem opensVisibly_write (cs : List Char) : OpensVisibly (opening.write [] cs) := by
  induction cs with
  | nil => simp [write, OpensVisibly]
  | cons c cs ih =>
      rw [write]
      rcases opening.step_cases c (cs ++ []) with ⟨count, copied, visible⟩ | ⟨rfl, marked⟩ |
        ⟨-, -, dropped, -⟩
      · rw [copied]
        exact opensVisibly_cons.2 (visible rfl)
      · rw [marked]
        exact opensVisibly_cons.2 (by decide)
      · rw [dropped]
        exact ih

theorem head?_write_of_endsPiece {cs : List Char} (ends : endsPiece cs = true) :
    ∀ c ∈ ((copying 0).write [] cs).head?, c = ';' := by
  induction cs with
  | nil => simp [write]
  | cons c cs ih =>
      rw [endsPiece, trimStart_cons] at ends
      rw [write, step, List.append_nil]
      by_cases semicolon : c = ';'
      · rw [if_pos semicolon]
        intro d mem
        cases mem
        rfl
      · have blank : isBlank c = true :=
          Decidable.byContradiction fun visible => semicolon (by simpa [visible] using ends)
        rw [if_pos blank] at ends
        have ahead : endsPiece cs = true := ends
        rw [if_neg semicolon, blank, ahead]
        exact ih ahead

/-- A token before the code ends where it ends before what is written for the code. -/
theorem alike_write (count : Nat) (cs : List Char) : Alike cs ((copying count).write [] cs) := by
  induction cs generalizing count with
  | nil => exact .stop []
  | cons c cs ih =>
      rw [write]
      rcases (copying count).step_cases c (cs ++ []) with ⟨count', copied, -⟩ | ⟨rfl, marked⟩ |
        ⟨-, -, dropped, opens | ⟨inside, ends⟩⟩
      · rw [copied]
        exact (ih count').cons c
      · rw [marked]
        exact .barrier (by decide) _ _
      · cases opens
      · rw [dropped, inside]
        rw [List.append_nil] at ends
        have first := head?_write_of_endsPiece ends
        cases h : (copying 0).write [] cs with
        | nil => exact .stop _
        | cons d written =>
            rw [h] at first
            obtain rfl := first d rfl
            exact .barrier (by decide) _ _

/-- A piece begins after a part of the code only if a space was written last. -/
theorem getLast?_write_of_opening {cs : List Char} (opens : joining.after ahead cs = opening) :
    (joining = opening ∧ joining.write ahead cs = []) ∨
      (joining.write ahead cs).getLast? = some ' ' := by
  induction cs generalizing joining with
  | nil => exact .inl ⟨opens, rfl⟩
  | cons c cs ih =>
      rw [after] at opens
      rw [write]
      rcases joining.step_cases c (cs ++ ahead) with ⟨count, copied, -⟩ | ⟨-, marked⟩ |
        ⟨-, -, dropped, -⟩
      · rw [copied] at opens ⊢
        rcases ih (copying count) opens with ⟨absurd, -⟩ | last
        · cases absurd
        · exact .inr (by rw [List.getLast?_append, last]; rfl)
      · rw [marked] at opens ⊢
        rcases ih opening opens with ⟨-, nothing⟩ | last
        · exact .inr (by rw [nothing]; rfl)
        · exact .inr (by rw [List.getLast?_append, last]; rfl)
      · rw [dropped] at opens ⊢
        exact ih joining opens

/-- What is written for a text is the text if it is what the code opens with then, unless
a semicolon ends it; and the same after the space that is put behind a semicolon. -/
theorem write_eq_of_append {text rest written : List Char} :
    (∀ joining : Joining, joining.write [] (text ++ rest) = text ++ written →
        joining.write rest text = text ∨ text.getLast? = some ';') ∧
      (' ' :: opening.write [] (text ++ rest) = text ++ written →
        ' ' :: opening.write rest text = text ∨ text = [] ∨ text.getLast? = some ';') := by
  induction text with
  | nil => exact ⟨fun _ _ => .inl rfl, fun _ => .inr (.inl rfl)⟩
  | cons c text ih =>
      have further : ∀ d ∈ text.getLast?, (c :: text).getLast? = some d := by
        intro d last
        rw [List.getLast?_cons, Option.mem_def.1 last]
        rfl
      constructor
      · intro joining same
        rw [List.cons_append, write, List.append_nil] at same
        rw [write]
        rcases joining.step_cases c (text ++ rest) with ⟨count, copied, -⟩ | ⟨rfl, marked⟩ |
          ⟨blank, other, dropped, opens | ⟨inside, ends⟩⟩
        · rw [copied] at same ⊢
          have tail := (List.cons.inj same).2
          rcases ih.1 (copying count) tail with kept | last
          · exact .inl (congrArg (c :: ·) kept)
          · exact .inr (further _ last)
        · rw [marked] at same ⊢
          have tail := (List.cons.inj same).2
          rcases ih.2 tail with kept | rfl | last
          · exact .inl (congrArg (';' :: ·) kept)
          · exact .inr rfl
          · exact .inr (further _ last)
        · rw [dropped, opens] at same
          have visible := opensVisibly_write (text ++ rest) c (congrArg List.head? same)
          rw [visible] at blank
          cases blank
        · rw [dropped, inside] at same
          exact absurd (head?_write_of_endsPiece ends c (congrArg List.head? same)) other
      · intro same
        obtain ⟨rfl, tail⟩ := List.cons.inj same
        have dropped : ∀ ahead cs, opening.write ahead (' ' :: cs) = opening.write ahead cs :=
          fun _ _ => rfl
        rw [List.append_eq, List.cons_append, dropped] at tail
        rw [dropped]
        rcases ih.1 opening tail with kept | last
        · exact .inl (congrArg (' ' :: ·) kept)
        · exact .inr (.inr (further _ last))

end Joining

theorem endsPiece_eq {cs piece : List Char} {pieces : List (List Char)}
    (cut : cutAtChar ';' cs = piece :: pieces) : endsPiece cs = isAllBlank piece := by
  induction cs generalizing piece pieces with
  | nil =>
      cases cut
      rfl
  | cons c cs ih =>
      by_cases semicolon : c = ';'
      · subst semicolon
        cases cut
        rfl
      · obtain ⟨piece', pieces', cut', whole⟩ := exists_cutAtChar_cons semicolon cs
        rw [whole] at cut
        cases cut
        rw [isAllBlank_cons, ← ih cut', endsPiece, endsPiece, trimStart_cons]
        cases blank : isBlank c <;> simp [semicolon]

namespace Joining

theorem intercalate_cons (separator : List Char) (c : Char) (piece : List Char)
    (pieces : List (List Char)) :
    List.intercalate separator ((c :: piece) :: pieces) =
      c :: List.intercalate separator (piece :: pieces) := by
  cases pieces <;> rfl

/-- The pieces are joined again, the first trimmed at both ends or only at its end. -/
theorem write_nil {cs piece : List Char} {pieces : List (List Char)}
    (cut : cutAtChar ';' cs = piece :: pieces) :
    opening.write [] cs = List.intercalate "; ".toList (trim piece :: pieces.map trim) ∧
      (copying 0).write [] cs =
        List.intercalate "; ".toList (trimEnd piece :: pieces.map trim) := by
  induction cs generalizing piece pieces with
  | nil =>
      cases cut
      exact ⟨rfl, rfl⟩
  | cons c cs ih =>
      by_cases semicolon : c = ';'
      · subst semicolon
        obtain ⟨piece', pieces', cut'⟩ :=
          List.exists_cons_of_ne_nil (cutAtChar_ne_nil ';' cs)
        rw [cutAtChar, if_pos rfl, cut'] at cut
        cases cut
        rw [write, write, step, step, if_pos rfl, if_pos rfl, (ih cut').1, List.map_cons,
          List.intercalate_cons_cons, List.intercalate_cons_cons]
        exact ⟨rfl, rfl⟩
      · obtain ⟨piece', pieces', cut', whole⟩ := exists_cutAtChar_cons semicolon cs
        rw [whole] at cut
        cases cut
        obtain ⟨opened, inside⟩ := ih cut'
        rw [write, write, step, step, if_neg semicolon, if_neg semicolon, List.append_nil,
          endsPiece_eq cut', trim_cons, trimEnd_cons, isAllBlank_cons]
        constructor
        · split
          · exact opened
          · rw [intercalate_cons, ← inside]
            rfl
        · split
          · rename_i blank
            rw [trimEnd_of_isAllBlank (Bool.and_eq_true_iff.1 blank).2] at inside
            exact inside
          · rw [intercalate_cons, ← inside]
            rfl

end Joining

theorem opensWithImport_append {cs rest : List Char} (opens : opensWithImport cs = true)
    (ends : EndsName rest) : opensWithImport (cs ++ rest) = true := by
  obtain ⟨more, hmore⟩ := Option.isSome_iff_exists.1 opens
  obtain ⟨hcs, hends⟩ := keyword?_eq_some_iff.1 hmore
  have started : trimStart (cs ++ rest) = "import".toList ++ (more ++ rest) := by
    rw [trimStart_append_of_ne_nil (by simp [hcs]), hcs, List.append_assoc]
  have endsAfter : EndsName (more ++ rest) := by
    cases more with
    | nil => exact ends
    | cons c more => exact hends
  rw [opensWithImport, keyword?_eq_some_iff.2 ⟨started, endsAfter⟩]
  rfl

theorem render_intercalate {pieces : List (List Char)}
    (kept : ∀ piece ∈ pieces, parse? (trim piece) = none) (before : List Segment) :
    (List.intercalate [.code "; ".toList] (before :: pieces.map pieceSegments)).flatMap
        Segment.render =
      List.intercalate "; ".toList (before.flatMap Segment.render :: pieces.map trim) := by
  have same : (pieces.map pieceSegments).map (fun part => part.flatMap Segment.render) =
      pieces.map trim := by
    rw [List.map_map]
    refine List.map_congr_left fun piece mem => ?_
    rw [Function.comp_apply, pieceSegments, kept piece mem]
    exact List.append_nil _
  rw [flatMap_intercalate, List.map_cons, same]
  rfl

theorem rewrite_append {clause code : List Char} {declaration : Declaration}
    (parsed : parse? clause = some declaration) (noTail : declaration.tail = [])
    (free : ';' ∉ clause)
    (kept : ∀ piece ∈ cutAtChar ';' code, parse? (trim piece) = none) :
    rewrite (clause ++ "; ".toList ++ code) =
      rewrite clause ++ "; ".toList ++ Joining.opening.write [] code := by
  obtain ⟨piece, pieces, cut, spaced⟩ :=
    exists_cutAtChar_cons (show ' ' ≠ ';' by decide) code
  have parts : clause ++ "; ".toList ++ code = clause ++ ';' :: ' ' :: code := by simp
  have opens : opensWithImport (clause ++ ';' :: ' ' :: code) = true :=
    opensWithImport_append (opensWithImport_of_parse? parsed) (endsName_cons.2 (by decide))
  have imported : pieceSegments clause = [.importing declaration] := by
    rw [pieceSegments, (parse?_trim parsed).2]
    simp [noTail]
  have first : trim (' ' :: piece) = trim piece := by rw [trim_cons, if_pos (by decide)]
  have others : ∀ other ∈ (' ' :: piece) :: pieces, parse? (trim other) = none := by
    rw [cut, List.forall_mem_cons] at kept
    rw [List.forall_mem_cons, first]
    exact kept
  have alone : rewrite clause = declaration.render := by
    rw [rewrite_of_parse? parsed free, noTail]
    simp
  rw [parts, rewrite, segments_eq, if_pos opens, cutAtChar_append_of_not_mem free, spaced,
    List.map_cons, imported, render_intercalate others, List.map_cons, first,
    List.intercalate_cons_cons, (Joining.write_nil cut).1, alone]
  simp [Segment.render]

end Import

end ScriptConsole
