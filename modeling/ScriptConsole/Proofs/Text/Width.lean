import Mathlib.Tactic.SplitIfs
import ScriptConsole.Text.Width

/-!
# Columns of a text that ends in blanks

Every blank at the end of a text takes one column more.  A character may take back a column
of what it is drawn together with, but only one that was counted before.
-/

namespace ScriptConsole.Text

/-- The columns that a text takes if it has no escape sequences. -/
def columns (text : List Char) : Nat :=
  (measure text).1.toNat

theorem displayWidth_eq_columns (text : List Char) :
    displayWidth text = columns (stripEscapes text) := rfl

/-! ## What is taken back was counted -/

/-- The columns that the next character may take back. -/
def Follower.owed : Follower → Nat
  | .khmerLetter | .tifinaghJoiner => 1
  | .joinedFlag letters => letters % 2
  | _ => 0

def Lookahead.owed (ahead : Lookahead) : Nat :=
  ahead.follower.owed

/-- A step after which no more is owed than was owed before or is counted by it. -/
def Covers (before : Nat) (step : Int × Lookahead) : Prop :=
  (step.2.owed : Int) ≤ before + step.1

/-- Whether no code point is in two lists of ranges. -/
def disjoint (ranges others : List (Nat × Nat)) : Bool :=
  ranges.all fun range => others.all fun other => range.2 < other.1 || other.2 < range.1

theorem inRanges_eq_false_of_disjoint {ranges others : List (Nat × Nat)}
    (apart : disjoint ranges others = true) {n : Nat} (mem : inRanges ranges n = true) :
    inRanges others n = false := by
  obtain ⟨range, isRange, within⟩ := List.any_eq_true.1 mem
  refine List.any_eq_false.2 fun other isOther => ?_
  have outside := List.all_eq_true.1 (List.all_eq_true.1 apart range isRange) other isOther
  simp only [Bool.and_eq_true, Bool.or_eq_true, decide_eq_true_eq] at within outside ⊢
  omega

theorem one_le_charColumns_of_isKhmerLetter {c : Char} (letter : isKhmerLetter c = true) :
    1 ≤ charColumns c := by
  have shown : inRanges zeroWidthRanges c.toNat = false :=
    inRanges_eq_false_of_disjoint (by decide +kernel) letter
  unfold charColumns
  rw [shown]
  split_ifs <;> simp_all

theorem Follower.owed_le_one (follower : Follower) : follower.owed ≤ 1 := by
  cases follower with
  | khmerLetter | tifinaghJoiner => exact Nat.le_refl 1
  | joinedFlag letters => exact Nat.lt_succ_iff.1 (Nat.mod_lt letters Nat.two_pos)
  | _ => exact Nat.zero_le 1

theorem owed_ofChar_le (c : Char) : (Follower.ofChar c).owed ≤ charColumns c := by
  cases letter : isKhmerLetter c with
  | true =>
      exact Nat.le_trans (Follower.owed_le_one _) (one_le_charColumns_of_isKhmerLetter letter)
  | false =>
      have nothing : (Follower.ofChar c).owed = 0 := by
        simp only [Follower.ofChar, letter, apply_ite Follower.owed, Bool.false_eq_true, if_false]
        simp only [Follower.owed, ite_self]
      rw [nothing]
      exact Nat.zero_le _

theorem covers_columnsAlone (before : Nat) (c : Char) : Covers before (columnsAlone c) := by
  have alone := owed_ofChar_le c
  unfold columnsAlone
  split_ifs
  · exact Int.natCast_nonneg before
  · exact Int.natCast_nonneg before
  · simp only [Covers, Lookahead.owed, Lookahead.of]
    omega

theorem covers_columnsBeforeTags? {letters digits : Nat} {c : Char} {step : Int × Lookahead}
    (h : columnsBeforeTags? letters digits c = some step) (before : Nat) :
    Covers before step := by
  unfold columnsBeforeTags? at h
  split_ifs at h <;> cases h <;> exact Int.natCast_nonneg before

theorem covers_columnsBefore? {follower : Follower} {joined : Bool} {c : Char}
    {step : Int × Lookahead} (h : columnsBefore? follower joined c = some step) :
    Covers follower.owed step := by
  cases follower with
  | joinedTags letters digits => exact covers_columnsBeforeTags? h _
  | joinedFlag letters =>
      simp only [columnsBefore?] at h
      split at h
      · cases h
        simp only [Covers, Lookahead.owed, Lookahead.of, Follower.owed]
        split <;> omega
      · split at h <;> cases h
        exact Int.natCast_nonneg _
  | _ =>
      -- One case for every character that the follower is drawn together with.
      simp only [columnsBefore?] at h
      repeat' split at h
      all_goals cases h
      all_goals simp [Covers, Lookahead.owed, Lookahead.of, Lookahead.nothing, Follower.owed]

theorem Lookahead.owed_selectPicture_le (ahead : Lookahead) :
    ahead.selectPicture.owed ≤ ahead.owed := by
  unfold selectPicture
  split
  · exact Nat.le_refl _
  · exact Nat.zero_le _

theorem Lookahead.owed_selectText_le (ahead : Lookahead) :
    ahead.selectText.owed ≤ ahead.owed := by
  unfold selectText
  split
  · exact Nat.le_refl _
  · exact Nat.zero_le _

theorem Lookahead.owed_dropPictureSelector_le (ahead : Lookahead) :
    ahead.dropPictureSelector.owed ≤ ahead.owed := by
  unfold dropPictureSelector
  split
  · exact Nat.le_refl _
  · exact Nat.zero_le _

theorem Covers.mono {before more : Nat} {step : Int × Lookahead} (covers : Covers before step)
    (le : before ≤ more) : Covers more step := by
  unfold Covers at covers ⊢
  omega

theorem covers_zero {before : Nat} {ahead : Lookahead} (le : ahead.owed ≤ before) :
    Covers before (0, ahead) := by
  simp only [Covers]
  omega

theorem covers_of_owed_eq_zero {ahead : Lookahead} (nothing : ahead.owed = 0) (before count : Nat) :
    Covers before (count, ahead) := by
  simp only [Covers, nothing]
  omega

theorem covers_columnsAbove (c : Char) (ahead : Lookahead) :
    Covers ahead.owed (columnsAbove c ahead) := by
  unfold columnsAbove
  split
  · exact covers_columnsAlone _ c
  split
  · exact covers_zero ahead.owed_selectPicture_le
  split
  · exact covers_zero ahead.owed_selectText_le
  split
  · exact covers_of_owed_eq_zero rfl _ 1
  dsimp only
  split
  · exact covers_zero (Nat.le_refl _)
  split
  · exact covers_zero (Nat.le_refl _)
  cases before : columnsBefore? ahead.follower ahead.joined c with
  | none => exact covers_columnsAlone _ c
  | some step => exact covers_columnsBefore? before

theorem covers_columnsWith (c : Char) (ahead : Lookahead) :
    Covers ahead.owed (columnsWith c ahead) := by
  unfold columnsWith
  split
  · split
    · exact covers_of_owed_eq_zero rfl _ 0
    · exact covers_of_owed_eq_zero rfl _ 2
  · have dropped : (if ahead.pictureSelector then ahead.dropPictureSelector else ahead).owed ≤
        ahead.owed := by
      split
      · exact ahead.owed_dropPictureSelector_le
      · exact Nat.le_refl _
    generalize (if ahead.pictureSelector then ahead.dropPictureSelector else ahead) = seen
      at dropped ⊢
    dsimp only
    split
    · exact covers_of_owed_eq_zero rfl _ 1
    split
    · exact covers_of_owed_eq_zero rfl _ 0
    split
    · exact covers_of_owed_eq_zero rfl _ 1
    exact (covers_columnsAbove c seen).mono dropped

theorem measure_cons (c : Char) (cs : List Char) :
    measure (c :: cs) =
      ((measure cs).1 + (columnsWith c (measure cs).2).1, (columnsWith c (measure cs).2).2) := rfl

theorem owed_le_measure (text : List Char) : ((measure text).2.owed : Int) ≤ (measure text).1 := by
  induction text with
  | nil => exact Int.le_refl 0
  | cons c cs ih =>
      have step := covers_columnsWith c (measure cs).2
      rw [Covers] at step
      rw [measure_cons]
      dsimp only
      omega

/-! ## Blanks -/

theorem measure_blanks (count : Nat) :
    measure (List.replicate count ' ') = ((count : Int), Lookahead.nothing) := by
  induction count with
  | zero => rfl
  | succ count ih =>
      rw [List.replicate_succ, measure_cons, ih]
      rfl

/-- What stands before blanks is measured as if nothing followed. -/
theorem measure_append_blanks (text : List Char) (count : Nat) :
    measure (text ++ List.replicate count ' ') = ((measure text).1 + count, (measure text).2) := by
  induction text with
  | nil =>
      rw [List.nil_append, measure_blanks, measure]
      simp
  | cons c cs ih =>
      rw [List.cons_append, measure_cons, ih, measure_cons, Int.add_right_comm]

theorem columns_append_blanks (text : List Char) (count : Nat) :
    columns (text ++ List.replicate count ' ') = columns text + count := by
  have counted := owed_le_measure text
  rw [columns, measure_append_blanks, columns]
  omega

end ScriptConsole.Text
