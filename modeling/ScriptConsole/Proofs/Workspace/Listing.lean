import ScriptConsole.Proofs.Text.Escape
import ScriptConsole.Proofs.Text.Width
import ScriptConsole.Workspace

/-!
# Listings of helpers

Every line of a listing has its description in the same column, that of the widest helper
that was ever added.  A helper may be replaced by a narrower one, so there may be no helper
of that width; there is never a wider one.
-/

namespace ScriptConsole

/-- A count of columns by which every blank at the end of a text takes one. -/
def CountsBlanks (count : List Char → Nat) : Prop :=
  ∀ (text : List Char) (blanks : Nat),
    count (text ++ List.replicate blanks ' ') = count text + blanks

/-- A helper whose columns are counted in a given way, without escape sequences. -/
def Helper.counted (count : List Char → Nat) (name : String) (options : HelperOptions)
    (handler : Behavior) : Helper :=
  { Helper.ofOptions name options handler with
    width := count (Text.stripEscapes (options.usage.getD name).toList) }

theorem Helper.counted_columns : Helper.counted Text.columns = Helper.ofOptions := rfl

namespace Workspace

inductive Change where
  | addHelper (name : String) (options : HelperOptions) (handler : Behavior)
  | setName (name : String) (value : Value)
  | removeName (name : String)
  | goLive

/-- A workspace after a change; the columns of a helper that is added are counted in a given
way. -/
def change (count : List Char → Nat) (workspace : Workspace) : Change → Workspace
  | .addHelper name options handler =>
      workspace.addHelper (Helper.counted count name options handler)
  | .setName name value => workspace.setName name value
  | .removeName name => workspace.removeName name
  | .goLive => workspace.goLive

def after (count : List Char → Nat) (changes : List Change) : Workspace :=
  changes.foldl (change count) empty

/-! ## The width of the widest helper -/

/-- The columns of every helper are counted, and none is wider than the widest. -/
structure Measured (count : List Char → Nat) (workspace : Workspace) : Prop where
  width_eq : ∀ helper ∈ workspace.helpers.values,
    helper.width = count (Text.stripEscapes helper.label.toList)
  width_le : ∀ helper ∈ workspace.helpers.values, helper.width ≤ workspace.longestWidth

variable {count : List Char → Nat} {workspace : Workspace}

theorem eq_or_mem_of_mem_addHelper {helper other : Helper}
    (mem : other ∈ (workspace.addHelper helper).helpers.values) :
    other = helper ∨ other ∈ workspace.helpers.values := by
  obtain ⟨entry, isEntry, rfl⟩ := List.mem_map.1 mem
  rcases Dictionary.eq_or_mem_of_mem_insert isEntry with rfl | old
  · exact .inl rfl
  · exact .inr (List.mem_map_of_mem old)

/-- The widest helper stays the widest when it is replaced by a narrower one. -/
theorem Measured.addHelper (measured : Measured count workspace) (name : String)
    (options : HelperOptions) (handler : Behavior) :
    Measured count (workspace.addHelper (Helper.counted count name options handler)) where
  width_eq := by
    intro other mem
    rcases eq_or_mem_of_mem_addHelper mem with rfl | old
    · rfl
    · exact measured.width_eq other old
  width_le := by
    intro other mem
    rcases eq_or_mem_of_mem_addHelper mem with rfl | old
    · exact Nat.le_max_right _ _
    · exact Nat.le_trans (measured.width_le other old) (Nat.le_max_left _ _)

theorem Measured.change (measured : Measured count workspace) (step : Change) :
    Measured count (workspace.change count step) := by
  cases step with
  | addHelper name options handler => exact measured.addHelper name options handler
  | setName | removeName | goLive => exact ⟨measured.width_eq, measured.width_le⟩

theorem measured_foldl (measured : Measured count workspace) (changes : List Change) :
    Measured count (changes.foldl (Workspace.change count) workspace) := by
  induction changes generalizing workspace with
  | nil => exact measured
  | cons step changes ih => exact ih (measured.change step)

theorem measured_after (count : List Char → Nat) (changes : List Change) :
    Measured count (after count changes) :=
  measured_foldl ⟨by simp [empty, Dictionary.values], by simp [empty, Dictionary.values]⟩ changes

/-! ## Alignment -/

/-- Neither paint nor blanks change how a text is stripped, whatever it ends in. -/
theorem stripEscapes_paint_append_blanks (palette : Palette) (style : Style) (text : String)
    (blanks : Nat) :
    Text.stripEscapes
        (palette.paint style text ++ String.ofList (List.replicate blanks ' ')).toList =
      Text.stripEscapes text.toList ++ List.replicate blanks ' ' := by
  have completes := Text.completesNone_blanks blanks
  have free : '\x1b' ∉ List.replicate blanks ' ' := by
    intro escape
    cases List.eq_of_mem_replicate escape
  rw [Palette.paint, String.toList_append, String.toList_ofList, String.toList_ofList]
  obtain ⟨enabled⟩ := palette
  cases enabled with
  | false =>
      rw [Palette.paintChars, if_neg Bool.false_ne_true, completes.stripEscapes_append,
        Text.stripEscapes_of_not_mem free]
  | true => rw [Text.stripEscapes_paintChars_append, Text.stripEscapes_of_not_mem free]

/-- Up to its description, a line takes as many columns as the widest helper, and the gap. -/
theorem Measured.count_listingHead (measured : Measured count workspace)
    (counts : CountsBlanks count) {helper : Helper} (mem : helper ∈ workspace.helpers.values)
    (palette : Palette) :
    count (Text.stripEscapes (workspace.listingHead palette helper).toList) =
      workspace.longestWidth + listingGap := by
  have narrow := measured.width_le helper mem
  rw [listingHead, stripEscapes_paint_append_blanks, counts, ← measured.width_eq helper mem]
  omega

theorem countsBlanks_columns : CountsBlanks Text.columns :=
  Text.columns_append_blanks

/-- The listing of helpers is aligned, however columns are counted, if only every blank at the
end of a text takes one; so it is for the columns of a terminal.  No helper is wider than the
widest, so that there is always room for the blanks; and up to its description every line takes
as many columns as the widest helper that was ever added, and two more. -/
theorem aligned_listing :
    (∀ count, CountsBlanks count → ∀ (changes : List Change) (palette : Palette),
      (after count changes).listing palette =
          (after count changes).helpers.values.map (fun helper =>
            (after count changes).listingHead palette helper ++
              palette.paint .dim (helper.description.getD "")) ∧
      ∀ helper ∈ (after count changes).helpers.values,
        helper.width ≤ (after count changes).longestWidth ∧
        count (Text.stripEscapes ((after count changes).listingHead palette helper).toList) =
          (after count changes).longestWidth + 2) ∧
    CountsBlanks Text.columns ∧ Helper.counted Text.columns = Helper.ofOptions ∧
      ∀ (changes : List Change) (palette : Palette),
        ∀ helper ∈ (after Text.columns changes).helpers.values,
          Text.displayWidth ((after Text.columns changes).listingHead palette helper).toList =
            (after Text.columns changes).longestWidth + 2 := by
  refine ⟨fun count counts changes palette => ⟨rfl, fun helper mem => ?_⟩, countsBlanks_columns,
    Helper.counted_columns, fun changes palette helper mem => ?_⟩
  · have measured := measured_after count changes
    exact ⟨measured.width_le helper mem, measured.count_listingHead counts mem palette⟩
  · rw [Text.displayWidth_eq_columns]
    exact (measured_after Text.columns changes).count_listingHead countsBlanks_columns mem palette

/-- A helper that is replaced by a narrower one, whose label ends within an escape sequence. -/
theorem aligned_listing_replaced :
    ∃ workspace helper, CountsBlanks Text.columns ∧
      workspace = after Text.columns
        [.addHelper "wide" ⟨none, some "wide (name)", none⟩ removeBehavior,
          .addHelper "wide" ⟨none, some "a\x1b[", none⟩ removeBehavior] ∧
      workspace.helpers.values = [helper] ∧ helper.width = 3 ∧ workspace.longestWidth = 11 ∧
      Text.columns (Text.stripEscapes (workspace.listingHead ⟨true⟩ helper).toList) = 13 := by
  have wide : Text.stripEscapes "wide (name)".toList = "wide (name)".toList :=
    Text.stripEscapes_of_not_mem (by decide)
  have narrow : Text.stripEscapes "a\x1b[".toList = "a\x1b[".toList := by
    change Text.stripEscapes ['a', '\x1b', '['] = ['a', '\x1b', '[']
    rw [Text.stripEscapes_cons rfl, Text.stripEscapes_cons rfl, Text.stripEscapes_cons rfl,
      Text.stripEscapes]
  let first := Helper.counted Text.columns "wide" ⟨none, some "wide (name)", none⟩ removeBehavior
  let second := Helper.counted Text.columns "wide" ⟨none, some "a\x1b[", none⟩ removeBehavior
  have width : first.width = 11 := by
    change Text.columns (Text.stripEscapes "wide (name)".toList) = 11
    rw [wide]
    decide +kernel
  have width' : second.width = 3 := by
    change Text.columns (Text.stripEscapes "a\x1b[".toList) = 3
    rw [narrow]
    decide +kernel
  have longest : max (max 0 first.width) second.width = 11 := by
    rw [width, width']
    rfl
  have aligned := aligned_listing.1 Text.columns countsBlanks_columns
    [.addHelper "wide" ⟨none, some "wide (name)", none⟩ removeBehavior,
      .addHelper "wide" ⟨none, some "a\x1b[", none⟩ removeBehavior] ⟨true⟩
  have columns := (aligned.2 second List.mem_cons_self).2
  refine ⟨_, second, countsBlanks_columns, rfl, rfl, width', longest, columns.trans ?_⟩
  exact congrArg (· + 2) longest

end Workspace

end ScriptConsole
