import Mathlib.Data.List.Nodup
import Mathlib.Data.List.Perm.Subperm
import Mathlib.Logic.Relation
import ScriptConsole.Value.Inspect

/-!
# What is shown within a value

To show a value at a level is to show its items and fields one level deeper, unless they
collapse, and to show what its promises have settled with.  A value has a text if the
promises within it have one, and within a value that has a text nothing is without end.
-/

namespace ScriptConsole.Value

variable {view : View} {promises : Promises} {shown : Nat → Nat → Option (List Char)}

/-! ## Lists of texts -/

/-- The texts of entries, each after a comma. -/
def following {α : Type} (shown : α → Option (List Char)) : List α → Option (List Char)
  | [] => some []
  | entry :: entries => do
      let first ← shown entry
      let rest ← following shown entries
      some (',' :: ' ' :: (first ++ rest))

/-- The texts of entries between two brackets. -/
def enclosed {α : Type} (opening closing : Char) (shown : α → Option (List Char)) :
    List α → Option (List Char)
  | [] => some [opening, closing]
  | entry :: entries => do
      let first ← shown entry
      let rest ← following shown entries
      some (opening :: ' ' :: (first ++ (rest ++ [' ', closing])))

/-- Entries between two brackets, or a word for them where they collapse. -/
def showEntries {α : Type} (view : View) (level : Nat) (word : String) (opening closing : Char)
    (shown : α → Option (List Char)) (entries : List α) : Option (List Char) :=
  if view.collapses level && !entries.isEmpty then some (view.paint .cyan word)
  else enclosed opening closing shown entries

def showField (shown : Value → Option (List Char)) (entry : String × Value) :
    Option (List Char) :=
  (shown entry.2).map fun text => showKey entry.1.toList ++ ':' :: ' ' :: text

theorem isSome_bind_bind_iff {first rest : Option (List Char)}
    {join : List Char → List Char → List Char} :
    (first.bind fun text => rest.bind fun more => some (join text more)).isSome ↔
      first.isSome ∧ rest.isSome := by
  cases first <;> cases rest <;> simp

theorem isSome_following_iff {α : Type} {shown : α → Option (List Char)} {entries : List α} :
    (following shown entries).isSome ↔ ∀ entry ∈ entries, (shown entry).isSome := by
  induction entries with
  | nil => simp [following]
  | cons entry entries ih =>
      rw [following, List.forall_mem_cons, ← ih]
      exact isSome_bind_bind_iff

theorem isSome_showEntries_iff {α : Type} {shown : α → Option (List Char)} {entries : List α}
    {level : Nat} {word : String} {opening closing : Char} :
    (showEntries view level word opening closing shown entries).isSome ↔
      (view.collapses level = false → ∀ entry ∈ entries, (shown entry).isSome) := by
  cases entries with
  | nil => simp [showEntries, enclosed]
  | cons entry entries =>
      rw [showEntries, enclosed, List.forall_mem_cons, ← isSome_following_iff]
      cases view.collapses level with
      | true => simp
      | false => simpa using isSome_bind_bind_iff

/-! ## Arrays and objects -/

theorem showItems_eq (level : Nat) (items : List Value) :
    showItems view shown level items = following (showWith view shown level) items := by
  induction items with
  | nil => rfl
  | cons item items ih => rw [showItems, following, ih]; rfl

theorem showFields_eq (level : Nat) (fields : List (String × Value)) :
    showFields view shown level fields =
      following (showField (showWith view shown level)) fields := by
  induction fields with
  | nil => rfl
  | cons entry fields ih =>
      obtain ⟨key, item⟩ := entry
      rw [showFields, following, showField, ih]
      cases showWith view shown level item with
      | none => rfl
      | some first => simp

theorem showWith_array (level : Nat) (items : List Value) :
    showWith view shown level (.array items) =
      showEntries view level "[Array]" '[' ']' (showWith view shown (level + 1)) items := by
  cases items with
  | nil => simp [showWith, showEntries, enclosed]
  | cons item items =>
      rw [showWith, showEntries, enclosed, showItems_eq]
      simp

theorem showWith_object (level : Nat) (fields : List (String × Value)) :
    showWith view shown level (.object fields) =
      showEntries view level "[Object]" '\x7b' '\x7d'
        (showField (showWith view shown (level + 1))) fields := by
  cases fields with
  | nil => simp [showWith, showEntries, enclosed]
  | cons entry fields =>
      obtain ⟨key, item⟩ := entry
      rw [showWith, showEntries, enclosed, showFields_eq, showField]
      cases showWith view shown (level + 1) item with
      | none => simp
      | some first => simp

theorem isSome_array_iff {level : Nat} {items : List Value} :
    (showWith view shown level (.array items)).isSome ↔
      (view.collapses level = false →
        ∀ item ∈ items, (showWith view shown (level + 1) item).isSome) := by
  rw [showWith_array]
  exact isSome_showEntries_iff

theorem isSome_object_iff {level : Nat} {fields : List (String × Value)} :
    (showWith view shown level (.object fields)).isSome ↔
      (view.collapses level = false →
        ∀ entry ∈ fields, (showWith view shown (level + 1) entry.2).isSome) := by
  rw [showWith_object, isSome_showEntries_iff]
  simp only [showField, Option.isSome_map]

/-! ## Values within values -/

/-- What is shown at once within a value that is shown at a level. -/
inductive Within (view : View) (promises : Promises) : Nat × Value → Nat × Value → Prop where
  | item {level : Nat} {items : List Value} {item : Value}
      (spread : view.collapses level = false) (mem : item ∈ items) :
      Within view promises (level + 1, item) (level, .array items)
  | field {level : Nat} {fields : List (String × Value)} {entry : String × Value}
      (spread : view.collapses level = false) (mem : entry ∈ fields) :
      Within view promises (level + 1, entry.2) (level, .object fields)
  | fulfilled {level identity : Nat} {value : Value}
      (settled : promises.state identity = .fulfilled value) :
      Within view promises (level + 1, value) (level, .promise identity)
  | rejected {level identity : Nat} {reason : Value}
      (settled : promises.state identity = .rejected reason) :
      Within view promises (level + 1, reason) (level, .promise identity)

theorem isSome_showWith (promises : Promises) (value : Value) (level : Nat)
    (promised : ∀ level' identity,
      Relation.ReflTransGen (Within view promises) (level', .promise identity) (level, value) →
        (shown level' identity).isSome) :
    (showWith view shown level value).isSome := by
  induction value using Value.inductionOnParts generalizing level with
  | undefined | null | bool _ | number _ | string _ | function _ => rfl
  | promise identity => exact promised level identity .refl
  | array items ih =>
      refine isSome_array_iff.2 fun spread item mem => ?_
      exact ih item mem (level + 1) fun level' identity within =>
        promised level' identity (within.tail (.item spread mem))
  | object fields ih =>
      refine isSome_object_iff.2 fun spread entry mem => ?_
      exact ih entry mem (level + 1) fun level' identity within =>
        promised level' identity (within.tail (.field spread mem))

/-- What is shown within a value comes to an end if it does for all promises that have a text. -/
theorem acc_of_isSome_showWith
    (promised : ∀ level identity, (shown level identity).isSome →
      Acc (Within view promises) (level, .promise identity))
    (value : Value) (level : Nat) (isShown : (showWith view shown level value).isSome) :
    Acc (Within view promises) (level, value) := by
  induction value using Value.inductionOnParts generalizing level with
  | undefined | null | bool _ | number _ | string _ | function _ => exact .intro _ nofun
  | promise identity => exact promised level identity isShown
  | array items ih =>
      refine .intro _ fun part within => ?_
      cases within with
      | item spread mem => exact ih _ mem _ (isSome_array_iff.1 isShown spread _ mem)
  | object fields ih =>
      refine .intro _ fun part within => ?_
      cases within with
      | field spread mem => exact ih _ mem _ (isSome_object_iff.1 isShown spread _ mem)

theorem acc_of_isSome_showPromise (fuel level identity : Nat)
    (isShown : (showPromise view promises fuel level identity).isSome) :
    Acc (Within view promises) (level, .promise identity) := by
  induction fuel generalizing level identity with
  | zero => cases isShown
  | succ fuel ih =>
      refine .intro _ fun part within => ?_
      rw [showPromise] at isShown
      cases within with
      | fulfilled settled | rejected settled =>
          rw [settled] at isShown
          exact acc_of_isSome_showWith ih _ _ (by simpa using isShown)

/-! ## Promises within promises -/

theorem lt_length_of_state_ne_pending {identity : Nat}
    (settled : promises.state identity ≠ .pending) : identity < promises.states.length := by
  by_contra outside
  refine settled ?_
  rw [Promises.state, List.getElem?_eq_none (Nat.le_of_not_lt outside)]
  rfl

/-- What a promise has settled with is shown within it if every promise shown there is. -/
theorem isSome_showPromise_succ {fuel level identity : Nat}
    (promised : ∀ level' other,
      Relation.TransGen (Within view promises) (level', .promise other)
        (level, .promise identity) →
      (showPromise view promises fuel level' other).isSome) :
    (showPromise view promises (fuel + 1) level identity).isSome := by
  have inner {value : Value}
      (within : Within view promises (level + 1, value) (level, .promise identity)) :
      (showWith view (showPromise view promises fuel) (level + 1) value).isSome :=
    isSome_showWith promises value (level + 1) fun level' other further =>
      promised level' other (.tail' further within)
  rw [showPromise]
  cases state : promises.state identity with
  | pending => rfl
  | fulfilled value => simpa using inner (.fulfilled state)
  | rejected reason => simpa using inner (.rejected state)

/-- How promises lead on to those that are shown within them, and never to themselves, where
all is fine at a level. -/
structure LeadsOn (view : View) (promises : Promises) (leads fine : Nat → Nat → Prop) : Prop where
  trans : ∀ {first second third}, leads first second → leads second third → leads first third
  irrefl : ∀ {level identity}, fine level identity → ¬leads identity identity
  present : ∀ {identity other}, leads identity other → identity < promises.states.length
  next : ∀ {level identity level' other}, fine level identity →
    Relation.TransGen (Within view promises) (level', .promise other) (level, .promise identity) →
      fine level' other ∧ leads identity other

/-- A promise is shown within as many others as there are: the promises around it are all
different, since each of them leads on to it. -/
theorem LeadsOn.isSome_showPromise {leads fine : Nat → Nat → Prop}
    (leadsOn : LeadsOn view promises leads fine) (around : List Nat) {fuel level identity : Nat}
    (isFine : fine level identity) (different : around.Nodup)
    (lead : ∀ other ∈ around, leads other identity)
    (enough : promises.states.length < fuel + around.length) :
    (showPromise view promises fuel level identity).isSome := by
  induction fuel generalizing around level identity with
  | zero =>
      have few : around.length ≤ promises.states.length := by
        have within := different.subperm fun other mem =>
          List.mem_range.2 (leadsOn.present (lead other mem))
        simpa using within.length_le
      omega
  | succ fuel ih =>
      refine isSome_showPromise_succ fun level' other within => ?_
      obtain ⟨isFine', leads'⟩ := leadsOn.next isFine within
      have apart : identity ∉ around := fun mem => leadsOn.irrefl isFine (lead identity mem)
      refine ih (identity :: around) isFine' (List.nodup_cons.2 ⟨apart, different⟩) ?_
        (by rw [List.length_cons]; omega)
      rw [List.forall_mem_cons]
      exact ⟨leads', fun earlier mem => leadsOn.trans (lead earlier mem) leads'⟩

end ScriptConsole.Value
