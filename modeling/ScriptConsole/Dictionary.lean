/-!
# Dictionaries

Values under names, in the order in which the names were first put in.
-/

namespace ScriptConsole

abbrev Dictionary (α : Type) : Type :=
  List (String × α)

namespace Dictionary

variable {α : Type}

def find? (name : String) : Dictionary α → Option α
  | [] => none
  | (key, value) :: rest => if key = name then some value else find? name rest

/-- Put a value under a name; a new name goes to the end. -/
def insert (name : String) (value : α) : Dictionary α → Dictionary α
  | [] => [(name, value)]
  | (key, old) :: rest =>
      if key = name then (key, value) :: rest else (key, old) :: insert name value rest

/-- Remove a name; the others keep their order. -/
def erase (name : String) (dictionary : Dictionary α) : Dictionary α :=
  dictionary.filter fun entry => entry.1 ≠ name

def keys (dictionary : Dictionary α) : List String :=
  dictionary.map (·.1)

def values (dictionary : Dictionary α) : List α :=
  dictionary.map (·.2)

def contains (name : String) (dictionary : Dictionary α) : Bool :=
  (find? name dictionary).isSome

/-- The dictionary of a list of entries; of two entries under one name the later
value counts, in the place of the earlier. -/
def ofList (entries : List (String × α)) : Dictionary α :=
  entries.foldl (fun dictionary entry => insert entry.1 entry.2 dictionary) []

def Distinct (dictionary : Dictionary α) : Prop :=
  (keys dictionary).Nodup

instance (dictionary : Dictionary α) : Decidable (Distinct dictionary) :=
  inferInstanceAs (Decidable (keys dictionary).Nodup)

@[simp] theorem find?_nil (name : String) : find? name ([] : Dictionary α) = none := rfl

theorem find?_insert_self (name : String) (value : α) (dictionary : Dictionary α) :
    find? name (insert name value dictionary) = some value := by
  induction dictionary with
  | nil => simp [insert, find?]
  | cons entry rest ih =>
      by_cases h : entry.1 = name <;> simp [insert, find?, h, ih]

theorem find?_insert_of_ne {name other : String} (h : other ≠ name) (value : α)
    (dictionary : Dictionary α) :
    find? other (insert name value dictionary) = find? other dictionary := by
  induction dictionary with
  | nil => simp [insert, find?, Ne.symm h]
  | cons entry rest ih =>
      by_cases hk : entry.1 = name
      · simp [insert, find?, hk, Ne.symm h]
      · by_cases ho : entry.1 = other <;> simp_all [insert, find?]

theorem mem_of_find? {name : String} {value : α} {dictionary : Dictionary α}
    (h : find? name dictionary = some value) : (name, value) ∈ dictionary := by
  induction dictionary with
  | nil => cases h
  | cons entry rest ih =>
      obtain ⟨key, old⟩ := entry
      rw [find?] at h
      split at h
      · rename_i same
        rw [same, Option.some.inj h]
        exact List.mem_cons_self
      · exact List.mem_cons_of_mem _ (ih h)

theorem mem_keys_of_mem {name : String} {value : α} {dictionary : Dictionary α}
    (mem : (name, value) ∈ dictionary) : name ∈ keys dictionary :=
  List.mem_map.2 ⟨(name, value), mem, rfl⟩

theorem exists_mem_of_mem_keys {name : String} {dictionary : Dictionary α}
    (mem : name ∈ keys dictionary) : ∃ value, (name, value) ∈ dictionary := by
  obtain ⟨entry, held, rfl⟩ := List.mem_map.1 mem
  exact ⟨entry.2, held⟩

/-- A value under a name is found if every name stands for one value. -/
theorem Distinct.find?_eq_some_iff {dictionary : Dictionary α} (distinct : Distinct dictionary)
    {name : String} {value : α} :
    find? name dictionary = some value ↔ (name, value) ∈ dictionary := by
  refine ⟨mem_of_find?, fun mem => ?_⟩
  induction dictionary with
  | nil => cases mem
  | cons entry rest ih =>
      have apart : entry.1 ∉ keys rest ∧ Distinct rest := by
        simpa [Distinct, keys] using distinct
      rw [find?]
      rcases List.mem_cons.1 mem with rfl | mem
      · exact if_pos rfl
      · rw [if_neg, ih apart.2 mem]
        rintro rfl
        exact apart.1 (mem_keys_of_mem mem)

theorem Distinct.perm {dictionary other : Dictionary α} (distinct : Distinct dictionary)
    (perm : dictionary.Perm other) : Distinct other :=
  List.Perm.nodup (perm.map fun entry => entry.1) distinct

theorem Distinct.find?_perm {dictionary other : Dictionary α} (distinct : Distinct dictionary)
    (perm : dictionary.Perm other) (name : String) :
    find? name dictionary = find? name other := by
  refine Option.ext fun value => ?_
  rw [distinct.find?_eq_some_iff, (distinct.perm perm).find?_eq_some_iff, perm.mem_iff]

theorem eq_or_mem_of_mem_insert {name : String} {value : α} {dictionary : Dictionary α}
    {entry : String × α} (h : entry ∈ insert name value dictionary) :
    entry = (name, value) ∨ entry ∈ dictionary := by
  induction dictionary with
  | nil => exact .inl (List.mem_singleton.1 h)
  | cons first rest ih =>
      obtain ⟨key, old⟩ := first
      rw [insert] at h
      split at h
      · rename_i same
        rcases List.mem_cons.1 h with rfl | mem
        · exact .inl (by rw [same])
        · exact .inr (List.mem_cons_of_mem _ mem)
      · rcases List.mem_cons.1 h with rfl | mem
        · exact .inr List.mem_cons_self
        · exact (ih mem).imp id (List.mem_cons_of_mem _)

theorem mem_keys_insert {name other : String} {value : α} {dictionary : Dictionary α} :
    other ∈ keys (insert name value dictionary) ↔ other = name ∨ other ∈ keys dictionary := by
  induction dictionary with
  | nil => simp [insert, keys]
  | cons entry rest ih =>
      simp only [keys] at ih
      by_cases hk : entry.1 = name
      · simp [insert, keys, hk]
      · simp [insert, keys, hk, ih]
        grind

theorem Distinct.insert {dictionary : Dictionary α} (h : Distinct dictionary)
    (name : String) (value : α) : Distinct (Dictionary.insert name value dictionary) := by
  induction dictionary with
  | nil => simp [Dictionary.insert, Distinct, keys]
  | cons entry rest ih =>
      have hd : entry.1 ∉ keys rest ∧ Distinct rest := by
        simpa [Distinct, keys] using h
      by_cases hk : entry.1 = name
      · simpa [Dictionary.insert, Distinct, keys, hk] using h
      · have hn : entry.1 ∉ keys (Dictionary.insert name value rest) := by
          rw [mem_keys_insert]
          rintro (he | hm)
          · exact hk he
          · exact hd.1 hm
        simp only [Dictionary.insert, hk, if_false, Distinct, keys, List.map_cons,
          List.nodup_cons]
        exact ⟨hn, ih hd.2⟩

theorem distinct_ofList (entries : List (String × α)) : Distinct (ofList entries) := by
  have h : ∀ (entries : List (String × α)) (dictionary : Dictionary α),
      Distinct dictionary →
        Distinct (entries.foldl
          (fun dictionary entry => insert entry.1 entry.2 dictionary) dictionary) := by
    intro entries
    induction entries with
    | nil => exact fun _ h => h
    | cons entry rest ih => exact fun _ h => ih _ (h.insert _ _)
  exact h entries [] (by simp [Distinct, keys])

end Dictionary

end ScriptConsole
