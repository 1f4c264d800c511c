import Mathlib.Data.List.Perm.Subperm
import ScriptConsole.Value

/-!
# Equality of values

Values are equal if they are built alike from equal parts.  Objects are compared by looking
up every field of the one in the other; since keys are distinct and there are as many fields
in both, that is the same either way round.
-/

namespace ScriptConsole.Value

/-! ## Parts of values -/

/-- A value has itself as a part, and the parts of its items and fields. -/
inductive HasPart : Value → Value → Prop where
  | self (value : Value) : HasPart value value
  | item {items : List Value} {item part : Value} (mem : item ∈ items)
      (inner : HasPart item part) : HasPart (.array items) part
  | field {fields : List (String × Value)} {entry : String × Value} {part : Value}
      (mem : entry ∈ fields) (inner : HasPart entry.2 part) : HasPart (.object fields) part

/-- The keys of every object in a value are distinct, as they are in every dictionary that is
filled by insertion (`Dictionary.distinct_ofList`). -/
def Proper (value : Value) : Prop :=
  ∀ fields, HasPart value (.object fields) → Dictionary.Distinct fields

/-- No part of a value is a number that equals nothing. -/
def NaNFree (value : Value) : Prop :=
  ∀ number, HasPart value (.number number) → number.isNaN = false

theorem proper_array_iff {items : List Value} :
    Proper (.array items) ↔ ∀ item ∈ items, Proper item := by
  constructor
  · exact fun proper item mem fields part => proper fields (.item mem part)
  · intro proper fields part
    cases part with
    | item mem inner => exact proper _ mem fields inner

theorem proper_object_iff {fields : List (String × Value)} :
    Proper (.object fields) ↔
      Dictionary.Distinct fields ∧ ∀ entry ∈ fields, Proper entry.2 := by
  constructor
  · exact fun proper => ⟨proper fields (.self _),
      fun entry mem other part => proper other (.field mem part)⟩
  · rintro ⟨distinct, proper⟩ other part
    cases part with
    | self => exact distinct
    | field mem inner => exact proper _ mem other inner

theorem nanFree_array_iff {items : List Value} :
    NaNFree (.array items) ↔ ∀ item ∈ items, NaNFree item := by
  constructor
  · exact fun nanFree item mem number part => nanFree number (.item mem part)
  · intro nanFree number part
    cases part with
    | item mem inner => exact nanFree _ mem number inner

theorem nanFree_object_iff {fields : List (String × Value)} :
    NaNFree (.object fields) ↔ ∀ entry ∈ fields, NaNFree entry.2 := by
  constructor
  · exact fun nanFree entry mem number part => nanFree number (.field mem part)
  · intro nanFree number part
    cases part with
    | field mem inner => exact nanFree _ mem number inner

theorem nanFree_number_iff {number : Number} :
    NaNFree (.number number) ↔ number.isNaN = false := by
  constructor
  · exact fun nanFree => nanFree number (.self _)
  · intro isNumber other part
    cases part with
    | self => exact isNumber

/-! ## Comparing lists -/

theorem equalItems_iff {items items' : List Value} :
    equalItems items items' = true ↔
      List.Forall₂ (fun item item' => item.equals item' = true) items items' := by
  induction items generalizing items' with
  | nil => cases items' <;> simp [equalItems]
  | cons item items ih => cases items' <;> simp [equalItems, ih]

theorem equalFields_iff {fields fields' : List (String × Value)} :
    equalFields fields fields' = true ↔ ∀ entry ∈ fields,
      ∃ value, Dictionary.find? entry.1 fields' = some value ∧ entry.2.equals value = true := by
  induction fields with
  | nil => simp [equalFields]
  | cons entry fields ih =>
      obtain ⟨key, value⟩ := entry
      rw [equalFields, Bool.and_eq_true, ih, List.forall_mem_cons]
      cases Dictionary.find? key fields' <;> simp

/-! ## What a value is equal to -/

/-- Equal values, kind by kind. -/
inductive EqualTo : Value → Value → Prop where
  | undefined : EqualTo .undefined .undefined
  | null : EqualTo .null .null
  | bool (value : Bool) : EqualTo (.bool value) (.bool value)
  | string (text : String) : EqualTo (.string text) (.string text)
  | promise (identity : Nat) : EqualTo (.promise identity) (.promise identity)
  | number {number number' : Number} (equal : number.equals number' = true) :
      EqualTo (.number number) (.number number')
  | function {function function' : Function} (same : function.same function' = true) :
      EqualTo (.function function) (.function function')
  | array {items items' : List Value}
      (equal : List.Forall₂ (fun item item' => item.equals item' = true) items items') :
      EqualTo (.array items) (.array items')
  | object {fields fields' : List (String × Value)} (length : fields.length = fields'.length)
      (found : ∀ entry ∈ fields, ∃ value, Dictionary.find? entry.1 fields' = some value ∧
        entry.2.equals value = true) :
      EqualTo (.object fields) (.object fields')

theorem array_equals_iff {items items' : List Value} :
    (Value.array items).equals (.array items') = true ↔
      List.Forall₂ (fun item item' => item.equals item' = true) items items' :=
  equalItems_iff

theorem object_equals_iff {fields fields' : List (String × Value)} :
    (Value.object fields).equals (.object fields') = true ↔
      fields.length = fields'.length ∧ ∀ entry ∈ fields,
        ∃ value, Dictionary.find? entry.1 fields' = some value ∧ entry.2.equals value = true := by
  rw [← equalFields_iff, ← beq_iff_eq (a := fields.length), ← Bool.and_eq_true]
  rfl

theorem equals_iff {a b : Value} : a.equals b = true ↔ EqualTo a b := by
  constructor
  · intro same
    fun_cases Value.equals a b with
    | case1 => exact .undefined
    | case2 => exact .null
    | case3 value value' => exact eq_of_beq same ▸ .bool value
    | case4 => exact .number same
    | case5 text text' => exact eq_of_beq same ▸ .string text
    | case6 => exact .array (array_equals_iff.1 same)
    | case7 => exact .object (object_equals_iff.1 same).1 (object_equals_iff.1 same).2
    | case8 => exact .function same
    | case9 identity identity' => exact eq_of_beq same ▸ .promise identity
    | case10 => simp_all [Value.equals]
  · intro equal
    cases equal with
    | undefined | null => rfl
    | bool value => exact beq_self_eq_true value
    | string text => exact beq_self_eq_true text
    | promise identity => exact beq_self_eq_true identity
    | number equal => exact equal
    | function same => exact same
    | array equal => exact array_equals_iff.2 equal
    | object length found => exact object_equals_iff.2 ⟨length, found⟩

/-! ## Transitivity and symmetry -/

theorem forall₂_trans_of_mem {α : Type} {r : α → α → Prop} {as bs cs : List α}
    (trans : ∀ a ∈ as, ∀ {b c}, r a b → r b c → r a c) (first : List.Forall₂ r as bs)
    (second : List.Forall₂ r bs cs) : List.Forall₂ r as cs := by
  induction first generalizing cs with
  | nil => exact second
  | cons related _ ih =>
      cases second with
      | cons related' more' =>
          rw [List.forall_mem_cons] at trans
          exact .cons (trans.1 related related') (ih trans.2 more')

theorem forall₂_symm_of_mem {α : Type} {r : α → α → Prop} {as bs : List α}
    (symm : ∀ a ∈ as, ∀ b ∈ bs, r a b → r b a) (related : List.Forall₂ r as bs) :
    List.Forall₂ r bs as := by
  induction related with
  | nil => exact .nil
  | cons first _ ih =>
      refine .cons (symm _ List.mem_cons_self _ List.mem_cons_self first) (ih ?_)
      exact fun a mem b mem' => symm a (List.mem_cons_of_mem _ mem) b (List.mem_cons_of_mem _ mem')

theorem equals_trans {a b c : Value} (first : a.equals b = true) (second : b.equals c = true) :
    a.equals c = true := by
  induction a using Value.inductionOnParts generalizing b c with
  | undefined | null | bool _ | string _ | promise _ =>
      cases equals_iff.1 first
      exact second
  | number value =>
      cases equals_iff.1 first with
      | number equal =>
          cases equals_iff.1 second with
          | number equal' => exact equals_iff.2 (.number (Number.equals_trans equal equal'))
  | function value =>
      cases equals_iff.1 first with
      | function same =>
          cases equals_iff.1 second with
          | function same' => exact equals_iff.2 (.function (Function.same_trans same same'))
  | array items ih =>
      cases equals_iff.1 first with
      | array equal =>
          cases equals_iff.1 second with
          | array equal' => exact array_equals_iff.2 (forall₂_trans_of_mem ih equal equal')
  | object fields ih =>
      cases equals_iff.1 first with
      | object length found =>
          cases equals_iff.1 second with
          | object length' found' =>
              refine object_equals_iff.2 ⟨length.trans length', fun entry mem => ?_⟩
              obtain ⟨value, isFound, equal⟩ := found entry mem
              obtain ⟨value', isFound', equal'⟩ := found' _ (Dictionary.mem_of_find? isFound)
              exact ⟨value', isFound', ih entry mem equal equal'⟩

/-- As many fields, all found in the other object, are all of its fields. -/
theorem keys_perm_of_found {fields fields' : List (String × Value)}
    (distinct : Dictionary.Distinct fields) (length : fields.length = fields'.length)
    (found : ∀ entry ∈ fields, ∃ value, Dictionary.find? entry.1 fields' = some value ∧
      entry.2.equals value = true) :
    (Dictionary.keys fields).Perm (Dictionary.keys fields') := by
  have within : Dictionary.keys fields ⊆ Dictionary.keys fields' := by
    intro key mem
    obtain ⟨value, mem⟩ := Dictionary.exists_mem_of_mem_keys mem
    obtain ⟨value', found, -⟩ := found _ mem
    exact Dictionary.mem_keys_of_mem (Dictionary.mem_of_find? found)
  refine (List.Nodup.subperm distinct within).perm_of_length_le ?_
  simp [Dictionary.keys, length]

theorem equals_symm {a b : Value} (proper : Proper a) (proper' : Proper b)
    (same : a.equals b = true) : b.equals a = true := by
  induction a using Value.inductionOnParts generalizing b with
  | undefined | null | bool _ | string _ | promise _ =>
      cases equals_iff.1 same
      exact same
  | number value =>
      cases equals_iff.1 same with
      | @number _ value' equal => exact equals_iff.2 (.number (value.equals_comm value' ▸ equal))
  | function value =>
      cases equals_iff.1 same with
      | @function _ value' equal => exact equals_iff.2 (.function (value.same_comm value' ▸ equal))
  | array items ih =>
      cases equals_iff.1 same with
      | array equal =>
          rw [proper_array_iff] at proper proper'
          refine array_equals_iff.2 (forall₂_symm_of_mem ?_ equal)
          exact fun item mem item' mem' => ih item mem (proper item mem) (proper' item' mem')
  | object fields ih =>
      cases equals_iff.1 same with
      | object length found =>
          obtain ⟨distinct, proper⟩ := proper_object_iff.1 proper
          obtain ⟨distinct', proper'⟩ := proper_object_iff.1 proper'
          refine object_equals_iff.2 ⟨length.symm, fun entry' mem' => ?_⟩
          have known : entry'.1 ∈ Dictionary.keys fields :=
            (keys_perm_of_found distinct length found).mem_iff.2 (Dictionary.mem_keys_of_mem mem')
          obtain ⟨value, mem⟩ := Dictionary.exists_mem_of_mem_keys known
          obtain ⟨value', isFound, equal⟩ := found _ mem
          -- The value found under the key of the entry is that of the entry.
          obtain rfl : value' = entry'.2 :=
            Option.some.inj (isFound.symm.trans (distinct'.find?_eq_some_iff.2 mem'))
          exact ⟨value, distinct.find?_eq_some_iff.2 mem,
            ih _ mem (proper _ mem) (proper' _ mem') equal⟩

/-! ## Values that are equal to themselves -/

theorem object_equals_self_iff {fields : List (String × Value)}
    (distinct : Dictionary.Distinct fields) :
    (Value.object fields).equals (.object fields) = true ↔
      ∀ entry ∈ fields, entry.2.equals entry.2 = true := by
  rw [object_equals_iff, and_iff_right rfl]
  refine forall_congr' fun entry => forall_congr' fun mem => ?_
  rw [distinct.find?_eq_some_iff.2 mem]
  simp

theorem equals_self_iff {value : Value} (proper : Proper value) :
    value.equals value = true ↔ NaNFree value := by
  induction value using Value.inductionOnParts with
  | undefined | null | bool _ | string _ | promise _ =>
      exact iff_of_true (equals_iff.2 (by constructor)) fun _ part => nomatch part
  | function value =>
      exact iff_of_true (equals_iff.2 (.function value.same_self)) fun _ part => nomatch part
  | number value =>
      rw [nanFree_number_iff, ← Bool.not_eq_true', ← value.equals_self]
      rfl
  | array items ih =>
      rw [proper_array_iff] at proper
      rw [nanFree_array_iff, array_equals_iff, List.forall₂_same]
      exact forall₂_congr fun item mem => ih item mem (proper item mem)
  | object fields ih =>
      obtain ⟨distinct, proper⟩ := proper_object_iff.1 proper
      rw [nanFree_object_iff, object_equals_self_iff distinct]
      exact forall₂_congr fun entry mem => ih entry mem (proper entry mem)

/-! ## The order of fields -/

theorem equals_object_of_perm {fields fields' : List (String × Value)}
    (distinct : Dictionary.Distinct fields) (perm : fields.Perm fields') (other : Value) :
    (Value.object fields).equals other = (Value.object fields').equals other ∧
      other.equals (.object fields) = other.equals (.object fields') := by
  cases other with
  | object others =>
      constructor
      · rw [Bool.eq_iff_iff, object_equals_iff, object_equals_iff]
        simp only [perm.length_eq, perm.mem_iff]
      · rw [Bool.eq_iff_iff, object_equals_iff, object_equals_iff]
        simp only [perm.length_eq, distinct.find?_perm perm]
  | _ => exact ⟨rfl, rfl⟩

/-! ## Functions -/

/-- The same function of the host, the same helper under any name, the callback of the same
promise, or forms of such functions that return promises. -/
inductive SameCallable : Function → Function → Prop where
  | native (name name' : String) (identity : Nat) :
      SameCallable (.native name identity) (.native name' identity)
  | helper (name name' command : String) :
      SameCallable (.helper name command) (.helper name' command)
  | settler (promise : Nat) : SameCallable (.settler promise) (.settler promise)
  | promisified {target target' : Function} (same : SameCallable target target') :
      SameCallable (.promisified target) (.promisified target')

theorem same_iff {function function' : Function} :
    function.same function' = true ↔ SameCallable function function' := by
  constructor
  · intro same
    induction function generalizing function' with
    | native name identity =>
        cases function' <;>
          simp only [Function.same, beq_iff_eq, Bool.false_eq_true] at same
        exact same ▸ .native _ _ _
    | helper name command =>
        cases function' <;>
          simp only [Function.same, beq_iff_eq, Bool.false_eq_true] at same
        exact same ▸ .helper _ _ _
    | settler promise =>
        cases function' <;>
          simp only [Function.same, beq_iff_eq, Bool.false_eq_true] at same
        exact same ▸ .settler _
    | promisified target ih =>
        cases function' <;> simp only [Function.same, Bool.false_eq_true] at same
        exact .promisified (ih same)
  · intro same
    induction same with
    | promisified _ ih => exact ih
    | _ => simp [Function.same]

/-- Equality of values is symmetric and transitive, and a value is equal to itself exactly if
no number outside its promises equals nothing.  The order of fields does not count, functions
are equal if they are the same callable, and a promise is equal to itself only. -/
theorem equals_partialEquivalence :
    (∀ a b : Value, Proper a → Proper b → a.equals b = b.equals a) ∧
    (∀ a b c : Value, a.equals b = true → b.equals c = true → a.equals c = true) ∧
    (∀ value : Value, Proper value →
      (value.equals value = true ↔
        ∀ number, HasPart value (.number number) → number.isNaN = false)) ∧
    (∀ (fields fields' : List (String × Value)) (other : Value), Proper (.object fields) →
      fields.Perm fields' →
        (Value.object fields).equals other = (Value.object fields').equals other ∧
          other.equals (.object fields) = other.equals (.object fields')) ∧
    (∀ (function : Function) (other : Value), (Value.function function).equals other = true ↔
      ∃ function', other = .function function' ∧ SameCallable function function') ∧
    ∀ (identity : Nat) (other : Value),
      (Value.promise identity).equals other = true ↔ other = .promise identity := by
  refine ⟨fun a b proper proper' => ?_, fun a b c => equals_trans,
    fun value proper => equals_self_iff proper, fun fields fields' other proper perm => ?_,
    fun function other => ?_, fun identity other => ?_⟩
  · exact Bool.eq_iff_iff.2 ⟨equals_symm proper proper', equals_symm proper' proper⟩
  · exact equals_object_of_perm (proper_object_iff.1 proper).1 perm other
  · rw [equals_iff]
    constructor
    · rintro (_ | _)
      exact ⟨_, rfl, same_iff.1 ‹_›⟩
    · rintro ⟨function', rfl, same⟩
      exact .function (same_iff.2 same)
  · rw [equals_iff]
    constructor
    · rintro ⟨⟩
      rfl
    · rintro rfl
      exact .promise identity

/-- Objects in two orders of their fields, with the two zeros; and an array that is not equal to
itself. -/
theorem equals_partialEquivalence_zeros :
    ∃ a b : Value, a = .object [("a", .array [.number ⟨0⟩]), ("b", .promise 0)] ∧
      b = .object [("b", .promise 0), ("a", .array [.number ⟨0x8000000000000000⟩])] ∧
      Proper a ∧ Proper b ∧ a.equals b = true ∧ b.equals a = true ∧ a.equals a = true ∧
      (Value.array [.number .nan]).equals (.array [.number .nan]) = false := by
  have number (n : Number) : Proper (.number n) := fun _ part => nomatch part
  have promise (identity : Nat) : Proper (.promise identity) := fun _ part => nomatch part
  have array (n : Number) : Proper (.array [.number n]) :=
    proper_array_iff.2 (by simpa using number n)
  have proper : Proper (.object [("a", .array [.number ⟨0⟩]), ("b", .promise 0)]) :=
    proper_object_iff.2 ⟨by decide, by simpa using ⟨array _, promise 0⟩⟩
  have proper' :
      Proper (.object [("b", .promise 0), ("a", .array [.number ⟨0x8000000000000000⟩])]) :=
    proper_object_iff.2 ⟨by decide, by simpa using ⟨promise 0, array _⟩⟩
  obtain ⟨symm, trans, self, -⟩ := equals_partialEquivalence
  have equal : (Value.object [("a", .array [.number ⟨0⟩]), ("b", .promise 0)]).equals
      (.object [("b", .promise 0), ("a", .array [.number ⟨0x8000000000000000⟩])]) = true := by
    decide +kernel
  have equal' := (symm _ _ proper proper').symm.trans equal
  refine ⟨_, _, rfl, rfl, proper, proper', equal, equal', trans _ _ _ equal equal', ?_⟩
  rw [← Bool.not_eq_true, self _ (array .nan)]
  exact fun numbers => absurd (numbers .nan (.item List.mem_cons_self (.self _))) (by decide)

end ScriptConsole.Value
