import ScriptConsole.Proofs.Value.Shown

/-!
# What a value holds

A value holds its items and fields, and what its promises have settled with.  If none of its
promises leads back to itself, it has a text: there are not enough promises to hold one
another more often than is looked for.
-/

namespace ScriptConsole.Value

/-- What a value is made of, or has settled with. -/
inductive Holds (promises : Promises) : Value → Value → Prop where
  | item {items : List Value} {item : Value} (mem : item ∈ items) :
      Holds promises (.array items) item
  | field {fields : List (String × Value)} {entry : String × Value} (mem : entry ∈ fields) :
      Holds promises (.object fields) entry.2
  | fulfilled {identity : Nat} {value : Value}
      (settled : promises.state identity = .fulfilled value) :
      Holds promises (.promise identity) value
  | rejected {identity : Nat} {reason : Value}
      (settled : promises.state identity = .rejected reason) :
      Holds promises (.promise identity) reason

/-- What can be found in a value, the value itself included. -/
abbrev Reaches (promises : Promises) : Value → Value → Prop :=
  Relation.ReflTransGen (Holds promises)

/-- No promise in a value leads back to itself. -/
def Acyclic (promises : Promises) (value : Value) : Prop :=
  ∀ identity, Reaches promises value (.promise identity) →
    ¬ Relation.TransGen (Holds promises) (.promise identity) (.promise identity)

variable {promises : Promises} {view : View}

theorem Acyclic.of_reaches {value part : Value} (acyclic : Acyclic promises value)
    (reaches : Reaches promises value part) : Acyclic promises part :=
  fun identity further => acyclic identity (reaches.trans further)

theorem holds_of_within {part whole : Nat × Value} (within : Within view promises part whole) :
    Holds promises whole.2 part.2 := by
  cases within with
  | item _ mem => exact .item mem
  | field _ mem => exact .field mem
  | fulfilled settled => exact .fulfilled settled
  | rejected settled => exact .rejected settled

theorem reaches_of_within {part whole : Nat × Value}
    (within : Relation.ReflTransGen (Within view promises) part whole) :
    Reaches promises whole.2 part.2 :=
  .lift Prod.snd (fun _ _ => holds_of_within) _ _ (.swap _ _ within)

/-- A promise that does not lead back to itself leads on to all that it holds. -/
theorem leadsOn_of_acyclic :
    LeadsOn view promises
      (fun identity other => Relation.TransGen (Holds promises) (.promise identity) (.promise other))
      fun _ identity => Acyclic promises (.promise identity) where
  trans := .trans
  irrefl acyclic := acyclic _ .refl
  present holds := by
    obtain ⟨part, settled | settled, -⟩ := Relation.TransGen.head'_iff.1 holds
    all_goals exact lt_length_of_state_ne_pending (by simp [*])
  next acyclic within :=
    ⟨acyclic.of_reaches (reaches_of_within within.to_reflTransGen),
      .lift Prod.snd (fun _ _ => holds_of_within) _ _ (.swap _ _ within)⟩

theorem exists_inspect?_of_acyclic {value : Value} (acyclic : Acyclic promises value)
    (view : View) : ∃ text, inspect? view promises value = some text := by
  refine Option.isSome_iff_exists.1 (isSome_showWith promises value 0
    fun level identity within => ?_)
  refine leadsOn_of_acyclic.isSome_showPromise [] (acyclic.of_reaches (reaches_of_within within))
    List.nodup_nil (by simp) ?_
  rw [promiseBound, List.length_nil]
  omega

end ScriptConsole.Value
