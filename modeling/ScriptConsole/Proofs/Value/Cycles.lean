import ScriptConsole.Proofs.Value.Held

/-!
# Promises that settle with themselves

A greatest depth bounds how deep arrays and objects are shown, and not promises.  So a value
has a text at a finite depth exactly if no promise within it, as far as it is shown, has
settled with itself, be it through other promises; otherwise there is no end to showing it.
-/

namespace ScriptConsole.Value

variable {promises : Promises} {view : View}

/-- A promise that has settled with another promise. -/
def SettlesWith (promises : Promises) (identity other : Nat) : Prop :=
  promises.state identity = .fulfilled (.promise other) ∨
    promises.state identity = .rejected (.promise other)

/-- A promise that has settled with itself, through however many other promises. -/
def HoldsItself (promises : Promises) (identity : Nat) : Prop :=
  Relation.TransGen (SettlesWith promises) identity identity

theorem within_of_settlesWith {identity other : Nat} (settles : SettlesWith promises identity other)
    (level : Nat) :
    Within view promises (level + 1, .promise other) (level, .promise identity) := by
  rcases settles with settled | settled
  · exact .fulfilled settled
  · exact .rejected settled

theorem not_holdsItself_of_acc {level identity : Nat}
    (acc : Acc (Within view promises) (level, .promise identity)) :
    ¬HoldsItself promises identity := by
  generalize whole : (level, Value.promise identity) = shownAt at acc
  induction acc generalizing level identity with
  | intro _ _ ih =>
      subst whole
      intro cycle
      obtain ⟨other, settles, back⟩ := Relation.TransGen.head'_iff.1 cycle
      exact ih _ (within_of_settlesWith settles level) rfl (.tail' back settles)

theorem acc_of_within {part whole : Nat × Value}
    (within : Relation.ReflTransGen (Within view promises) part whole)
    (acc : Acc (Within view promises) whole) : Acc (Within view promises) part := by
  induction within with
  | refl => exact acc
  | tail _ last ih => exact ih (acc.inv last)

theorem level_lt_of_within {part whole : Nat × Value}
    (within : Relation.TransGen (Within view promises) part whole) : whole.1 < part.1 := by
  induction within with
  | single first => cases first <;> exact Nat.lt_succ_self _
  | tail _ last ih => cases last <;> exact Nat.lt_of_succ_lt ih

section Deep

variable {palette : Palette} {depth : Nat}

theorem collapses_iff {level : Nat} :
    (⟨palette, some depth⟩ : View).collapses level = true ↔ depth < level := by
  simp [View.collapses]

/-- Below the greatest depth only promises are shown within a value. -/
theorem exists_promise_of_within {level other : Nat} {whole : Nat × Value}
    (deep : depth < whole.1)
    (within : Relation.ReflTransGen (Within ⟨palette, some depth⟩ promises)
      (level, .promise other) whole) :
    ∃ identity, whole.2 = .promise identity ∧
      Relation.ReflTransGen (SettlesWith promises) identity other := by
  induction within with
  | refl => exact ⟨other, rfl, .refl⟩
  | tail _ last ih =>
      cases last with
      | item spread | field spread => simp [collapses_iff.2 deep] at spread
      | fulfilled settled =>
          obtain ⟨next, rfl, further⟩ := ih (Nat.lt_succ_of_lt deep)
          exact ⟨_, rfl, .head (.inl settled) further⟩
      | rejected settled =>
          obtain ⟨next, rfl, further⟩ := ih (Nat.lt_succ_of_lt deep)
          exact ⟨_, rfl, .head (.inr settled) further⟩

theorem settlesWith_of_within {level level' identity other : Nat} (deep : depth < level)
    (within : Relation.TransGen (Within ⟨palette, some depth⟩ promises)
      (level', .promise other) (level, .promise identity)) :
    Relation.TransGen (SettlesWith promises) identity other := by
  obtain ⟨middle, rest, first⟩ := Relation.TransGen.tail'_iff.1 within
  cases first with
  | fulfilled settled =>
      obtain ⟨next, rfl, further⟩ := exists_promise_of_within (Nat.lt_succ_of_lt deep) rest
      exact .head' (.inl settled) further
  | rejected settled =>
      obtain ⟨next, rfl, further⟩ := exists_promise_of_within (Nat.lt_succ_of_lt deep) rest
      exact .head' (.inr settled) further

/-- No promise within what is shown has settled with itself. -/
def Ends (view : View) (promises : Promises) (whole : Nat × Value) : Prop :=
  ∀ level identity,
    Relation.ReflTransGen (Within view promises) (level, .promise identity) whole →
      ¬HoldsItself promises identity

theorem Ends.of_within {part whole : Nat × Value} (ends : Ends view promises whole)
    (within : Relation.ReflTransGen (Within view promises) part whole) : Ends view promises part :=
  fun level identity further => ends level identity (further.trans within)

/-- Below the greatest depth a promise that comes to an end leads on by what it has settled
with. -/
theorem leadsOn_of_deep :
    LeadsOn ⟨palette, some depth⟩ promises (Relation.TransGen (SettlesWith promises))
      fun level identity =>
        depth < level ∧ Ends ⟨palette, some depth⟩ promises (level, .promise identity) where
  trans := .trans
  irrefl fine := fine.2 _ _ .refl
  present settles := by
    obtain ⟨next, settled | settled, -⟩ := Relation.TransGen.head'_iff.1 settles
    all_goals exact lt_length_of_state_ne_pending (by simp [settled])
  next fine within :=
    ⟨⟨Nat.lt_trans fine.1 (level_lt_of_within within), fine.2.of_within within.to_reflTransGen⟩,
      settlesWith_of_within fine.1 within⟩

/-- A promise is shown within as many others as there are levels left, and promises. -/
theorem isSome_showPromise_of_ends {fuel level identity : Nat}
    (ends : Ends ⟨palette, some depth⟩ promises (level, .promise identity))
    (enough : promises.states.length + (depth + 1 - level) < fuel) :
    (showPromise ⟨palette, some depth⟩ promises fuel level identity).isSome := by
  induction fuel generalizing level identity with
  | zero => omega
  | succ fuel ih =>
      by_cases deep : depth < level
      · exact leadsOn_of_deep.isSome_showPromise [] ⟨deep, ends⟩ List.nodup_nil (by simp)
          (by rw [List.length_nil]; omega)
      · refine isSome_showPromise_succ fun level' other within => ?_
        have deeper : level < level' := level_lt_of_within within
        exact ih (ends.of_within within.to_reflTransGen) (by omega)

theorem exists_inspect?_of_ends {value : Value}
    (ends : Ends ⟨palette, some depth⟩ promises (0, value)) :
    ∃ text, inspect? ⟨palette, some depth⟩ promises value = some text := by
  refine Option.isSome_iff_exists.1 (isSome_showWith promises value 0
    fun level identity within => ?_)
  refine isSome_showPromise_of_ends (ends.of_within within) ?_
  rw [promiseBound, Option.getD_some]
  omega

end Deep

theorem acc_of_exists_inspect? {value : Value}
    (isShown : ∃ text, inspect? view promises value = some text) :
    Acc (Within view promises) (0, value) :=
  acc_of_isSome_showWith (acc_of_isSome_showPromise _) value 0 (Option.isSome_iff_exists.2 isShown)

theorem ends_of_acc {whole : Nat × Value} (acc : Acc (Within view promises) whole) :
    Ends view promises whole :=
  fun _ _ within => not_holdsItself_of_acc (acc_of_within within acc)

/-- A value has a text at a finite depth exactly if no promise within it, as far as it is shown,
has settled with itself; and exactly if what is shown within it comes to an end. -/
theorem exists_inspect?_iff (promises : Promises) (value : Value) (palette : Palette)
    (depth : Nat) :
    ((∃ text, inspect? ⟨palette, some depth⟩ promises value = some text) ↔
      ∀ level identity,
        Relation.ReflTransGen (Within ⟨palette, some depth⟩ promises)
            (level, .promise identity) (0, value) →
          ¬HoldsItself promises identity) ∧
    ((∃ text, inspect? ⟨palette, some depth⟩ promises value = some text) ↔
      Acc (Within ⟨palette, some depth⟩ promises) (0, value)) := by
  constructor
  · constructor
    · exact fun isShown => ends_of_acc (acc_of_exists_inspect? isShown)
    · exact exists_inspect?_of_ends
  · constructor
    · exact acc_of_exists_inspect?
    · exact fun acc => exists_inspect?_of_ends (ends_of_acc acc)

/-- A promise that is settled with itself has no text at any depth, and promises that settle
with one another are shown beyond the greatest depth. -/
theorem inspect?_settled_with_itself :
    ∃ identity pending promises, Promises.empty.make .pending = (identity, pending) ∧
      pending.settle identity (.fulfilled (.promise identity)) = (true, promises) ∧
      (∀ palette depth, inspect? ⟨palette, some depth⟩ promises (.promise identity) = none) ∧
      inspect ⟨.plain, some 0⟩ ⟨[.fulfilled .null, .fulfilled (.promise 0), .fulfilled (.promise 1)]⟩
        (.promise 2) = "Promise \x7b Promise \x7b Promise \x7b null \x7d \x7d \x7d" := by
  refine ⟨0, ⟨[.pending]⟩, ⟨[.fulfilled (.promise 0)]⟩, rfl, rfl, fun palette depth => ?_, ?_⟩
  · have cycle : HoldsItself ⟨[.fulfilled (.promise 0)]⟩ 0 := .single (.inl rfl)
    refine Option.eq_none_iff_forall_ne_some.2 fun text isShown => ?_
    exact ends_of_acc (acc_of_exists_inspect? ⟨text, isShown⟩) 0 0 .refl cycle
  · decide +kernel

end ScriptConsole.Value
