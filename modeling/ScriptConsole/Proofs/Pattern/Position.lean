import ScriptConsole.Proofs.Pattern.Names

/-!
# Reading a pattern by position

A reader of patterns keeps one number, the position of the token that comes next, and steps
over tokens by adding to it.  It sees that an entry was nothing by the position, which is then
where it was before.  What it reads is what is read from the tokens that are ahead.
-/

namespace ScriptConsole.Pattern

/-- What is bound on the way from a position to a later one. -/
structure Advance (pos : Nat) where
  bound : List Token
  stop : Nat
  pos_le : pos ≤ stop

section Definitions

variable (tokens : List Token)

/-- The token at a position is the given punctuator. -/
def punctuatorAt (text : String) (pos : Nat) : Bool :=
  tokens[pos]?.any (·.isPunctuator text)

/-- The end of an element: the next comma or closing bracket. -/
def elementEnd (depth pos : Nat) : Nat :=
  match _inside : tokens[pos]? with
  | none => pos
  | some token =>
      if token.isOpener then elementEnd (depth + 1) (pos + 1)
      else if token.isCloser then
        if depth = 0 then pos else elementEnd (depth - 1) (pos + 1)
      else if depth = 0 ∧ token.isPunctuator "," then pos
      else elementEnd depth (pos + 1)
termination_by tokens.length - pos
decreasing_by all_goals grind

/-- The end of a bracket and of all up to the one that closes it. -/
def balancedEnd (depth pos : Nat) : Nat :=
  match _inside : tokens[pos]? with
  | none => pos
  | some token =>
      if token.isOpener then balancedEnd (depth + 1) (pos + 1)
      else if token.isCloser then
        if depth - 1 = 0 then pos + 1 else balancedEnd (depth - 1) (pos + 1)
      else balancedEnd depth (pos + 1)
termination_by tokens.length - pos
decreasing_by all_goals grind

theorem le_elementEnd (depth pos : Nat) : pos ≤ elementEnd tokens depth pos := by
  fun_induction elementEnd tokens depth pos <;> omega

theorem le_balancedEnd (depth pos : Nat) : pos ≤ balancedEnd tokens depth pos := by
  fun_induction balancedEnd tokens depth pos <;> omega

namespace Advance

variable {pos : Nat}

def stay (pos : Nat) : Advance pos :=
  ⟨[], pos, Nat.le_refl _⟩

def skipDefault (advance : Advance pos) : Advance pos :=
  if punctuatorAt tokens "=" advance.stop then
    { advance with
      stop := elementEnd tokens 0 advance.stop
      pos_le := Nat.le_trans advance.pos_le (le_elementEnd tokens _ _) }
  else advance

/-- A way from a later position is one from an earlier. -/
def weaken {later : Nat} (h : pos ≤ later) (advance : Advance later) : Advance pos :=
  { advance with pos_le := Nat.le_trans h advance.pos_le }

def after (bound : List Token) (advance : Advance pos) : Advance pos :=
  { advance with bound := bound ++ advance.bound }

end Advance

/-- Where the next entry begins after one has been read from `pos` to `stop`. -/
def nextPosition (pos stop : Nat) : Nat :=
  if punctuatorAt tokens "," stop then stop + 1
  else if stop = pos then stop + 1
  else stop

theorem lt_nextPosition {pos stop : Nat} (h : pos ≤ stop) : pos < nextPosition tokens pos stop := by
  unfold nextPosition
  grind

mutual

/-- A name, an object pattern or an array pattern, with its default value. -/
def targetAt (pos : Nat) : Advance pos :=
  match _inside : tokens[pos]? with
  | none => .stay pos
  | some token =>
      if token.isIdentifier then
        Advance.skipDefault tokens ⟨[token], pos + 1, Nat.le_succ _⟩
      else if token.opensWith .curly then
        ((entriesAt (pos + 1)).weaken (Nat.le_succ _)).skipDefault tokens
      else if token.opensWith .square then
        ((elementsAt (pos + 1)).weaken (Nat.le_succ _)).skipDefault tokens
      else
        Advance.skipDefault tokens ⟨[], elementEnd tokens 0 pos, le_elementEnd tokens _ _⟩
termination_by (tokens.length - pos, 0)
decreasing_by all_goals grind

def entryAt (pos : Nat) : Advance pos :=
  match _inside : tokens[pos]? with
  | none => .stay pos
  | some token =>
      if token.isPunctuator "..." then (targetAt (pos + 1)).weaken (Nat.le_succ _)
      else if token.opensWith .square then
        let stop := balancedEnd tokens 0 pos
        have hstop : pos ≤ stop := le_balancedEnd tokens 0 pos
        if punctuatorAt tokens ":" stop then
          (targetAt (stop + 1)).weaken (Nat.le_succ_of_le hstop)
        else ⟨[], stop, hstop⟩
      else if punctuatorAt tokens ":" (pos + 1) then
        (targetAt (pos + 2)).weaken (Nat.le_add_right _ _)
      else targetAt pos
termination_by (tokens.length - pos, 1)
decreasing_by all_goals grind

def elementAt (pos : Nat) : Advance pos :=
  if punctuatorAt tokens "..." pos then (targetAt (pos + 1)).weaken (Nat.le_succ _)
  else targetAt pos
termination_by (tokens.length - pos, 1)
decreasing_by all_goals grind

/-- The entries of an object pattern up to and including its closing bracket. -/
def entriesAt (pos : Nat) : Advance pos :=
  match _inside : tokens[pos]? with
  | none => .stay pos
  | some token =>
      if token.closesWith .curly then ⟨[], pos + 1, Nat.le_succ _⟩
      else
        let entry := entryAt pos
        have hnext := lt_nextPosition tokens entry.pos_le
        ((entriesAt (nextPosition tokens pos entry.stop)).weaken (Nat.le_of_lt hnext)).after
          entry.bound
termination_by (tokens.length - pos, 2)
decreasing_by all_goals grind

/-- The elements of an array pattern up to and including its closing bracket. -/
def elementsAt (pos : Nat) : Advance pos :=
  match _inside : tokens[pos]? with
  | none => .stay pos
  | some token =>
      if token.closesWith .square then ⟨[], pos + 1, Nat.le_succ _⟩
      else if token.isPunctuator "," then (elementsAt (pos + 1)).weaken (Nat.le_succ _)
      else
        let element := elementAt pos
        have hnext := lt_nextPosition tokens element.pos_le
        ((elementsAt (nextPosition tokens pos element.stop)).weaken (Nat.le_of_lt hnext)).after
          element.bound
termination_by (tokens.length - pos, 2)
decreasing_by all_goals grind

end

end Definitions

variable {tokens : List Token} {pos : Nat}

theorem drop_of_some {token : Token} (found : tokens[pos]? = some token) :
    tokens.drop pos = token :: tokens.drop (pos + 1) := by
  obtain ⟨inside, rfl⟩ := List.getElem?_eq_some_iff.1 found
  exact List.drop_eq_getElem_cons inside

theorem drop_of_none (atEnd : tokens[pos]? = none) : tokens.drop pos = [] :=
  List.drop_eq_nil_of_le (List.getElem?_eq_none_iff.1 atEnd)

theorem punctuatorAt_eq (text : String) :
    punctuatorAt tokens text pos = nextIs text (tokens.drop pos) := by
  rw [punctuatorAt, nextIs, List.head?_drop]

theorem drop_elementEnd (depth : Nat) :
    tokens.drop (elementEnd tokens depth pos) = skipElement depth (tokens.drop pos) := by
  fun_induction elementEnd tokens depth pos with
  | case1 depth pos atEnd => rw [drop_of_none atEnd, skipElement]
  | case2 depth pos token found opens ih =>
      rw [ih, drop_of_some found, skipElement, if_pos opens]
  | case3 pos token found inside closes =>
      rw [drop_of_some found, skipElement, if_neg inside, if_pos closes, if_pos rfl]
  | case4 depth pos token found inside closes deeper ih =>
      rw [ih, drop_of_some found, skipElement, if_neg inside, if_pos closes, if_neg deeper]
  | case5 depth pos token found inside noCloser comma =>
      rw [drop_of_some found, skipElement, if_neg inside, if_neg noCloser, if_pos comma]
  | case6 depth pos token found inside noCloser noComma ih =>
      rw [ih, drop_of_some found, skipElement, if_neg inside, if_neg noCloser, if_neg noComma]

theorem drop_balancedEnd (depth : Nat) :
    tokens.drop (balancedEnd tokens depth pos) = skipBalanced depth (tokens.drop pos) := by
  fun_induction balancedEnd tokens depth pos with
  | case1 depth pos atEnd => rw [drop_of_none atEnd, skipBalanced]
  | case2 depth pos token found opens ih =>
      rw [ih, drop_of_some found, skipBalanced, if_pos opens]
  | case3 depth pos token found inside closes outermost =>
      rw [drop_of_some found, skipBalanced, if_neg inside, if_pos closes, if_pos outermost]
  | case4 depth pos token found inside closes deeper ih =>
      rw [ih, drop_of_some found, skipBalanced, if_neg inside, if_pos closes, if_neg deeper]
  | case5 depth pos token found inside noCloser ih =>
      rw [ih, drop_of_some found, skipBalanced, if_neg inside, if_neg noCloser]

theorem elementEnd_le (depth : Nat) (inside : pos ≤ tokens.length) :
    elementEnd tokens depth pos ≤ tokens.length := by
  fun_induction elementEnd tokens depth pos <;> grind

theorem balancedEnd_le (depth : Nat) (inside : pos ≤ tokens.length) :
    balancedEnd tokens depth pos ≤ tokens.length := by
  fun_induction balancedEnd tokens depth pos <;> grind

/-- A way by position reads what is read from the tokens that are ahead. -/
structure Agrees (tokens : List Token) {pos : Nat} (advance : Advance pos) {ahead : List Token}
    (reading : Reading ahead) : Prop where
  bound_eq : advance.bound = reading.bound
  rest_eq : tokens.drop advance.stop = reading.rest
  stop_le : advance.stop ≤ tokens.length

namespace Agrees

variable {advance : Advance pos} {ahead : List Token} {reading : Reading ahead}

theorem skipDefault (agrees : Agrees tokens advance reading) :
    Agrees tokens (advance.skipDefault tokens) reading.skipDefault := by
  unfold Advance.skipDefault Reading.skipDefault
  rw [punctuatorAt_eq, agrees.rest_eq]
  split
  · exact ⟨agrees.bound_eq, by rw [drop_elementEnd, agrees.rest_eq],
      elementEnd_le 0 agrees.stop_le⟩
  · exact agrees

theorem weaken (agrees : Agrees tokens advance reading) {earlier : Nat} (h : earlier ≤ pos)
    {more : List Token} (h' : ahead.length ≤ more.length) :
    Agrees tokens (advance.weaken h) (reading.weaken h') :=
  ⟨agrees.bound_eq, agrees.rest_eq, agrees.stop_le⟩

theorem after (agrees : Agrees tokens advance reading) (bound : List Token) :
    Agrees tokens (advance.after bound) (reading.after bound) :=
  ⟨congrArg (bound ++ ·) agrees.bound_eq, agrees.rest_eq, agrees.stop_le⟩

end Agrees

theorem lt_length_of_some {token : Token} (found : tokens[pos]? = some token) :
    pos < tokens.length :=
  (List.getElem?_eq_some_iff.1 found).1

theorem drop_nextPosition {token : Token} {stop : Nat} (found : tokens[pos]? = some token)
    (stop_le : stop ≤ tokens.length) :
    tokens.drop (nextPosition tokens pos stop) =
        nextEntry token (tokens.drop (pos + 1)) (tokens.drop stop) ∧
      nextPosition tokens pos stop ≤ tokens.length := by
  have next := lt_length_of_some found
  have same : (tokens.drop stop).length = (token :: tokens.drop (pos + 1)).length ↔
      stop = pos := by
    rw [← drop_of_some found, List.length_drop, List.length_drop]
    omega
  unfold nextPosition nextEntry
  simp only [same]
  rw [punctuatorAt_eq]
  split
  · rename_i comma
    have before : stop < tokens.length := Nat.lt_of_not_le fun atEnd => by
      rw [List.drop_eq_nil_of_le atEnd] at comma
      cases comma
    exact ⟨List.tail_drop.symm, before⟩
  · split
    · rename_i stays
      rw [stays]
      exact ⟨rfl, next⟩
    · exact ⟨rfl, stop_le⟩

section

variable (inside : pos ≤ tokens.length)

include inside

theorem agrees_targetAt
    (entries : ∀ later, pos < later → later ≤ tokens.length →
      Agrees tokens (entriesAt tokens later) (readEntries (tokens.drop later)))
    (elements : ∀ later, pos < later → later ≤ tokens.length →
      Agrees tokens (elementsAt tokens later) (readElements (tokens.drop later))) :
    Agrees tokens (targetAt tokens pos) (readTarget (tokens.drop pos)) := by
  rw [targetAt]
  split
  · rename_i atEnd
    rw [drop_of_none atEnd, readTarget]
    exact ⟨rfl, drop_of_none atEnd, inside⟩
  · rename_i token found
    have next := lt_length_of_some found
    rw [drop_of_some found, readTarget]
    by_cases isName : token.isIdentifier = true
    · rw [if_pos isName, if_pos isName]
      exact Agrees.skipDefault ⟨rfl, rfl, next⟩
    rw [if_neg isName, if_neg isName]
    by_cases object : token.opensWith .curly = true
    · rw [if_pos object, if_pos object]
      exact ((entries _ (Nat.lt_succ_self _) next).weaken _ _).skipDefault
    rw [if_neg object, if_neg object]
    by_cases array : token.opensWith .square = true
    · rw [if_pos array, if_pos array]
      exact ((elements _ (Nat.lt_succ_self _) next).weaken _ _).skipDefault
    rw [if_neg array, if_neg array]
    refine Agrees.skipDefault ⟨rfl, ?_, elementEnd_le 0 inside⟩
    rw [drop_elementEnd, drop_of_some found]

theorem agrees_entryAt
    (target : ∀ later, pos ≤ later → later ≤ tokens.length →
      Agrees tokens (targetAt tokens later) (readTarget (tokens.drop later))) :
    Agrees tokens (entryAt tokens pos) (readEntry (tokens.drop pos)) := by
  rw [entryAt]
  split
  · rename_i atEnd
    rw [drop_of_none atEnd, readEntry]
    exact ⟨rfl, drop_of_none atEnd, inside⟩
  · rename_i token found
    have next := lt_length_of_some found
    rw [drop_of_some found, readEntry.eq_def]
    dsimp only
    by_cases spreads : token.isPunctuator "..." = true
    · rw [if_pos spreads, if_pos spreads]
      exact (target _ (Nat.le_succ _) next).weaken _ _
    rw [if_neg spreads, if_neg spreads]
    by_cases computed : token.opensWith .square = true
    · rw [if_pos computed, if_pos computed]
      have key : tokens.drop (balancedEnd tokens 0 pos) = skipBalanced 0 (tokens.drop pos) :=
        drop_balancedEnd 0
      have stop_le : balancedEnd tokens 0 pos ≤ tokens.length := balancedEnd_le 0 inside
      have pos_le := le_balancedEnd tokens 0 pos
      rw [drop_of_some found] at key
      cases ahead : tokens[balancedEnd tokens 0 pos]? with
      | none =>
          rw [drop_of_none ahead] at key
          have noColon : punctuatorAt tokens ":" (balancedEnd tokens 0 pos) = false := by
            rw [punctuatorAt, ahead]
            rfl
          rw [if_neg (by simp [noColon])]
          split
          · rename_i skips _
            cases key.trans skips
          · exact ⟨rfl, drop_of_none ahead, stop_le⟩
      | some colon =>
          rw [drop_of_some ahead] at key
          have separates : punctuatorAt tokens ":" (balancedEnd tokens 0 pos) =
              colon.isPunctuator ":" := by
            rw [punctuatorAt, ahead]
            rfl
          rw [separates]
          cases separator : colon.isPunctuator ":" with
          | true =>
              rw [if_pos rfl]
              split
              · rename_i skips _
                obtain ⟨rfl, rfl⟩ := List.cons.inj (key.trans skips)
                rw [if_pos separator]
                exact (target _ (Nat.le_succ_of_le pos_le) (lt_length_of_some ahead)).weaken _ _
              · rename_i skips _
                cases key.trans skips
          | false =>
              rw [if_neg (by simp)]
              split
              · rename_i skips _
                obtain ⟨rfl, rfl⟩ := List.cons.inj (key.trans skips)
                rw [if_neg (by simp [separator])]
                exact ⟨rfl, drop_of_some ahead, stop_le⟩
              · rename_i skips _
                cases key.trans skips
    rw [if_neg computed, if_neg computed]
    cases ahead : tokens[pos + 1]? with
    | none =>
        have agrees := target pos (Nat.le_refl _) inside
        rw [drop_of_some found, drop_of_none ahead] at agrees
        rw [drop_of_none ahead, punctuatorAt, ahead]
        exact agrees
    | some colon =>
        have separates : punctuatorAt tokens ":" (pos + 1) = colon.isPunctuator ":" := by
          rw [punctuatorAt, ahead]
          rfl
        rw [drop_of_some ahead, separates]
        dsimp only
        split
        · exact (target _ (Nat.le_add_right _ _) (lt_length_of_some ahead)).weaken _ _
        · have agrees := target pos (Nat.le_refl _) inside
          rwa [drop_of_some found, drop_of_some ahead] at agrees

theorem agrees_elementAt
    (target : ∀ later, pos ≤ later → later ≤ tokens.length →
      Agrees tokens (targetAt tokens later) (readTarget (tokens.drop later))) :
    Agrees tokens (elementAt tokens pos) (readElement (tokens.drop pos)) := by
  have agrees := target pos (Nat.le_refl _) inside
  rw [elementAt]
  cases found : tokens[pos]? with
  | none =>
      rw [punctuatorAt, found, if_neg (by simp)]
      rw [drop_of_none found] at agrees ⊢
      rw [readElement]
      rwa [readTarget] at agrees
  | some token =>
      have next := lt_length_of_some found
      rw [punctuatorAt, found, Option.any_some]
      rw [drop_of_some found] at agrees ⊢
      rw [readElement]
      split
      · exact (target _ (Nat.le_succ _) next).weaken _ _
      · exact agrees

theorem agrees_entriesAt (entry : Agrees tokens (entryAt tokens pos) (readEntry (tokens.drop pos)))
    (entries : ∀ later, pos < later → later ≤ tokens.length →
      Agrees tokens (entriesAt tokens later) (readEntries (tokens.drop later))) :
    Agrees tokens (entriesAt tokens pos) (readEntries (tokens.drop pos)) := by
  rw [entriesAt]
  split
  · rename_i atEnd
    rw [drop_of_none atEnd, readEntries]
    exact ⟨rfl, drop_of_none atEnd, inside⟩
  · rename_i token found
    have next := lt_length_of_some found
    rw [drop_of_some found] at entry ⊢
    rw [readEntries]
    by_cases closes : token.closesWith .curly = true
    · rw [if_pos closes, if_pos closes]
      exact ⟨rfl, rfl, next⟩
    rw [if_neg closes, if_neg closes]
    split
    rename_i bound after shorter read
    rw [read] at entry
    obtain ⟨next_eq, next_le⟩ := drop_nextPosition found entry.stop_le
    have others := entries _ (lt_nextPosition tokens (entryAt tokens pos).pos_le) next_le
    rw [next_eq, entry.rest_eq] at others
    dsimp only
    rw [entry.bound_eq]
    exact (others.weaken _ _).after _

theorem agrees_elementsAt
    (element : Agrees tokens (elementAt tokens pos) (readElement (tokens.drop pos)))
    (elements : ∀ later, pos < later → later ≤ tokens.length →
      Agrees tokens (elementsAt tokens later) (readElements (tokens.drop later))) :
    Agrees tokens (elementsAt tokens pos) (readElements (tokens.drop pos)) := by
  rw [elementsAt]
  split
  · rename_i atEnd
    rw [drop_of_none atEnd, readElements]
    exact ⟨rfl, drop_of_none atEnd, inside⟩
  · rename_i token found
    have next := lt_length_of_some found
    rw [drop_of_some found] at element ⊢
    rw [readElements]
    by_cases closes : token.closesWith .square = true
    · rw [if_pos closes, if_pos closes]
      exact ⟨rfl, rfl, next⟩
    rw [if_neg closes, if_neg closes]
    by_cases comma : token.isPunctuator "," = true
    · rw [if_pos comma, if_pos comma]
      exact (elements _ (Nat.lt_succ_self _) next).weaken _ _
    rw [if_neg comma, if_neg comma]
    split
    rename_i bound after shorter read
    rw [read] at element
    obtain ⟨next_eq, next_le⟩ := drop_nextPosition found element.stop_le
    have others := elements _ (lt_nextPosition tokens (elementAt tokens pos).pos_le) next_le
    rw [next_eq, element.rest_eq] at others
    dsimp only
    rw [element.bound_eq]
    exact (others.weaken _ _).after _

end

def Routine.readAt (routine : Routine) (tokens : List Token) (pos : Nat) : Advance pos :=
  match routine with
  | target => targetAt tokens pos
  | entry => entryAt tokens pos
  | element => elementAt tokens pos
  | entries => entriesAt tokens pos
  | elements => elementsAt tokens pos

/-- From every position a routine reads what it reads from the tokens that are ahead. -/
theorem agrees_readAt (routine : Routine) {tokens : List Token} {pos : Nat}
    (inside : pos ≤ tokens.length) :
    Agrees tokens (routine.readAt tokens pos) (routine.read (tokens.drop pos)) := by
  induction left : tokens.length - pos using Nat.strongRecOn generalizing routine pos with
  | ind n fewer =>
      subst left
      have target : ∀ later, pos ≤ later → later ≤ tokens.length →
          Agrees tokens (targetAt tokens later) (readTarget (tokens.drop later)) :=
        fun later pos_le inside =>
          agrees_targetAt inside
            (fun _ less within => fewer _ (by omega) .entries within rfl)
            (fun _ less within => fewer _ (by omega) .elements within rfl)
      cases routine with
      | target => exact target pos (Nat.le_refl _) inside
      | entry => exact agrees_entryAt inside target
      | element => exact agrees_elementAt inside target
      | entries =>
          exact agrees_entriesAt inside (agrees_entryAt inside target)
            fun _ less within => fewer _ (by omega) .entries within rfl
      | elements =>
          exact agrees_elementsAt inside (agrees_elementAt inside target)
            fun _ less within => fewer _ (by omega) .elements within rfl

/-- Read by position, a pattern binds the same tokens, and the reader stops at the same one. -/
theorem targetAt_zero (tokens : List Token) :
    (targetAt tokens 0).bound = boundTokens tokens ∧
      tokens.drop (targetAt tokens 0).stop = (readTarget tokens).rest ∧
      (targetAt tokens 0).stop ≤ tokens.length :=
  have agrees := agrees_readAt .target (Nat.zero_le tokens.length)
  ⟨agrees.bound_eq, agrees.rest_eq, agrees.stop_le⟩

end ScriptConsole.Pattern
