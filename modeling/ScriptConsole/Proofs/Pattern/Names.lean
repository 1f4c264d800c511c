import ScriptConsole.Pattern

/-!
# The names of a pattern

Five routines read a pattern, and each may call others.  Here their calls are written down in
order of time, with the tokens that are ahead.  Whatever the tokens are, there is one such
course: it is finite and never goes back, only identifiers are bound on it, and none twice.
-/

namespace ScriptConsole.Pattern

inductive Routine where
  | target
  | entry
  | element
  | entries
  | elements
  deriving DecidableEq, Repr

/-- What is ahead once a default value is stepped over. -/
def afterDefault (ahead : List Token) : List Token :=
  if nextIs "=" ahead then skipElement 0 ahead else ahead

/-- A routine comes upon `tokens`, binds some of them and leaves `rest`.  The trail is what
was ahead as a routine was called or returned, this one first and last. -/
inductive Runs : Routine → (tokens bound rest : List Token) → (trail : List (List Token)) →
    Prop where
  | atEnd (routine : Routine) : Runs routine [] [] [] [[], []]
  | name {token : Token} {ahead : List Token} (isName : token.isIdentifier = true) :
      Runs .target (token :: ahead) [token] (afterDefault ahead)
        [token :: ahead, afterDefault ahead]
  | object {token : Token} {ahead bound after : List Token} {trail : List (List Token)}
      (noName : token.isIdentifier = false) (opens : token.opensWith .curly = true)
      (entries : Runs .entries ahead bound after trail) :
      Runs .target (token :: ahead) bound (afterDefault after)
        ((token :: ahead) :: (trail ++ [afterDefault after]))
  | array {token : Token} {ahead bound after : List Token} {trail : List (List Token)}
      (noName : token.isIdentifier = false) (noObject : token.opensWith .curly = false)
      (opens : token.opensWith .square = true)
      (elements : Runs .elements ahead bound after trail) :
      Runs .target (token :: ahead) bound (afterDefault after)
        ((token :: ahead) :: (trail ++ [afterDefault after]))
  | noTarget {token : Token} {ahead : List Token} (noName : token.isIdentifier = false)
      (noObject : token.opensWith .curly = false) (noArray : token.opensWith .square = false) :
      Runs .target (token :: ahead) [] (afterDefault (skipElement 0 (token :: ahead)))
        [token :: ahead, afterDefault (skipElement 0 (token :: ahead))]
  | restEntry {token : Token} {ahead bound after : List Token} {trail : List (List Token)}
      (spreads : token.isPunctuator "..." = true) (target : Runs .target ahead bound after trail) :
      Runs .entry (token :: ahead) bound after ((token :: ahead) :: (trail ++ [after]))
  | computed {token colon : Token} {ahead value bound after : List Token}
      {trail : List (List Token)} (noSpread : token.isPunctuator "..." = false)
      (opens : token.opensWith .square = true)
      (skips : skipBalanced 0 (token :: ahead) = colon :: value)
      (separates : colon.isPunctuator ":" = true) (target : Runs .target value bound after trail) :
      Runs .entry (token :: ahead) bound after ((token :: ahead) :: (trail ++ [after]))
  | computedAlone {token : Token} {ahead : List Token}
      (noSpread : token.isPunctuator "..." = false) (opens : token.opensWith .square = true)
      (noColon : nextIs ":" (skipBalanced 0 (token :: ahead)) = false) :
      Runs .entry (token :: ahead) [] (skipBalanced 0 (token :: ahead))
        [token :: ahead, skipBalanced 0 (token :: ahead)]
  | keyed {token colon : Token} {value bound after : List Token} {trail : List (List Token)}
      (noSpread : token.isPunctuator "..." = false) (plain : token.opensWith .square = false)
      (separates : colon.isPunctuator ":" = true) (target : Runs .target value bound after trail) :
      Runs .entry (token :: colon :: value) bound after
        ((token :: colon :: value) :: (trail ++ [after]))
  | shorthand {token : Token} {ahead bound after : List Token} {trail : List (List Token)}
      (noSpread : token.isPunctuator "..." = false) (plain : token.opensWith .square = false)
      (noColon : nextIs ":" ahead = false)
      (target : Runs .target (token :: ahead) bound after trail) :
      Runs .entry (token :: ahead) bound after ((token :: ahead) :: (trail ++ [after]))
  | restElement {token : Token} {ahead bound after : List Token} {trail : List (List Token)}
      (spreads : token.isPunctuator "..." = true) (target : Runs .target ahead bound after trail) :
      Runs .element (token :: ahead) bound after ((token :: ahead) :: (trail ++ [after]))
  | plainElement {token : Token} {ahead bound after : List Token} {trail : List (List Token)}
      (noSpread : token.isPunctuator "..." = false)
      (target : Runs .target (token :: ahead) bound after trail) :
      Runs .element (token :: ahead) bound after ((token :: ahead) :: (trail ++ [after]))
  | lastEntry {token : Token} {ahead : List Token} (closes : token.closesWith .curly = true) :
      Runs .entries (token :: ahead) [] ahead [token :: ahead, ahead]
  | nextEntry {token : Token} {ahead bound after more rest : List Token}
      {trail others : List (List Token)} (inside : token.closesWith .curly = false)
      (first : Runs .entry (token :: ahead) bound after trail)
      (entries : Runs .entries (nextEntry token ahead after) more rest others) :
      Runs .entries (token :: ahead) (bound ++ more) rest
        ((token :: ahead) :: (trail ++ others ++ [rest]))
  | lastElement {token : Token} {ahead : List Token} (closes : token.closesWith .square = true) :
      Runs .elements (token :: ahead) [] ahead [token :: ahead, ahead]
  | hole {token : Token} {ahead bound after : List Token} {trail : List (List Token)}
      (inside : token.closesWith .square = false) (comma : token.isPunctuator "," = true)
      (elements : Runs .elements ahead bound after trail) :
      Runs .elements (token :: ahead) bound after ((token :: ahead) :: (trail ++ [after]))
  | nextElement {token : Token} {ahead bound after more rest : List Token}
      {trail others : List (List Token)} (inside : token.closesWith .square = false)
      (noComma : token.isPunctuator "," = false)
      (first : Runs .element (token :: ahead) bound after trail)
      (elements : Runs .elements (nextEntry token ahead after) more rest others) :
      Runs .elements (token :: ahead) (bound ++ more) rest
        ((token :: ahead) :: (trail ++ others ++ [rest]))

namespace Reading

@[simp] theorem bound_skipDefault {tokens : List Token} (reading : Reading tokens) :
    reading.skipDefault.bound = reading.bound := by
  unfold skipDefault
  split <;> rfl

@[simp] theorem rest_skipDefault {tokens : List Token} (reading : Reading tokens) :
    reading.skipDefault.rest = afterDefault reading.rest := by
  unfold skipDefault afterDefault
  split <;> rfl

/-- A reading is what a run of a routine comes to. -/
def IsRun (routine : Routine) {tokens : List Token} (reading : Reading tokens) : Prop :=
  ∃ trail, Runs routine tokens reading.bound reading.rest trail

end Reading

section

variable {tokens : List Token}

theorem isRun_readTarget
    (entries : ∀ rest, rest.length < tokens.length → (readEntries rest).IsRun .entries)
    (elements : ∀ rest, rest.length < tokens.length → (readElements rest).IsRun .elements) :
    (readTarget tokens).IsRun .target := by
  cases tokens with
  | nil =>
      rw [readTarget]
      exact ⟨_, .atEnd .target⟩
  | cons token rest =>
      rw [readTarget]
      split
      · rename_i isName
        rw [Reading.IsRun, Reading.bound_skipDefault, Reading.rest_skipDefault]
        exact ⟨_, .name isName⟩
      · rename_i noName
        split
        · rename_i opens
          obtain ⟨trail, run⟩ := entries rest (Nat.lt_succ_self _)
          rw [Reading.IsRun, Reading.bound_skipDefault, Reading.rest_skipDefault]
          exact ⟨_, .object (by simpa using noName) opens run⟩
        · rename_i noObject
          split
          · rename_i opens
            obtain ⟨trail, run⟩ := elements rest (Nat.lt_succ_self _)
            rw [Reading.IsRun, Reading.bound_skipDefault, Reading.rest_skipDefault]
            exact ⟨_, .array (by simpa using noName) (by simpa using noObject) opens run⟩
          · rename_i noArray
            rw [Reading.IsRun, Reading.bound_skipDefault, Reading.rest_skipDefault]
            exact ⟨_, .noTarget (by simpa using noName) (by simpa using noObject)
              (by simpa using noArray)⟩

theorem isRun_readEntry
    (target : ∀ inner, inner.length ≤ tokens.length → (readTarget inner).IsRun .target) :
    (readEntry tokens).IsRun .entry := by
  cases tokens with
  | nil =>
      rw [readEntry]
      exact ⟨_, .atEnd .entry⟩
  | cons token rest =>
      rw [readEntry.eq_def]
      dsimp only
      split
      · rename_i spreads
        obtain ⟨trail, run⟩ := target rest (Nat.le_succ _)
        exact ⟨_, .restEntry spreads run⟩
      · rename_i noSpread
        have noSpread : token.isPunctuator "..." = false := by simpa using noSpread
        split
        · rename_i opens
          split
          · rename_i colon value shorter skips _
            split
            · rename_i separates
              obtain ⟨trail, run⟩ := target value (Nat.le_of_succ_le shorter)
              exact ⟨_, .computed noSpread opens skips separates run⟩
            · rename_i noColon
              have run := Runs.computedAlone noSpread opens
                (by rw [skips]; simpa [nextIs] using noColon)
              rw [skips] at run
              exact ⟨_, run⟩
          · rename_i skips _
            have run := Runs.computedAlone noSpread opens (by rw [skips]; rfl)
            rw [skips] at run
            exact ⟨_, run⟩
        · rename_i plain
          have plain : token.opensWith .square = false := by simpa using plain
          split
          · rename_i colon value
            split
            · rename_i separates
              obtain ⟨trail, run⟩ := target value (by simp only [List.length_cons]; omega)
              exact ⟨_, .keyed noSpread plain separates run⟩
            · rename_i noColon
              obtain ⟨trail, run⟩ := target _ (Nat.le_refl _)
              exact ⟨_, .shorthand noSpread plain (by simpa [nextIs] using noColon) run⟩
          · obtain ⟨trail, run⟩ := target _ (Nat.le_refl _)
            exact ⟨_, .shorthand noSpread plain rfl run⟩

theorem isRun_readElement
    (target : ∀ inner, inner.length ≤ tokens.length → (readTarget inner).IsRun .target) :
    (readElement tokens).IsRun .element := by
  cases tokens with
  | nil =>
      rw [readElement]
      exact ⟨_, .atEnd .element⟩
  | cons token rest =>
      rw [readElement]
      split
      · rename_i spreads
        obtain ⟨trail, run⟩ := target rest (Nat.le_succ _)
        exact ⟨_, .restElement spreads run⟩
      · rename_i noSpread
        obtain ⟨trail, run⟩ := target _ (Nat.le_refl _)
        exact ⟨_, .plainElement (by simpa using noSpread) run⟩

theorem isRun_readEntries (entry : (readEntry tokens).IsRun .entry)
    (entries : ∀ rest, rest.length < tokens.length → (readEntries rest).IsRun .entries) :
    (readEntries tokens).IsRun .entries := by
  cases tokens with
  | nil =>
      rw [readEntries]
      exact ⟨_, .atEnd .entries⟩
  | cons token rest =>
      obtain ⟨trail, first⟩ := entry
      rw [readEntries]
      split
      · rename_i closes
        exact ⟨_, .lastEntry closes⟩
      · rename_i inside
        split
        rename_i bound after shorter read
        obtain ⟨others, run⟩ := entries _ (Nat.lt_succ_of_le (nextEntry_length_le shorter))
        rw [read] at first
        exact ⟨_, .nextEntry (by simpa using inside) first run⟩

theorem isRun_readElements (element : (readElement tokens).IsRun .element)
    (elements : ∀ rest, rest.length < tokens.length → (readElements rest).IsRun .elements) :
    (readElements tokens).IsRun .elements := by
  cases tokens with
  | nil =>
      rw [readElements]
      exact ⟨_, .atEnd .elements⟩
  | cons token rest =>
      obtain ⟨trail, first⟩ := element
      rw [readElements]
      split
      · rename_i closes
        exact ⟨_, .lastElement closes⟩
      · rename_i inside
        split
        · rename_i comma
          obtain ⟨others, run⟩ := elements rest (Nat.lt_succ_self _)
          exact ⟨_, .hole (by simpa using inside) comma run⟩
        · rename_i noComma
          split
          rename_i bound after shorter read
          obtain ⟨others, run⟩ := elements _ (Nat.lt_succ_of_le (nextEntry_length_le shorter))
          rw [read] at first
          exact ⟨_, .nextElement (by simpa using inside) (by simpa using noComma) first run⟩

end

def Routine.read (routine : Routine) (tokens : List Token) : Reading tokens :=
  match routine with
  | target => readTarget tokens
  | entry => readEntry tokens
  | element => readElement tokens
  | entries => readEntries tokens
  | elements => readElements tokens

/-- Every reading comes of a run; by induction on the number of tokens, and at each number
on the order in which the routines call each other. -/
theorem isRun_read (routine : Routine) (tokens : List Token) :
    (routine.read tokens).IsRun routine := by
  induction length : tokens.length using Nat.strongRecOn generalizing routine tokens with
  | ind n fewer =>
      subst length
      have target : ∀ inner : List Token, inner.length ≤ tokens.length →
          (readTarget inner).IsRun .target := fun inner shorter =>
        isRun_readTarget
          (fun rest less => fewer _ (Nat.lt_of_lt_of_le less shorter) .entries rest rfl)
          (fun rest less => fewer _ (Nat.lt_of_lt_of_le less shorter) .elements rest rfl)
      cases routine with
      | target => exact target tokens (Nat.le_refl _)
      | entry => exact isRun_readEntry target
      | element => exact isRun_readElement target
      | entries =>
          exact isRun_readEntries (isRun_readEntry target)
            fun rest less => fewer _ less .entries rest rfl
      | elements =>
          exact isRun_readElements (isRun_readElement target)
            fun rest less => fewer _ less .elements rest rfl

/-- A routine runs in one way only. -/
theorem Runs.unique {routine : Routine} {tokens bound rest bound' rest' : List Token}
    {trail trail' : List (List Token)} (run : Runs routine tokens bound rest trail)
    (other : Runs routine tokens bound' rest' trail') :
    bound' = bound ∧ rest' = rest ∧ trail' = trail := by
  induction run generalizing bound' rest' trail' with
  | atEnd | name | noTarget | computedAlone | lastEntry | lastElement =>
      cases other <;> simp_all [nextIs]
  | object _ _ _ ih | array _ _ _ _ ih | restEntry _ _ ih | restElement _ _ ih
  | plainElement _ _ ih | hole _ _ _ ih | computed _ _ _ _ _ ih | keyed _ _ _ _ ih
  | shorthand _ _ _ _ ih =>
      cases other <;> grind [nextIs]
  | nextEntry _ _ _ ihFirst ihOthers | nextElement _ _ _ _ ihFirst ihOthers =>
      cases other <;> grind

/-! ## Never back -/

/-- On the way from `tokens` to `rest` some identifiers are bound, each as it is passed. -/
def Passes (tokens bound rest : List Token) : Prop :=
  ∃ passed, passed ++ rest = tokens ∧ bound.Sublist passed ∧
    ∀ token ∈ bound, token.isIdentifier = true

/-- What is ahead on the way from `tokens` to `rest`, each time the end of what was ahead
before. -/
def Descends : (tokens : List Token) → (trail : List (List Token)) → (rest : List Token) → Prop
  | tokens, [], rest => rest <:+ tokens
  | tokens, ahead :: trail, rest => ahead <:+ tokens ∧ Descends ahead trail rest

namespace Passes

variable {tokens bound more middle rest : List Token}

theorem of_suffix (ends : rest <:+ tokens) : Passes tokens [] rest := by
  obtain ⟨passed, whole⟩ := ends
  exact ⟨passed, whole, List.nil_sublist _, List.forall_mem_nil _⟩

theorem name {token : Token} (isName : token.isIdentifier = true) (ahead : List Token) :
    Passes (token :: ahead) [token] ahead :=
  ⟨[token], rfl, .refl _, by simpa using isName⟩

theorem trans (first : Passes tokens bound middle) (second : Passes middle more rest) :
    Passes tokens (bound ++ more) rest := by
  obtain ⟨passed, rfl, inFirst, names⟩ := first
  obtain ⟨further, rfl, inSecond, others⟩ := second
  refine ⟨passed ++ further, by simp, inFirst.append inSecond, fun token mem => ?_⟩
  exact (List.mem_append.1 mem).elim (names token) (others token)

theorem before (begins : middle <:+ tokens) (passes : Passes middle bound rest) :
    Passes tokens bound rest :=
  (of_suffix begins).trans passes

theorem after (passes : Passes tokens bound middle) (ends : rest <:+ middle) :
    Passes tokens bound rest := by
  simpa using passes.trans (of_suffix ends)

end Passes

namespace Descends

variable {tokens middle rest : List Token} {trail others : List (List Token)}

theorem before (begins : middle <:+ tokens) (descends : Descends middle trail rest) :
    Descends tokens trail rest := by
  cases trail with
  | nil => exact List.IsSuffix.trans descends begins
  | cons ahead trail => exact ⟨descends.1.trans begins, descends.2⟩

theorem append (first : Descends tokens trail middle) (second : Descends middle others rest) :
    Descends tokens (trail ++ others) rest := by
  induction trail generalizing tokens with
  | nil => exact second.before first
  | cons ahead trail ih => exact ⟨first.1, ih first.2⟩

theorem suffix (descends : Descends tokens trail rest) : rest <:+ tokens := by
  induction trail generalizing tokens with
  | nil => exact descends
  | cons ahead trail ih => exact (ih descends.2).trans descends.1

theorem suffix_of_mem (descends : Descends tokens trail rest) :
    ∀ ahead ∈ trail, ahead <:+ tokens := by
  induction trail generalizing tokens with
  | nil => exact List.forall_mem_nil _
  | cons first trail ih =>
      rw [List.forall_mem_cons]
      exact ⟨descends.1, fun ahead mem => (ih descends.2 ahead mem).trans descends.1⟩

theorem pairwise (descends : Descends tokens trail rest) :
    trail.Pairwise fun earlier later => later <:+ earlier := by
  induction trail generalizing tokens with
  | nil => exact .nil
  | cons ahead trail ih =>
      exact List.pairwise_cons.2 ⟨descends.2.suffix_of_mem, ih descends.2⟩

end Descends

/-- A way forward, with all that was ahead on it. -/
structure Forward (tokens bound rest : List Token) (trail : List (List Token)) : Prop where
  passes : Passes tokens bound rest
  descends : Descends tokens trail rest

namespace Forward

variable {tokens inner bound middle next more rest : List Token}
  {trail others : List (List Token)}

theorem alone (passes : Passes tokens bound rest) : Forward tokens bound rest [tokens, rest] := by
  have ends : rest <:+ tokens := by
    obtain ⟨passed, whole, -⟩ := passes
    exact ⟨passed, whole⟩
  exact ⟨passes, List.suffix_refl _, ends, List.suffix_refl _⟩

/-- A call that makes another, before and after which it may step over tokens. -/
theorem around (begins : inner <:+ tokens) (forward : Forward inner bound middle trail)
    (ends : rest <:+ middle) : Forward tokens bound rest (tokens :: (trail ++ [rest])) where
  passes := (forward.passes.before begins).after ends
  descends :=
    ⟨List.suffix_refl _,
      (forward.descends.before begins).append ⟨ends, List.suffix_refl _⟩⟩

/-- A call that makes two others, between which it may step over tokens. -/
theorem both (first : Forward tokens bound middle trail) (between : next <:+ middle)
    (second : Forward next more rest others) :
    Forward tokens (bound ++ more) rest (tokens :: (trail ++ others ++ [rest])) where
  passes := first.passes.trans (second.passes.before between)
  descends :=
    ⟨List.suffix_refl _,
      (first.descends.append (second.descends.before between)).append
        ⟨List.suffix_refl _, List.suffix_refl _⟩⟩

end Forward

theorem afterDefault_suffix (ahead : List Token) : afterDefault ahead <:+ ahead := by
  unfold afterDefault
  split
  · exact skipElement_suffix _ _
  · exact List.suffix_refl _

theorem nextEntry_suffix {token : Token} {rest after : List Token}
    (ends : after <:+ token :: rest) : nextEntry token rest after <:+ rest := by
  unfold nextEntry
  rcases List.suffix_cons_iff.1 ends with rfl | inside
  · split
    · exact List.suffix_refl _
    · exact if_pos rfl ▸ List.suffix_refl _
  · split
    · exact (List.tail_suffix _).trans inside
    · split
      · exact List.suffix_refl _
      · exact inside

theorem nextEntry_suffix_after {token : Token} {rest after : List Token}
    (ends : after <:+ token :: rest) : nextEntry token rest after <:+ after := by
  unfold nextEntry
  split
  · exact List.tail_suffix _
  · split
    · rename_i same
      rw [ends.eq_of_length same]
      exact List.suffix_cons _ _
    · exact List.suffix_refl _

variable {routine : Routine} {tokens bound rest : List Token} {trail : List (List Token)}

/-- A run goes forward; by induction on its calls. -/
theorem Runs.forward (run : Runs routine tokens bound rest trail) :
    Forward tokens bound rest trail := by
  induction run with
  | atEnd => exact .alone (.of_suffix (List.suffix_refl _))
  | name isName => exact .alone ((Passes.name isName _).after (afterDefault_suffix _))
  | object _ _ _ ih => exact .around (List.suffix_cons _ _) ih (afterDefault_suffix _)
  | array _ _ _ _ ih => exact .around (List.suffix_cons _ _) ih (afterDefault_suffix _)
  | noTarget =>
      exact .alone (.of_suffix ((afterDefault_suffix _).trans (skipElement_suffix _ _)))
  | restEntry _ _ ih | restElement _ _ ih | hole _ _ _ ih =>
      exact .around (List.suffix_cons _ _) ih (List.suffix_refl _)
  | @computed token colon ahead value _ _ _ _ _ skips _ _ ih =>
      have ends : colon :: value <:+ token :: ahead := skips ▸ skipBalanced_suffix 0 _
      exact .around ((List.suffix_cons _ _).trans ends) ih (List.suffix_refl _)
  | computedAlone => exact .alone (.of_suffix (skipBalanced_suffix _ _))
  | keyed _ _ _ _ ih =>
      exact .around ((List.suffix_cons _ _).trans (List.suffix_cons _ _)) ih (List.suffix_refl _)
  | shorthand _ _ _ _ ih | plainElement _ _ ih =>
      exact .around (List.suffix_refl _) ih (List.suffix_refl _)
  | lastEntry | lastElement => exact .alone (.of_suffix (List.suffix_cons _ _))
  | nextEntry _ _ _ ihFirst ihOthers | nextElement _ _ _ _ ihFirst ihOthers =>
      exact .both ihFirst (nextEntry_suffix_after ihFirst.descends.suffix) ihOthers

/-! ## A finite course -/

/-- How long the trail of a routine may be on the way from `tokens` to `rest`.  A list of
entries calls twice for an entry that is nothing, and then passes a token by itself. -/
def Routine.Affords (routine : Routine) (tokens rest : List Token) (length : Nat) : Prop :=
  match routine with
  | target => length ≤ 2 ∨ length + 4 + 8 * rest.length ≤ 8 * tokens.length
  | entry | element => length ≤ 4 ∨ length + 2 + 8 * rest.length ≤ 8 * tokens.length
  | entries | elements => length + 8 * rest.length ≤ 8 * tokens.length + 2

theorem Runs.affords (run : Runs routine tokens bound rest trail) :
    routine.Affords tokens rest trail.length := by
  have length_around : ∀ (first last : List Token) (trail : List (List Token)),
      (first :: (trail ++ [last])).length = trail.length + 2 := by simp
  induction run with
  | atEnd routine => cases routine <;> simp [Routine.Affords]
  | name | noTarget => exact .inl (Nat.le_refl _)
  | @object _ _ _ after _ _ _ _ ih | @array _ _ _ after _ _ _ _ _ ih =>
      have ends := (afterDefault_suffix after).length_le
      simp only [Routine.Affords, length_around, List.length_cons] at ih ⊢
      omega
  | restEntry _ _ ih | restElement _ _ ih | shorthand _ _ _ _ ih | plainElement _ _ ih
  | keyed _ _ _ _ ih | hole _ _ _ ih =>
      simp only [Routine.Affords, length_around, List.length_cons] at ih ⊢
      omega
  | @computed token _ ahead _ _ _ _ _ _ skips _ _ ih =>
      have ends := (skipBalanced_suffix 0 (token :: ahead)).length_le
      rw [skips] at ends
      simp only [Routine.Affords, length_around, List.length_cons] at ih ends ⊢
      omega
  | computedAlone => exact .inl (by simp)
  | lastEntry | lastElement =>
      simp only [Routine.Affords, List.length_cons, List.length_nil]
      omega
  | nextEntry _ first _ ihFirst ihOthers | nextElement _ _ first _ ihFirst ihOthers =>
      have inside := (nextEntry_suffix first.forward.descends.suffix).length_le
      have behind := (nextEntry_suffix_after first.forward.descends.suffix).length_le
      simp only [Routine.Affords, length_around, List.length_cons, List.length_append]
        at ihFirst ihOthers ⊢
      omega

/-! ## Positions -/

/-- The identifiers that are bound on a way forward stand at increasing places. -/
theorem Passes.exists_places (passes : Passes tokens bound rest) :
    ∃ places : List (Fin tokens.length), places.Pairwise (· < ·) ∧
      bound = places.map (tokens[·]) ∧
      ∀ place ∈ places, tokens[place].isIdentifier = true ∧
        place + rest.length < tokens.length := by
  obtain ⟨passed, rfl, sublist, names⟩ := passes
  obtain ⟨places, rfl, increasing⟩ := List.sublist_eq_map_getElem sublist
  have fits : passed.length ≤ (passed ++ rest).length := by simp
  refine ⟨places.map (Fin.castLE fits), ?_, ?_, ?_⟩
  · exact List.pairwise_map.2 (increasing.imp id)
  · simp
  · intro place mem
    obtain ⟨inner, isPlace, rfl⟩ := List.mem_map.1 mem
    have name := names _ (List.mem_map_of_mem isPlace)
    constructor
    · simpa using name
    · simp

/-- What is ahead on a way that descends is ahead of positions that never decrease. -/
theorem Descends.exists_positions (descends : Descends tokens trail rest) :
    ∃ (positions : List Nat) (stop : Nat), trail = positions.map tokens.drop ∧
      rest = tokens.drop stop ∧ (positions ++ [stop]).Pairwise (· ≤ ·) ∧ stop ≤ tokens.length := by
  let position (ahead : List Token) : Nat := tokens.length - ahead.length
  have drop_position : ∀ ahead, ahead <:+ tokens → tokens.drop (position ahead) = ahead :=
    fun ahead ends => (List.suffix_iff_eq_drop.1 ends).symm
  have whole : Descends tokens (trail ++ [rest]) rest :=
    descends.append ⟨List.suffix_refl _, List.suffix_refl _⟩
  refine ⟨trail.map position, position rest, ?_, (drop_position rest descends.suffix).symm, ?_,
    Nat.sub_le _ _⟩
  · rw [List.map_map]
    refine ((List.map_congr_left fun ahead mem => ?_).trans (List.map_id _)).symm
    exact drop_position ahead (descends.suffix_of_mem ahead mem)
  · rw [← List.map_singleton, ← List.map_append, List.pairwise_map]
    exact whole.pairwise.imp fun ends => Nat.sub_le_sub_left ends.length_le _

/-- The tokens that a pattern binds are identifiers of the pattern. -/
theorem mem_of_mem_boundTokens {tokens : List Token} {token : Token}
    (mem : token ∈ boundTokens tokens) : token ∈ tokens ∧ token.isIdentifier = true := by
  obtain ⟨trail, run⟩ : (readTarget tokens).IsRun .target := isRun_read .target tokens
  obtain ⟨passed, whole, sublist, names⟩ := run.forward.passes
  exact ⟨whole ▸ List.mem_append_left _ (sublist.mem mem), names token mem⟩

/-- Whatever tokens a pattern is read from, it is read in one course, which has no more than
eight moments a token and two.  From moment to moment the position never decreases, and it
never passes the end of the tokens.  The names are the texts of identifiers that stand at
increasing places before the one where reading stops, so none is told twice. -/
theorem exists_forward_course (tokens : List Token) :
    ∃ (positions : List Nat) (stop : Nat) (places : List (Fin tokens.length)),
      (∀ bound rest trail, Runs .target tokens bound rest trail ↔
        bound = boundTokens tokens ∧ rest = tokens.drop stop ∧
          trail = positions.map tokens.drop) ∧
      (readTarget tokens).rest = tokens.drop stop ∧
      positions.length ≤ 8 * tokens.length + 2 ∧
      (positions ++ [stop]).Pairwise (· ≤ ·) ∧ stop ≤ tokens.length ∧
      boundTokens tokens = places.map (tokens[·]) ∧
      names tokens = places.map (fun place => tokens[place].text) ∧
      places.Pairwise (· < ·) ∧
      ∀ place ∈ places, tokens[place].isIdentifier = true ∧ place < stop := by
  obtain ⟨trail, run⟩ : (readTarget tokens).IsRun .target := isRun_read .target tokens
  obtain ⟨positions, stop, trail_eq, rest_eq, ordered, inside⟩ :=
    run.forward.descends.exists_positions
  obtain ⟨places, increasing, bound_eq, identifiers⟩ := run.forward.passes.exists_places
  refine ⟨positions, stop, places, fun bound rest others => ⟨fun other => ?_, ?_⟩, rest_eq, ?_,
    ordered, inside, bound_eq, ?_, increasing, fun place mem => ?_⟩
  · obtain ⟨rfl, rfl, rfl⟩ := run.unique other
    exact ⟨rfl, rest_eq, trail_eq⟩
  · rintro ⟨rfl, rfl, rfl⟩
    rwa [rest_eq, trail_eq] at run
  · have affords := run.affords
    rw [trail_eq, List.length_map] at affords
    simp only [Routine.Affords] at affords
    omega
  · rw [names, boundTokens, bound_eq, List.map_map]
    rfl
  · refine ⟨(identifiers place mem).1, ?_⟩
    have before := (identifiers place mem).2
    rw [rest_eq, List.length_drop] at before
    omega

/-- The tokens `[ } a { b`: the bracket that closes nothing is passed by itself, and the end of
the tokens closes the other two. -/
theorem exists_forward_course_unbalanced :
    ∃ tokens : List Token, tokens.map (·.text) = [['['], ['\x7d'], ['a'], ['\x7b'], ['b']] ∧
      names tokens = [['a'], ['b']] ∧ (readTarget tokens).rest = tokens.drop 5 := by
  let mark (c : Char) : Token := ⟨.punctuator, [], [c]⟩
  let name (c : Char) : Token := ⟨.identifier, [], [c]⟩
  let inner : List Token := [name 'b']
  let object : List Token := mark '\x7b' :: inner
  let elements : List Token := mark '\x7d' :: name 'a' :: object
  obtain ⟨positions, stop, places, course, rest_eq, -⟩ :=
    exists_forward_course (mark '[' :: elements)
  have stray : Runs .target elements [] elements [elements, elements] :=
    .noTarget (by decide) (by decide) (by decide)
  have named : Runs .target (name 'a' :: object) [name 'a'] object [name 'a' :: object, object] :=
    .name (by decide)
  have bound : Runs .target inner inner [] [inner, []] := .name (by decide)
  have entries : Runs .entries inner inner [] _ :=
    .nextEntry (by decide) (.shorthand (by decide) (by decide) (by decide) bound) (.atEnd .entries)
  have opened : Runs .target object inner [] _ := .object (by decide) (by decide) entries
  have run : Runs .target (mark '[' :: elements) [name 'a', name 'b'] [] _ :=
    .array (by decide) (by decide) (by decide)
      (.nextElement (by decide) (by decide) (.plainElement (by decide) stray)
        (.nextElement (by decide) (by decide) (.plainElement (by decide) named)
          (.nextElement (by decide) (by decide) (.plainElement (by decide) opened)
            (.atEnd .elements))))
  obtain ⟨bound_eq, rest_nil, -⟩ := (course _ _ _).1 run
  refine ⟨mark '[' :: elements, rfl, ?_, ?_⟩
  · rw [names, ← bound_eq]
    rfl
  · rw [rest_eq, ← rest_nil]
    rfl

end ScriptConsole.Pattern
