import ScriptConsole.Pattern
import ScriptConsole.Proofs.Nesting

/-!
# The grammar of binding patterns

A binding pattern is a name, an object pattern or an array pattern, and it binds the
names in it from left to right.  Default values and computed keys are expressions, of
which only the brackets and commas are looked at.  Whatever follows a pattern, reading
it gives the tokens that it binds and stops where it ends.
-/

namespace ScriptConsole.Pattern

open Token

/-- An expression where commas separate: at least one token. -/
structure Expression (tokens : List Token) : Prop where
  ne_nil : tokens ≠ []
  unsplit : Unsplit "," tokens

/-- Nothing, or an equals sign and an expression. -/
inductive Default : List Token → Prop where
  | none : Default []
  | some {mark : Token} {value : List Token} (equals : mark.isPunctuator "=" = true)
      (expression : Expression value) : Default (mark :: value)

mutual

/-- A binding pattern and the tokens that it binds. -/
inductive Binds : List Token → List Token → Prop where
  | name {token : Token} (isName : token.isIdentifier = true) : Binds [token] [token]
  | object {opening closing : Token} {inner bound : List Token}
      (opens : opening.opens? = some .curly) (entries : Entries inner bound)
      (closes : closing.closes? = some .curly) : Binds (opening :: (inner ++ [closing])) bound
  | array {opening closing : Token} {inner bound : List Token}
      (opens : opening.opens? = some .square) (elements : Elements inner bound)
      (closes : closing.closes? = some .square) : Binds (opening :: (inner ++ [closing])) bound

inductive Entry : List Token → List Token → Prop where
  | shorthand {token : Token} {default : List Token} (isName : token.isIdentifier = true)
      (hdefault : Default default) : Entry (token :: default) [token]
  | keyed {key colon : Token} {tokens default bound : List Token}
      (isKey : key.kind ∈ [.identifier, .string, .number])
      (separates : colon.isPunctuator ":" = true) (binds : Binds tokens bound)
      (hdefault : Default default) : Entry (key :: colon :: (tokens ++ default)) bound
  | computed {opening closing colon : Token} {key tokens default bound : List Token}
      (opens : opening.opens? = some .square) (ne_nil : key ≠ []) (nested : WellNested key)
      (closes : closing.closes? = some .square) (separates : colon.isPunctuator ":" = true)
      (binds : Binds tokens bound) (hdefault : Default default) :
      Entry (opening :: (key ++ closing :: colon :: (tokens ++ default))) bound

/-- The entries of an object pattern; a rest target is the last. -/
inductive Entries : List Token → List Token → Prop where
  | nil : Entries [] []
  | last {tokens bound : List Token} (entry : Entry tokens bound) : Entries tokens bound
  | cons {comma : Token} {tokens others bound more : List Token} (entry : Entry tokens bound)
      (separates : comma.isPunctuator "," = true) (entries : Entries others more) :
      Entries (tokens ++ comma :: others) (bound ++ more)
  | rest {dots : Token} {tokens bound : List Token} (spreads : dots.isPunctuator "..." = true)
      (binds : Binds tokens bound) : Entries (dots :: tokens) bound

/-- The elements of an array pattern; a comma where one may begin leaves a hole, and a
rest target is the last. -/
inductive Elements : List Token → List Token → Prop where
  | nil : Elements [] []
  | hole {comma : Token} {others bound : List Token}
      (separates : comma.isPunctuator "," = true) (elements : Elements others bound) :
      Elements (comma :: others) bound
  | last {tokens default bound : List Token} (binds : Binds tokens bound)
      (hdefault : Default default) : Elements (tokens ++ default) bound
  | cons {comma : Token} {tokens default others bound more : List Token}
      (binds : Binds tokens bound) (hdefault : Default default)
      (separates : comma.isPunctuator "," = true) (elements : Elements others more) :
      Elements (tokens ++ default ++ comma :: others) (bound ++ more)
  | rest {dots : Token} {tokens bound : List Token} (spreads : dots.isPunctuator "..." = true)
      (binds : Binds tokens bound) : Elements (dots :: tokens) bound

end

theorem Default.unsplit {default : List Token} (hdefault : Default default) :
    Unsplit "," default := by
  cases hdefault with
  | none => exact .nil
  | some equals expression =>
      obtain ⟨opens, closes⟩ := plain_of_isPunctuator (by simp) equals
      exact .plain opens closes (by simp [isPunctuator, isPunctuator_iff.1 equals])
        expression.unsplit

theorem Default.wellNested {default : List Token} (hdefault : Default default) :
    WellNested default :=
  hdefault.unsplit.wellNested

theorem kind_of_isKey {key : Token} (isKey : key.kind ∈ [.identifier, .string, .number]) :
    key.kind ≠ .punctuator := by
  intro kind
  simp [kind] at isKey

/-- No token stands before the end of an element: the tokens are at an end, or a comma or
a closing bracket is next. -/
def endsElement : List Token → Bool
  | [] => true
  | token :: _ => token.isPunctuator "," || token.isCloser

theorem endsElement_comma {comma : Token} (separates : comma.isPunctuator "," = true)
    (rest : List Token) : endsElement (comma :: rest) = true := by
  simp [endsElement, separates]

theorem endsElement_closing {closing : Token} {bracket : Bracket}
    (closes : closing.closes? = some bracket) (rest : List Token) :
    endsElement (closing :: rest) = true := by
  simp [endsElement, isCloser, closes]

theorem nextIs_of_endsElement {rest : List Token} (ends : endsElement rest = true)
    {text : String} (mem : text ∈ ["=", ":"]) : nextIs text rest = false := by
  cases rest with
  | nil => rfl
  | cons token rest =>
      simp only [nextIs, List.head?_cons, Option.any_some]
      simp only [endsElement, Bool.or_eq_true, isCloser, Option.isSome_iff_exists] at ends
      rcases ends with comma | ⟨bracket, closes⟩
      · rw [isPunctuator_iff] at comma
        simp only [List.mem_cons, List.not_mem_nil, or_false] at mem
        rcases mem with rfl | rfl <;> simp [isPunctuator, comma]
      · rw [closes?_eq_some_iff] at closes
        simp only [List.mem_cons, List.not_mem_nil, or_false] at mem
        rcases mem with rfl | rfl <;> cases bracket <;>
          simp [isPunctuator, closes, Bracket.closing]

section Stepping

variable {tokens : List Token}

theorem skipElement_nested (nested : WellNested tokens) (depth : Nat) (rest : List Token) :
    skipElement (depth + 1) (tokens ++ rest) = skipElement (depth + 1) rest := by
  induction nested generalizing depth rest with
  | nil => rfl
  | plain opens closes tail ih => simp [skipElement, isOpener, isCloser, opens, closes, ih]
  | group opens closes within tail ihWithin ihTail =>
      simp [skipElement, isOpener, isCloser, opens, closes, opens?_eq_none_of_closes? closes,
        ihWithin, ihTail]

/-- A comma in brackets does not end the element that is stepped over. -/
theorem skipElement_unsplit (unsplit : Unsplit "," tokens) (rest : List Token) :
    skipElement 0 (tokens ++ rest) = skipElement 0 rest := by
  induction unsplit generalizing rest with
  | nil => rfl
  | plain opens closes other tail ih =>
      simp [skipElement, isOpener, isCloser, opens, closes, other, ih]
  | group opens closes within tail ihTail =>
      simp [skipElement, isOpener, isCloser, opens, closes, opens?_eq_none_of_closes? closes,
        skipElement_nested within, ihTail]

theorem skipElement_of_endsElement {rest : List Token} (ends : endsElement rest = true) :
    skipElement 0 rest = rest := by
  cases rest with
  | nil => rfl
  | cons token rest =>
      simp only [endsElement, Bool.or_eq_true] at ends
      by_cases closes : token.isCloser = true
      · obtain ⟨bracket, closing⟩ := Option.isSome_iff_exists.1 closes
        simp [skipElement, isOpener, closes, opens?_eq_none_of_closes? closing]
      · have comma := ends.resolve_right closes
        obtain ⟨opens, -⟩ := plain_of_isPunctuator (by simp) comma
        simp [skipElement, isOpener, opens, comma]

theorem skipBalanced_nested (nested : WellNested tokens) (depth : Nat) (rest : List Token) :
    skipBalanced (depth + 1) (tokens ++ rest) = skipBalanced (depth + 1) rest := by
  induction nested generalizing depth rest with
  | nil => rfl
  | plain opens closes tail ih => simp [skipBalanced, isOpener, isCloser, opens, closes, ih]
  | group opens closes within tail ihWithin ihTail =>
      simp [skipBalanced, isOpener, isCloser, opens, closes, opens?_eq_none_of_closes? closes,
        ihWithin, ihTail]

theorem skipBalanced_group {opening closing : Token} {bracket : Bracket}
    (opens : opening.opens? = some bracket) (nested : WellNested tokens)
    (closes : closing.closes? = some bracket) (rest : List Token) :
    skipBalanced 0 (opening :: (tokens ++ closing :: rest)) = rest := by
  simp [skipBalanced, isOpener, isCloser, opens, closes, opens?_eq_none_of_closes? closes,
    skipBalanced_nested nested]

end Stepping

namespace Reading

/-- The reading binds these tokens and leaves those. -/
structure Gives {tokens : List Token} (reading : Reading tokens) (bound rest : List Token) :
    Prop where
  bound : reading.bound = bound
  rest : reading.rest = rest

namespace Gives

variable {tokens bound default rest : List Token} {reading : Reading tokens}

theorem skipDefault (gives : reading.Gives bound (default ++ rest)) (hdefault : Default default)
    (ends : endsElement rest = true) : reading.skipDefault.Gives bound rest := by
  unfold Reading.skipDefault
  cases hdefault with
  | none =>
      have other : nextIs "=" reading.rest = false := by
        rw [gives.rest]
        exact nextIs_of_endsElement ends (by simp)
      rw [if_neg (by simp [other])]
      exact gives
  | @some mark value equals expression =>
      have found : nextIs "=" reading.rest = true := by simp [gives.rest, nextIs, equals]
      rw [if_pos found]
      refine ⟨gives.bound, ?_⟩
      calc skipElement 0 reading.rest
        _ = skipElement 0 (mark :: value ++ rest) := by rw [gives.rest]
        _ = skipElement 0 rest :=
          skipElement_unsplit (Default.some equals expression).unsplit rest
        _ = rest := skipElement_of_endsElement ends

theorem weaken {fewer : List Token} {reading : Reading fewer} (gives : reading.Gives bound rest)
    (length_le : fewer.length ≤ tokens.length) :
    (reading.weaken length_le : Reading tokens).Gives bound rest :=
  ⟨gives.bound, gives.rest⟩

theorem after (gives : reading.Gives bound rest) (earlier : List Token) :
    (reading.after earlier).Gives (earlier ++ bound) rest :=
  ⟨congrArg (earlier ++ ·) gives.bound, gives.rest⟩

end Gives

end Reading

theorem nextEntry_comma {comma : Token} (separates : comma.isPunctuator "," = true)
    (token : Token) (tokens others : List Token) :
    nextEntry token tokens (comma :: others) = others := by
  simp [nextEntry, nextIs, separates]

theorem nextEntry_closing {closing : Token} {bracket : Bracket}
    (closes : closing.closes? = some bracket) (token : Token) {tokens rest : List Token}
    (shorter : rest.length < tokens.length) :
    nextEntry token tokens (closing :: rest) = closing :: rest := by
  have noComma : closing.isPunctuator "," = false := by
    rw [closes?_eq_some_iff] at closes
    cases bracket <;> simp [isPunctuator, closes, Bracket.closing]
  have read : rest.length ≠ tokens.length := by omega
  simp [nextEntry, nextIs, noComma, read]

theorem readEntries_cons {token : Token} {tokens bound more after left rest : List Token}
    (inside : token.closesWith .curly = false)
    (first : (readEntry (token :: tokens)).Gives bound after)
    (next : nextEntry token tokens after = left) (others : (readEntries left).Gives more rest) :
    (readEntries (token :: tokens)).Gives (bound ++ more) rest := by
  subst next
  obtain ⟨rfl, rfl⟩ := first
  rw [readEntries]
  simp only [inside, Bool.false_eq_true, if_false]
  exact (others.weaken _).after _

theorem readElements_cons {token : Token} {tokens bound more after left rest : List Token}
    (inside : token.closesWith .square = false) (noHole : token.isPunctuator "," = false)
    (first : (readElement (token :: tokens)).Gives bound after)
    (next : nextEntry token tokens after = left) (others : (readElements left).Gives more rest) :
    (readElements (token :: tokens)).Gives (bound ++ more) rest := by
  subst next
  obtain ⟨rfl, rfl⟩ := first
  rw [readElements]
  simp only [inside, noHole, Bool.false_eq_true, if_false]
  exact (others.weaken _).after _

theorem readEntries_closing {closing : Token} (closes : closing.closes? = some .curly)
    (rest : List Token) : (readEntries (closing :: rest)).Gives [] rest := by
  rw [readEntries]
  simp only [closesWith, closes, beq_self_eq_true, if_true]
  exact ⟨rfl, rfl⟩

theorem readElements_closing {closing : Token} (closes : closing.closes? = some .square)
    (rest : List Token) : (readElements (closing :: rest)).Gives [] rest := by
  rw [readElements]
  simp only [closesWith, closes, beq_self_eq_true, if_true]
  exact ⟨rfl, rfl⟩

/-- A token that a pattern or an entry may begin with: it ends no list, and no list goes
on after it. -/
structure Begins (token : Token) : Prop where
  closes : token.closes? = none
  noComma : token.isPunctuator "," = false

theorem Begins.of_kind {token : Token} (notMark : token.kind ≠ .punctuator) : Begins token where
  closes := (plain_of_kind notMark).2
  noComma := by simp [isPunctuator, notMark]

theorem Begins.of_opens {token : Token} {bracket : Bracket}
    (opens : token.opens? = some bracket) : Begins token where
  closes := by
    rw [Option.eq_none_iff_forall_ne_some]
    intro other closes
    rw [opens?_eq_none_of_closes? closes] at opens
    cases opens
  noComma := by
    rw [opens?_eq_some_iff] at opens
    cases bracket <;> simp [isPunctuator, opens, Bracket.opening]

theorem Begins.of_dots {token : Token} (spreads : token.isPunctuator "..." = true) :
    Begins token where
  closes := (plain_of_isPunctuator (by simp) spreads).2
  noComma := by simp [isPunctuator, isPunctuator_iff.1 spreads]

theorem Binds.begins {tokens bound : List Token} (binds : Binds tokens bound) :
    ∃ token rest, tokens = token :: rest ∧ Begins token ∧ token.isPunctuator "..." = false := by
  cases binds with
  | @name token isName =>
      have kind : token.kind = .identifier := by simpa [isIdentifier] using isName
      exact ⟨_, _, rfl, .of_kind (by simp [kind]), by simp [isPunctuator, kind]⟩
  | object opens _ _ | array opens _ _ =>
      refine ⟨_, _, rfl, .of_opens opens, ?_⟩
      simp [isPunctuator, opens?_eq_some_iff.1 opens, Bracket.opening]

theorem Entry.begins {tokens bound : List Token} (entry : Entry tokens bound) :
    ∃ token rest, tokens = token :: rest ∧ Begins token := by
  cases entry with
  | @shorthand token _ isName _ =>
      have kind : token.kind = .identifier := by simpa [isIdentifier] using isName
      exact ⟨_, _, rfl, .of_kind (by simp [kind])⟩
  | keyed isKey _ _ _ => exact ⟨_, _, rfl, .of_kind (kind_of_isKey isKey)⟩
  | computed opens _ _ _ _ _ _ => exact ⟨_, _, rfl, .of_opens opens⟩

theorem readEntries_last {token closing : Token} {tokens bound rest : List Token}
    (begins : Begins token) (closes : closing.closes? = some .curly)
    (first : (readEntry (token :: (tokens ++ closing :: rest))).Gives bound (closing :: rest)) :
    (readEntries (token :: (tokens ++ closing :: rest))).Gives bound rest := by
  have all := readEntries_cons (by simp [closesWith, begins.closes]) first
    (nextEntry_closing closes token (by simp; omega)) (readEntries_closing closes rest)
  rwa [List.append_nil] at all

theorem readElements_last {token closing : Token} {tokens bound rest : List Token}
    (begins : Begins token) (closes : closing.closes? = some .square)
    (first : (readElement (token :: (tokens ++ closing :: rest))).Gives bound
      (closing :: rest)) :
    (readElements (token :: (tokens ++ closing :: rest))).Gives bound rest := by
  have all := readElements_cons (by simp [closesWith, begins.closes]) begins.noComma first
    (nextEntry_closing closes token (by simp; omega)) (readElements_closing closes rest)
  rwa [List.append_nil] at all

theorem readElement_of_binds {tokens following bound rest : List Token}
    (binds : Binds tokens bound) (target : (readTarget (tokens ++ following)).Gives bound rest) :
    (readElement (tokens ++ following)).Gives bound rest := by
  obtain ⟨token, more, rfl, -, noDots⟩ := binds.begins
  rw [List.cons_append] at target ⊢
  rw [readElement]
  simpa only [noDots, Bool.false_eq_true, if_false] using target

section Entries

variable {tokens bound rest : List Token}

theorem readElement_dots {dots : Token} (spreads : dots.isPunctuator "..." = true)
    (target : (readTarget tokens).Gives bound rest) :
    (readElement (dots :: tokens)).Gives bound rest := by
  rw [readElement]
  simp only [spreads, if_true]
  exact target.weaken _

theorem readEntry_dots {dots : Token} (spreads : dots.isPunctuator "..." = true)
    (target : (readTarget tokens).Gives bound rest) :
    (readEntry (dots :: tokens)).Gives bound rest := by
  rw [readEntry.eq_def]
  simp only [spreads, if_true]
  exact target.weaken _

theorem readEntry_keyed {key colon : Token} (isKey : key.kind ≠ .punctuator)
    (separates : colon.isPunctuator ":" = true)
    (target : (readTarget tokens).Gives bound rest) :
    (readEntry (key :: colon :: tokens)).Gives bound rest := by
  have noDots : key.isPunctuator "..." = false := by simp [isPunctuator, isKey]
  have plain : key.opensWith .square = false := by simp [opensWith, opens?_eq_some_iff, isKey]
  rw [readEntry.eq_def]
  simp only [noDots, plain, separates, Bool.false_eq_true, if_false, if_true]
  exact target.weaken _

theorem readEntry_shorthand {token : Token} (isName : token.isIdentifier = true)
    (noColon : nextIs ":" tokens = false)
    (target : (readTarget (token :: tokens)).Gives bound rest) :
    (readEntry (token :: tokens)).Gives bound rest := by
  have kind : token.kind = .identifier := by simpa [isIdentifier] using isName
  have noDots : token.isPunctuator "..." = false := by simp [isPunctuator, kind]
  have plain : token.opensWith .square = false := by simp [opensWith, opens?_eq_some_iff, kind]
  rw [readEntry.eq_def]
  cases tokens with
  | nil => simpa only [noDots, plain, Bool.false_eq_true, if_false] using target
  | cons next tokens =>
      have noColon : next.isPunctuator ":" = false := noColon
      simpa only [noDots, plain, noColon, Bool.false_eq_true, if_false] using target

theorem readEntry_computed {opening closing colon : Token} {key : List Token}
    (opens : opening.opens? = some .square) (nested : WellNested key)
    (closes : closing.closes? = some .square) (separates : colon.isPunctuator ":" = true)
    (target : (readTarget tokens).Gives bound rest) :
    (readEntry (opening :: (key ++ closing :: colon :: tokens))).Gives bound rest := by
  have noDots : opening.isPunctuator "..." = false := by
    simp [isPunctuator, opens?_eq_some_iff.1 opens, Bracket.opening]
  have found : opening.opensWith .square = true := by simp [opensWith, opens]
  have skipped := skipBalanced_group opens nested closes (colon :: tokens)
  rw [readEntry.eq_def]
  simp only [noDots, found, Bool.false_eq_true, if_false, if_true]
  split
  · rename_i same _
    cases skipped.symm.trans same
    simp only [separates, if_true]
    exact target.weaken _
  · rename_i same _
    cases skipped.symm.trans same

end Entries

mutual

/-- Reading a pattern gives what it binds, and goes on after its default value. -/
theorem Binds.reads {tokens bound : List Token} :
    Binds tokens bound → ∀ {default rest : List Token}, Default default →
      endsElement rest = true → (readTarget (tokens ++ (default ++ rest))).Gives bound rest
  | .name isName, default, rest, hdefault, ends => by
      rw [List.singleton_append, readTarget]
      simp only [isName, if_true]
      exact Reading.Gives.skipDefault ⟨rfl, rfl⟩ hdefault ends
  | @Binds.object opening _ _ _ opens entries closes, default, rest, hdefault, ends => by
      have noName : opening.isIdentifier = false := by
        simp [isIdentifier, opens?_eq_some_iff.1 opens]
      have found : opening.opensWith .curly = true := by simp [opensWith, opens]
      rw [List.cons_append, List.append_assoc, List.singleton_append, readTarget]
      simp only [noName, found, Bool.false_eq_true, if_false, if_true]
      exact ((entries.reads closes).weaken _).skipDefault hdefault ends
  | @Binds.array opening _ _ _ opens elements closes, default, rest, hdefault, ends => by
      have noName : opening.isIdentifier = false := by
        simp [isIdentifier, opens?_eq_some_iff.1 opens]
      have noObject : opening.opensWith .curly = false := by simp [opensWith, opens]
      have found : opening.opensWith .square = true := by simp [opensWith, opens]
      rw [List.cons_append, List.append_assoc, List.singleton_append, readTarget]
      simp only [noName, noObject, found, Bool.false_eq_true, if_false, if_true]
      exact ((elements.reads closes).weaken _).skipDefault hdefault ends

theorem Entry.reads {tokens bound : List Token} : Entry tokens bound →
    ∀ {rest : List Token}, endsElement rest = true → (readEntry (tokens ++ rest)).Gives bound rest
  | @Entry.shorthand _ default isName hdefault, rest, ends => by
      have noColon : nextIs ":" (default ++ rest) = false := by
        cases hdefault with
        | none => exact nextIs_of_endsElement ends (by simp)
        | some equals _ => simp [nextIs, isPunctuator, isPunctuator_iff.1 equals]
      refine readEntry_shorthand isName noColon ?_
      rw [readTarget]
      simp only [isName, if_true]
      exact Reading.Gives.skipDefault ⟨rfl, rfl⟩ hdefault ends
  | .keyed isKey separates binds hdefault, rest, ends => by
      rw [List.cons_append, List.cons_append, List.append_assoc]
      exact readEntry_keyed (kind_of_isKey isKey) separates (binds.reads hdefault ends)
  | .computed opens _ nested closes separates binds hdefault, rest, ends => by
      rw [List.cons_append, List.append_assoc, List.cons_append, List.cons_append,
        List.append_assoc]
      exact readEntry_computed opens nested closes separates (binds.reads hdefault ends)

/-- Reading the entries of an object pattern gives what they bind, and goes on after the
bracket that closes it. -/
theorem Entries.reads {tokens bound : List Token} : Entries tokens bound →
    ∀ {closing : Token} {rest : List Token}, closing.closes? = some .curly →
      (readEntries (tokens ++ closing :: rest)).Gives bound rest
  | .nil, closing, rest, closes => readEntries_closing closes rest
  | .last entry, closing, rest, closes => by
      have first := entry.reads (endsElement_closing closes rest)
      obtain ⟨token, more, rfl, begins⟩ := entry.begins
      exact readEntries_last begins closes first
  | @Entries.cons _ _ others _ _ entry separates entries, closing, rest, closes => by
      have first := entry.reads (endsElement_comma separates (others ++ closing :: rest))
      obtain ⟨token, more, rfl, begins⟩ := entry.begins
      rw [List.append_assoc, List.cons_append]
      exact readEntries_cons (by simp [closesWith, begins.closes]) first
        (nextEntry_comma separates _ _ _) (entries.reads closes)
  | .rest spreads binds, closing, rest, closes =>
      readEntries_last (.of_dots spreads) closes
        (readEntry_dots spreads (binds.reads .none (endsElement_closing closes rest)))

/-- Reading the elements of an array pattern gives what they bind, and goes on after the
bracket that closes it. -/
theorem Elements.reads {tokens bound : List Token} : Elements tokens bound →
    ∀ {closing : Token} {rest : List Token}, closing.closes? = some .square →
      (readElements (tokens ++ closing :: rest)).Gives bound rest
  | .nil, closing, rest, closes => readElements_closing closes rest
  | @Elements.hole comma _ _ separates elements, closing, rest, closes => by
      have inside : comma.closesWith .square = false := by
        simp [closesWith, (plain_of_isPunctuator (by simp) separates).2]
      rw [List.cons_append, readElements]
      simp only [inside, separates, Bool.false_eq_true, if_false, if_true]
      exact (elements.reads closes).weaken _
  | .last binds hdefault, closing, rest, closes => by
      have first := readElement_of_binds binds
        (binds.reads hdefault (endsElement_closing closes rest))
      obtain ⟨token, more, rfl, begins, -⟩ := binds.begins
      rw [List.cons_append, ← List.append_assoc] at first
      exact readElements_last begins closes first
  | @Elements.cons _ _ _ others _ _ binds hdefault separates elements, closing, rest, closes => by
      have first := readElement_of_binds binds
        (binds.reads hdefault (endsElement_comma separates (others ++ closing :: rest)))
      obtain ⟨token, more, rfl, begins, -⟩ := binds.begins
      rw [List.append_assoc, List.append_assoc, List.cons_append]
      exact readElements_cons (by simp [closesWith, begins.closes]) begins.noComma first
        (nextEntry_comma separates _ _ _) (elements.reads closes)
  | .rest spreads binds, closing, rest, closes =>
      readElements_last (.of_dots spreads) closes
        (readElement_dots spreads (binds.reads .none (endsElement_closing closes rest)))

end

mutual

theorem Binds.wellNested {tokens bound : List Token} : Binds tokens bound → WellNested tokens
  | .name isName =>
      let plain := plain_of_isIdentifier isName
      .plain plain.1 plain.2 .nil
  | .object opens entries closes => .group opens closes entries.wellNested .nil
  | .array opens elements closes => .group opens closes elements.wellNested .nil

theorem Entry.wellNested {tokens bound : List Token} : Entry tokens bound → WellNested tokens
  | .shorthand isName hdefault =>
      let plain := plain_of_isIdentifier isName
      .plain plain.1 plain.2 hdefault.wellNested
  | .keyed isKey separates binds hdefault =>
      let plain := plain_of_kind (kind_of_isKey isKey)
      .plain plain.1 plain.2
        (.mark (by simp) separates (binds.wellNested.append hdefault.wellNested))
  | .computed opens _ nested closes separates binds hdefault =>
      .group opens closes nested
        (.mark (by simp) separates (binds.wellNested.append hdefault.wellNested))

theorem Entries.wellNested {tokens bound : List Token} :
    Entries tokens bound → WellNested tokens
  | .nil => .nil
  | .last entry => entry.wellNested
  | .cons entry separates entries =>
      entry.wellNested.append (.mark (by simp) separates entries.wellNested)
  | .rest spreads binds => .mark (by simp) spreads binds.wellNested

theorem Elements.wellNested {tokens bound : List Token} :
    Elements tokens bound → WellNested tokens
  | .nil => .nil
  | .hole separates elements => .mark (by simp) separates elements.wellNested
  | .last binds hdefault => binds.wellNested.append hdefault.wellNested
  | .cons binds hdefault separates elements =>
      (binds.wellNested.append hdefault.wellNested).append
        (.mark (by simp) separates elements.wellNested)
  | .rest spreads binds => .mark (by simp) spreads binds.wellNested

end

/-- No punctuator but a bracket stands outside the brackets of a pattern. -/
theorem Binds.unsplit {tokens bound : List Token} (binds : Binds tokens bound) (text : String) :
    Unsplit text tokens := by
  cases binds with
  | @name token isName =>
      obtain ⟨opens, closes⟩ := plain_of_isIdentifier isName
      have kind : token.kind = .identifier := by simpa [isIdentifier] using isName
      exact .plain opens closes (by simp [isPunctuator, kind]) .nil
  | object opens entries closes => exact .group opens closes entries.wellNested .nil
  | array opens elements closes => exact .group opens closes elements.wellNested .nil

theorem Binds.boundTokens_eq {tokens bound : List Token} (binds : Binds tokens bound) :
    boundTokens tokens = bound := by
  have whole : (readTarget (tokens ++ ([] ++ []))).Gives bound [] := binds.reads .none rfl
  rw [List.append_nil, List.append_nil] at whole
  exact whole.bound

end ScriptConsole.Pattern
