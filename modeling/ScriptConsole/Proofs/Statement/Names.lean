import ScriptConsole.Proofs.Statement.Cuts

/-!
# The names of functions and classes

A statement that declares a function or a class opens with its keywords and has
its name after them, after the asterisk of a generator as may be.  The search
for the declared name finds that name unless it is one of three words.
-/

namespace ScriptConsole

open Token

namespace Statement

/-- The keywords that open the declaration of a function or a class. -/
inductive DeclaringWords : List Token → Prop where
  | function {word : Token} (h : word.isWord "function" = true) : DeclaringWords [word]
  | asyncFunction {first word : Token} (isAsync : first.isWord "async" = true)
      (isFunction : word.isWord "function" = true) : DeclaringWords [first, word]
  | classWord {word : Token} (h : word.isWord "class" = true) : DeclaringWords [word]

/-- The tokens of a function or class: its keywords, the asterisk of a generator in
`marks`, its name, and what follows the name. -/
inductive NamedBy : List Token → List Token → Token → List Token → Prop where
  | mk {words marks more : List Token} {name : Token} (keywords : DeclaringWords words)
      (asterisks : ∀ mark ∈ marks, mark.isPunctuator "*" = true)
      (identifier : name.isIdentifier = true) :
      NamedBy (words ++ marks ++ name :: more) marks name more

theorem DeclaringWords.exists_isWord {words : List Token} (keywords : DeclaringWords words)
    {word : Token} (mem : word ∈ words) :
    ∃ text ∈ ["async", "function", "class"], word.isWord text = true := by
  cases keywords with
  | function h => exact ⟨"function", by simp, List.mem_singleton.1 mem ▸ h⟩
  | classWord h => exact ⟨"class", by simp, List.mem_singleton.1 mem ▸ h⟩
  | asyncFunction isAsync isFunction =>
      rcases List.mem_cons.1 mem with rfl | mem
      · exact ⟨"async", by simp, isAsync⟩
      · exact ⟨"function", by simp, List.mem_singleton.1 mem ▸ isFunction⟩

/-- No statement ends after a keyword that a name must follow, or after an asterisk. -/
theorem DeclaringWords.canEndWith_eq_false {words : List Token} (keywords : DeclaringWords words)
    {word : Token} (mem : word ∈ words) :
    canEndWith word = false ∧ word.isPunctuator ";" = false := by
  obtain ⟨text, among, isKeyword⟩ := keywords.exists_isWord mem
  obtain ⟨kind, same⟩ := isWord_iff.1 isKeyword
  have nonTerminal : ∀ text ∈ ["async", "function", "class"], text ∈ nonTerminalWords := by
    decide
  refine ⟨?_, by simp [isPunctuator, kind]⟩
  simp only [canEndWith, kind, isWordIn, beq_self_eq_true, Bool.true_and, same,
    Bool.not_eq_false', List.any_eq_true, beq_iff_eq]
  exact ⟨text, nonTerminal text among, rfl⟩

theorem canEndWith_eq_false_of_asterisk {mark : Token} (h : mark.isPunctuator "*" = true) :
    canEndWith mark = false ∧ mark.isPunctuator ";" = false := by
  simp [canEndWith, isPunctuatorIn, isPunctuator, isPunctuator_iff.1 h]

/-- Tokens after which no statement may end stand before a name in one statement. -/
theorem eq_append_of_unbroken {leading more tokens rest : List Token} {name : Token}
    (whole : leading ++ name :: more = tokens ++ rest) (nonempty : tokens ≠ [])
    (unbroken : ∀ token ∈ leading, canEndWith token = false ∧ token.isPunctuator ";" = false)
    (identifier : name.isIdentifier = true)
    (cut : ∀ last ∈ tokens.getLast?, canEndWith last = true ∨
      ∀ next ∈ rest.head?, next.isPunctuator ";" = true) :
    ∃ more', tokens = leading ++ name :: more' := by
  have inside : ∀ {pending : List Token}, leading = tokens ++ pending →
      rest ≠ pending ++ name :: more := by
    rintro pending rfl rfl
    have hlast := List.getLast?_eq_some_getLast nonempty
    have mem : tokens.getLast nonempty ∈ tokens ++ pending :=
      List.mem_append_left _ (List.getLast_mem nonempty)
    rcases cut _ hlast with ends | mark
    · rw [(unbroken _ mem).1] at ends
      cases ends
    · cases pending with
      | nil =>
          have := mark name rfl
          simp only [isIdentifier, beq_iff_eq] at identifier
          simp [isPunctuator, identifier] at this
      | cons next pending =>
          have := mark next rfl
          rw [(unbroken next (by simp)).2] at this
          cases this
  rcases List.append_eq_append_iff.1 whole with ⟨taken, rfl, htail⟩ | ⟨pending, hlead, hrest⟩
  · cases taken with
    | nil => exact (inside (by simp : leading = leading ++ [] ++ []) htail.symm).elim
    | cons first taken =>
        obtain ⟨rfl, -⟩ := List.cons.inj htail
        exact ⟨taken, rfl⟩
  · exact absurd hrest (inside hlead)

theorem exists_namedBy_of_namesFunction {words rest : List Token}
    (keywords : DeclaringWords words) (names : namesFunction rest = true) :
    ∃ marks name more, NamedBy (words ++ rest) marks name more := by
  cases rest with
  | nil => cases names
  | cons token rest =>
      rw [namesFunction] at names
      split at names
      · rename_i asterisk
        obtain ⟨name, hname, identifier⟩ := (Option.any_eq_true _ _).1 names
        obtain ⟨more, rfl⟩ := List.head?_eq_some_iff.1 hname
        have named := @NamedBy.mk _ _ more _ keywords
          (List.forall_mem_singleton.2 asterisk) identifier
        rw [List.append_assoc] at named
        exact ⟨[token], name, more, named⟩
      · have named := @NamedBy.mk _ _ rest _ keywords
          (List.forall_mem_nil _) names
        rw [List.append_nil] at named
        exact ⟨[], token, rest, named⟩

/-- What the kind of a named function or class says about its tokens. -/
theorem exists_namedBy_of_kindOf {first : Token} {rest : List Token}
    (kind : kindOf first rest = .namedFunction ∨ kindOf first rest = .namedClass) :
    ∃ marks name more, NamedBy (first :: rest) marks name more := by
  unfold kindOf at kind
  split at kind
  · simp at kind
  · split at kind
    · unfold kindOfWord at kind
      split at kind
      · simp at kind
      · split at kind
        · simp at kind
        · split at kind
          · rename_i isFunction
            split at kind
            · rename_i names
              exact exists_namedBy_of_namesFunction (.function isFunction) names
            · simp at kind
          · split at kind
            · rename_i asyncFunction
              simp only [Bool.and_eq_true] at asyncFunction
              obtain ⟨⟨isAsync, hnext⟩, names⟩ := asyncFunction
              obtain ⟨next, hhead, isFunction⟩ := (Option.any_eq_true _ _).1 hnext
              obtain ⟨more, rfl⟩ := List.head?_eq_some_iff.1 hhead
              simp only [Bool.and_eq_true] at isFunction
              exact exists_namedBy_of_namesFunction (.asyncFunction isAsync isFunction.1)
                names
            · split at kind
              · rename_i classNamed
                simp only [Bool.and_eq_true] at classNamed
                obtain ⟨name, hhead, identifier⟩ := (Option.any_eq_true _ _).1 classNamed.2
                obtain ⟨more, rfl⟩ := List.head?_eq_some_iff.1 hhead
                simp only [Bool.and_eq_true] at identifier
                exact ⟨[], name, more, .mk (.classWord classNamed.1) (List.forall_mem_nil _)
                  identifier.1⟩
              · repeat' split at kind
                all_goals simp at kind
    · simp at kind

theorem Placed.exists_namedBy {before : List Token} {statement : Statement}
    {after : List Statement} (placed : Placed before statement after)
    (kind : statement.kind = .namedFunction ∨ statement.kind = .namedClass) :
    ∃ marks name more, NamedBy statement.tokens marks name more := by
  have nonempty : statement.tokens ≠ [] := by
    rintro hnil
    rw [placed.empty_iff.2 hnil] at kind
    simp at kind
  obtain ⟨first, more, hfirst⟩ := List.exists_cons_of_ne_nil nonempty
  rw [placed.kind_eq first more hfirst] at kind
  obtain ⟨marks, name, rest, named⟩ := exists_namedBy_of_kindOf kind
  generalize hwhole : first :: (more ++ statement.semicolon.toList ++ tokensOf after) =
    whole at named
  have whole_eq : whole =
      statement.tokens ++ (statement.semicolon.toList ++ tokensOf after) := by
    rw [← hwhole, hfirst]
    simp
  cases named with
  | @mk words marks rest name keywords asterisks identifier =>
      have unbroken : ∀ token ∈ words ++ marks,
          canEndWith token = false ∧ token.isPunctuator ";" = false := by
        intro token mem
        rcases List.mem_append.1 mem with inWords | inMarks
        · exact keywords.canEndWith_eq_false inWords
        · exact canEndWith_eq_false_of_asterisk (asterisks token inMarks)
      have cut : ∀ last ∈ statement.tokens.getLast?, canEndWith last = true ∨
          ∀ next ∈ (statement.semicolon.toList ++ tokensOf after).head?,
            next.isPunctuator ";" = true := by
        intro last hlast
        cases hsemicolon : statement.semicolon with
        | some token =>
            refine .inr ?_
            intro next hnext
            rw [Option.toList_some, List.singleton_append, List.head?_cons,
              Option.mem_some_iff] at hnext
            exact placed.isSemicolon next (hnext ▸ hsemicolon)
        | none =>
            cases after with
            | nil => exact .inr (by simp [tokensOf])
            | cons next after =>
                obtain ⟨last', hlast', ends⟩ := placed.apart hsemicolon next rfl
                rw [Option.mem_unique hlast hlast']
                refine .inl ?_
                rcases ends with curly | ⟨_, _, _, breaks⟩
                · have closes : last'.closes? = some .curly := by
                    simpa [closesWith] using curly
                  obtain ⟨kind, text⟩ := closes?_eq_some_iff.1 closes
                  simp [canEndWith, kind, isPunctuatorIn, text, Bracket.closing]
                · rw [breaksBetween, Bool.and_eq_true] at breaks
                  exact breaks.1
      obtain ⟨more', htokens⟩ :=
        eq_append_of_unbroken whole_eq nonempty unbroken identifier cut
      exact ⟨marks, name, more', htokens ▸ .mk keywords asterisks identifier⟩

end Statement

namespace Declaration

open Statement

/-- The words that the search for a declared name steps over. -/
def overlookedWords : List String :=
  ["async", "function", "class"]

/-- Whether the search for a declared name steps over the name itself, because it is
one of the words and no asterisk stands before it. -/
def overlooks (marks : List Token) (name : Token) : Bool :=
  marks.isEmpty && name.isWordIn overlookedWords

theorem isWordIn_overlookedWords {words : List Token} (keywords : DeclaringWords words)
    {word : Token} (mem : word ∈ words) : word.isWordIn overlookedWords = true := by
  obtain ⟨text, among, isKeyword⟩ := keywords.exists_isWord mem
  obtain ⟨kind, same⟩ := isWord_iff.1 isKeyword
  simp only [isWordIn, kind, beq_self_eq_true, Bool.true_and, List.any_eq_true]
  exact ⟨text, among, beq_iff_eq.2 same⟩

theorem declaredName?_append {words : List Token} (keywords : DeclaringWords words)
    (rest : List Token) : declaredName? (words ++ rest) = declaredName? rest := by
  have skip : (words ++ rest).dropWhile (·.isWordIn ["async", "function", "class"]) =
      rest.dropWhile (·.isWordIn ["async", "function", "class"]) :=
    List.dropWhile_append_of_pos fun word mem => isWordIn_overlookedWords keywords mem
  simp only [declaredName?, skip]

/-- The search finds the name of a function or class, unless it steps over it. -/
theorem declaredName?_of_namedBy {tokens marks more : List Token} {name : Token}
    (named : NamedBy tokens marks name more) (found : overlooks marks name = false) :
    declaredName? tokens = some name.text := by
  cases named with
  | @mk words _ _ _ keywords asterisks identifier =>
      have kind : name.kind = .identifier := by simpa [isIdentifier] using identifier
      have noMark : name.isPunctuator "*" = false := by simp [isPunctuator, kind]
      have through : (marks ++ name :: more).find? (!·.isPunctuator "*") = some name := by
        rw [List.find?_append, List.find?_eq_none.2 (by simpa using asterisks)]
        simp [noMark]
      have stays : (marks ++ name :: more).dropWhile
          (·.isWordIn ["async", "function", "class"]) = marks ++ name :: more := by
        cases marks with
        | nil =>
            apply List.dropWhile_cons_of_neg
            simpa [overlooks, overlookedWords] using found
        | cons mark marks =>
            have asterisk := isPunctuator_iff.1 (asterisks mark List.mem_cons_self)
            apply List.dropWhile_cons_of_neg
            simp [isWordIn, asterisk.1]
      rw [List.append_assoc, declaredName?_append keywords]
      simp only [declaredName?, stays, through, identifier, if_true]

theorem exists_mem_of_declaredName? {tokens : List Token} {text : List Char}
    (h : declaredName? tokens = some text) :
    ∃ name ∈ tokens, name.isIdentifier = true ∧ text = name.text := by
  simp only [declaredName?] at h
  split at h
  · rename_i name hname
    split at h
    · rename_i identifier
      cases h
      exact ⟨name, (List.dropWhile_sublist _).mem (List.mem_of_find?_eq_some hname),
        identifier, rfl⟩
    · cases h
  · cases h

/-- If the search steps over the name, it goes on with what follows. -/
theorem declaredName?_of_overlooks {tokens marks more : List Token} {name : Token}
    (named : NamedBy tokens marks name more) (missed : overlooks marks name = true) :
    declaredName? tokens = declaredName? more := by
  cases named with
  | @mk words _ _ _ keywords asterisks identifier =>
      simp only [overlooks, Bool.and_eq_true, List.isEmpty_iff] at missed
      obtain ⟨rfl, skipped⟩ := missed
      have skip : (name :: more).dropWhile (·.isWordIn ["async", "function", "class"]) =
          more.dropWhile (·.isWordIn ["async", "function", "class"]) :=
        List.dropWhile_cons_of_pos skipped
      rw [List.append_nil, declaredName?_append keywords]
      simp only [declaredName?, skip]

end Declaration

end ScriptConsole
