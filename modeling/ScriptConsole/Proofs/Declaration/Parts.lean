import ScriptConsole.Proofs.Pattern.Names
import ScriptConsole.Declaration

/-!
# Where declarations are cut

A declaration is cut at punctuators outside its brackets.  The parts and the
marks between them are the declaration, so that every pattern and every
initializer is a run of its own tokens.
-/

namespace ScriptConsole.Declaration

theorem eq_append_of_splitAtTop? {text : String} {depth : Nat}
    {tokens left right : List Token} (h : splitAtTop? text depth tokens = some (left, right)) :
    ∃ mark : Token, tokens = left ++ mark :: right ∧ mark.isPunctuator text = true ∧
      left.foldl depthAfter depth = 0 := by
  induction tokens generalizing depth left with
  | nil => cases h
  | cons token rest ih =>
      rw [splitAtTop?] at h
      split at h
      · rename_i hmark
        cases h
        exact ⟨token, rfl, hmark.2, hmark.1⟩
      · obtain ⟨⟨first, second⟩, hsplit, hparts⟩ := Option.map_eq_some_iff.1 h
        cases hparts
        obtain ⟨mark, rfl, hmark, hdepth⟩ := ih hsplit
        exact ⟨mark, rfl, hmark, hdepth⟩

theorem partsAtTop_ne_nil (text : String) (depth : Nat) (tokens : List Token) :
    partsAtTop text depth tokens ≠ [] := by
  cases tokens with
  | nil => exact List.cons_ne_nil _ _
  | cons token rest =>
      rw [partsAtTop]
      split
      · exact List.cons_ne_nil _ _
      · split <;> exact List.cons_ne_nil _ _

/-- The first part of a run is all of it, or ends before a punctuator outside
brackets that the other parts follow. -/
theorem cases_of_partsAtTop {text : String} {depth : Nat} {tokens part : List Token}
    {parts : List (List Token)} (h : partsAtTop text depth tokens = part :: parts) :
    (tokens = part ∧ parts = []) ∨
      ∃ (mark : Token) (rest : List Token), tokens = part ++ mark :: rest ∧
        mark.isPunctuator text = true ∧ part.foldl depthAfter depth = 0 ∧
        partsAtTop text 0 rest = parts := by
  induction tokens generalizing depth part with
  | nil =>
      cases h
      exact .inl ⟨rfl, rfl⟩
  | cons token rest ih =>
      rw [partsAtTop] at h
      split at h
      · rename_i hmark
        cases h
        exact .inr ⟨token, rest, rfl, hmark.2, hmark.1, rfl⟩
      · cases hparts : partsAtTop text (depthAfter depth token) rest with
        | nil => exact absurd hparts (partsAtTop_ne_nil _ _ _)
        | cons first others =>
            rw [hparts] at h
            cases h
            rcases ih hparts with ⟨rfl, rfl⟩ | ⟨mark, after, rfl, hmark, hdepth, hrest⟩
            · exact .inl ⟨rfl, rfl⟩
            · exact .inr ⟨mark, after, rfl, hmark, hdepth, hrest⟩

theorem infix_of_mem_partsAtTop {text : String} {depth : Nat} {tokens part : List Token}
    (h : part ∈ partsAtTop text depth tokens) : part <:+: tokens := by
  induction hparts : partsAtTop text depth tokens generalizing depth tokens with
  | nil => simp [hparts] at h
  | cons first others ih =>
      rw [hparts, List.mem_cons] at h
      rcases cases_of_partsAtTop hparts with ⟨rfl, rfl⟩ | ⟨mark, rest, rfl, -, -, hrest⟩
      · exact h.resolve_right List.not_mem_nil ▸ List.infix_refl _
      · rcases h with rfl | hmem
        · exact (List.prefix_append _ _).isInfix
        · have inside : part <:+: rest := ih (hrest ▸ hmem) hrest
          exact inside.trans ⟨first ++ [mark], [], by simp⟩

/-- The last part of a run is all of it, or follows a punctuator that the other parts
stand before. -/
theorem cases_of_partsAtTop_concat {text : String} {depth : Nat} {tokens last : List Token}
    {parts : List (List Token)} (h : partsAtTop text depth tokens = parts ++ [last]) :
    (parts = [] ∧ tokens = last) ∨
      ∃ (before : List Token) (mark : Token), tokens = before ++ mark :: last ∧
        mark.isPunctuator text = true ∧ ∀ part ∈ parts, part ⊆ before := by
  induction parts generalizing depth tokens with
  | nil =>
      rcases cases_of_partsAtTop h with ⟨rfl, -⟩ | ⟨mark, rest, -, -, -, hrest⟩
      · exact .inl ⟨rfl, rfl⟩
      · exact absurd hrest (partsAtTop_ne_nil _ _ _)
  | cons part parts ih =>
      rcases cases_of_partsAtTop h with ⟨-, nothing⟩ | ⟨mark, rest, rfl, hmark, -, hrest⟩
      · cases parts <;> cases nothing
      · refine .inr ?_
        rcases ih hrest with ⟨rfl, rfl⟩ | ⟨before, mark', rfl, hmark', inside⟩
        · exact ⟨part, mark, rfl, hmark, by simp⟩
        · refine ⟨part ++ mark :: before, mark', by simp, hmark', ?_⟩
          rw [List.forall_mem_cons]
          refine ⟨List.subset_append_left _ _, fun other mem => ?_⟩
          exact List.Subset.trans (inside other mem)
            (List.Subset.trans (List.subset_cons_self _ _) (List.subset_append_right _ _))

/-- A pattern, an equals sign and an initializer are tokens of their declarator
next to each other. -/
theorem eq_append_of_mem_assignments {tokens : List Token} {declaration : Declaration}
    (h : ofDeclarator? tokens = some declaration) {assignment : Assignment}
    (mem : assignment ∈ declaration.assignments) :
    assignment.pattern ≠ [] ∧ assignment.initializer ≠ [] ∧
      ∃ mark : Token, mark.isPunctuator "=" = true ∧
        tokens = assignment.pattern ++ mark :: assignment.initializer := by
  unfold ofDeclarator? at h
  split at h
  · cases h
    cases mem
  · cases h
  · cases h
    cases mem
  · rename_i pattern initializer hnonempty hvalue hsplit
    cases h
    rw [List.mem_singleton] at mem
    subst mem
    obtain ⟨mark, htokens, hmark, -⟩ := eq_append_of_splitAtTop? hsplit
    exact ⟨hnonempty, hvalue, mark, hmark, htokens⟩

theorem exists_of_ofDeclarators?_cons {tokens : List Token} {others : List (List Token)}
    {declaration : Declaration} (h : ofDeclarators? (tokens :: others) = some declaration) :
    ∃ left right, ofDeclarator? tokens = some left ∧ ofDeclarators? others = some right ∧
      declaration = left.append right := by
  simp only [ofDeclarators?, Option.bind_eq_bind, Option.bind_eq_some_iff] at h
  obtain ⟨left, hleft, right, hright, hboth⟩ := h
  cases hboth
  exact ⟨left, right, hleft, hright, rfl⟩

theorem mem_assignments_of_ofDeclarators? {declarators : List (List Token)}
    {declaration : Declaration} (h : ofDeclarators? declarators = some declaration)
    {assignment : Assignment} (mem : assignment ∈ declaration.assignments) :
    ∃ tokens ∈ declarators, ∃ single, ofDeclarator? tokens = some single ∧
      assignment ∈ single.assignments := by
  induction declarators generalizing declaration with
  | nil =>
      cases h
      cases mem
  | cons tokens others ih =>
      obtain ⟨left, right, hleft, hright, rfl⟩ := exists_of_ofDeclarators?_cons h
      rcases List.mem_append.1 mem with inLeft | inRight
      · exact ⟨tokens, List.mem_cons_self, left, hleft, inLeft⟩
      · obtain ⟨other, hother, single, hsingle, hmem⟩ := ih hright inRight
        exact ⟨other, List.mem_cons_of_mem _ hother, single, hsingle, hmem⟩

/-- The last declarator makes the last assignments, and the others the earlier ones. -/
theorem exists_assignments_of_ofDeclarators? {declarators : List (List Token)}
    {last : List Token} {declaration : Declaration}
    (h : ofDeclarators? (declarators ++ [last]) = some declaration) :
    ∃ earlier single, declaration.assignments = earlier ++ single.assignments ∧
      ofDeclarator? last = some single ∧ ∀ assignment ∈ earlier, ∃ tokens ∈ declarators,
        ∃ other, ofDeclarator? tokens = some other ∧ assignment ∈ other.assignments := by
  induction declarators generalizing declaration with
  | nil =>
      obtain ⟨single, -, hsingle, ⟨⟩, rfl⟩ := exists_of_ofDeclarators?_cons h
      exact ⟨[], single, by simp [append], hsingle, by simp⟩
  | cons tokens declarators ih =>
      rw [List.cons_append] at h
      obtain ⟨left, right, hleft, hright, rfl⟩ := exists_of_ofDeclarators?_cons h
      obtain ⟨earlier, single, hassignments, hsingle, others⟩ := ih hright
      refine ⟨left.assignments ++ earlier, single, by simp [append, hassignments], hsingle, ?_⟩
      rw [List.forall_mem_append]
      refine ⟨fun assignment mem => ⟨tokens, List.mem_cons_self, left, hleft, mem⟩,
        fun assignment mem => ?_⟩
      obtain ⟨part, inParts, found⟩ := others assignment mem
      exact ⟨part, List.mem_cons_of_mem _ inParts, found⟩

theorem infix_of_mem_assignments {tokens : List Token} {declaration : Declaration}
    (parts : ofTokens? tokens = some declaration) {assignment : Assignment}
    (mem : assignment ∈ declaration.assignments) :
    assignment.pattern ≠ [] ∧ assignment.initializer ≠ [] ∧
      ∃ mark : Token, mark.isPunctuator "=" = true ∧
        assignment.pattern ++ mark :: assignment.initializer <:+: tokens := by
  obtain ⟨declarator, hdeclarator, single, hsingle, hmem⟩ :=
    mem_assignments_of_ofDeclarators? parts mem
  obtain ⟨hpattern, hinitializer, mark, hmark, rfl⟩ :=
    eq_append_of_mem_assignments hsingle hmem
  refine ⟨hpattern, hinitializer, mark, hmark, ?_⟩
  exact (infix_of_mem_partsAtTop hdeclarator).trans (List.tail_suffix tokens).isInfix

theorem exists_mem_of_mem_names {tokens : List Token} {name : List Char}
    (mem : name ∈ Pattern.names tokens) :
    ∃ token ∈ tokens, token.isIdentifier = true ∧ name = token.text := by
  obtain ⟨token, hbound, rfl⟩ := List.mem_map.1 mem
  have := Pattern.mem_of_mem_boundTokens hbound
  exact ⟨token, this.1, this.2, rfl⟩

theorem exists_mem_of_ofDeclarator? {tokens : List Token} {declaration : Declaration}
    (h : ofDeclarator? tokens = some declaration) {name : List Char}
    (mem : name ∈ declaration.names) :
    ∃ token ∈ tokens, token.isIdentifier = true ∧ name = token.text := by
  have ofPattern : ∀ {pattern value : List Token},
      splitAtTop? "=" 0 tokens = some (pattern, value) → name ∈ Pattern.names pattern →
      ∃ token ∈ tokens, token.isIdentifier = true ∧ name = token.text := by
    intro pattern value hsplit hname
    obtain ⟨equals, rfl, -, -⟩ := eq_append_of_splitAtTop? hsplit
    obtain ⟨token, hmem, identifier, htext⟩ := exists_mem_of_mem_names hname
    exact ⟨token, List.mem_append_left _ hmem, identifier, htext⟩
  unfold ofDeclarator? at h
  split at h
  · cases h
    exact exists_mem_of_mem_names mem
  · cases h
  · rename_i hsplit
    cases h
    exact ofPattern hsplit mem
  · rename_i hsplit
    cases h
    exact ofPattern hsplit mem

theorem exists_mem_of_ofDeclarators? {declarators : List (List Token)}
    {declaration : Declaration} (h : ofDeclarators? declarators = some declaration)
    {name : List Char} (mem : name ∈ declaration.names) :
    ∃ tokens ∈ declarators, ∃ token ∈ tokens,
      token.isIdentifier = true ∧ name = token.text := by
  induction declarators generalizing declaration with
  | nil =>
      cases h
      cases mem
  | cons tokens others ih =>
      obtain ⟨left, right, hleft, hright, rfl⟩ := exists_of_ofDeclarators?_cons h
      rcases List.mem_append.1 mem with inLeft | inRight
      · exact ⟨tokens, List.mem_cons_self, exists_mem_of_ofDeclarator? hleft inLeft⟩
      · obtain ⟨other, hother, found⟩ := ih hright inRight
        exact ⟨other, List.mem_cons_of_mem _ hother, found⟩

/-- The names that a declaration binds are identifiers of its own. -/
theorem exists_mem_of_ofTokens? {tokens : List Token} {declaration : Declaration}
    (h : ofTokens? tokens = some declaration) {name : List Char}
    (mem : name ∈ declaration.names) :
    ∃ token ∈ tokens, token.isIdentifier = true ∧ name = token.text := by
  obtain ⟨part, hpart, token, htoken, found⟩ := exists_mem_of_ofDeclarators? h mem
  have inside := (infix_of_mem_partsAtTop hpart).subset htoken
  exact ⟨token, (List.tail_sublist tokens).subset inside, found⟩

end ScriptConsole.Declaration
