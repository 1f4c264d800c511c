import ScriptConsole.Import

/-!
# Rewriting imports

A compiler that strips types drops imports whose names are not used in the same
unit.  Every name is therefore imported under a generated one and declared again
with `var`, which the compiler has to keep.  A statement is cut at its
semicolons; a piece that is a declaration is rewritten together with the code on
the lines after it, every other piece is kept.
-/

namespace ScriptConsole.Import

/-- How a name is bound by its clause. -/
inductive BindingKind where
  | defaultExport
  | wholeModule
  | named (exported : List Char) (rename : Option (List Char))
  deriving DecidableEq, Repr

/-- A name bound by a rewritten declaration. -/
structure Binding where
  localName : List Char
  specifier : List Char
  kind : BindingKind
  deriving DecidableEq, Repr

/-- The name under which the export of a local name is imported. -/
def generatedName (localName : List Char) : List Char :=
  "repl_".toList ++ localName

namespace Binding

def generated (binding : Binding) : List Char :=
  generatedName binding.localName

def declareLocal (binding : Binding) : List Char :=
  "var ".toList ++ binding.localName ++ " = ".toList ++ binding.generated

end Binding

namespace Declaration

/-- The names that a declaration binds, in order. -/
def bindings (declaration : Declaration) : List Binding :=
  (declaration.clause.defaultName.map fun name =>
      ⟨name, declaration.specifier, .defaultExport⟩).toList ++
    (declaration.clause.moduleName.map fun name =>
      ⟨name, declaration.specifier, .wholeModule⟩).toList ++
    declaration.clause.entries.map fun entry =>
      ⟨entry.localName, declaration.specifier, .named entry.exported entry.rename⟩

end Declaration

namespace Entry

def render (entry : Entry) : List Char :=
  entry.exported ++ " as ".toList ++ generatedName entry.localName

end Entry

namespace Clause

/-- A group of entries under their generated names, none if it is empty. -/
def renderGroup? : List Entry → Option (List Char)
  | [] => none
  | entries => some ('{' :: List.intercalate [','] (entries.map Entry.render) ++ ['}'])

def render (clause : Clause) : List Char :=
  List.intercalate [',']
    ((clause.defaultName.map generatedName).toList ++
      (clause.moduleName.map fun name => "* as ".toList ++ generatedName name).toList ++
      (renderGroup? clause.entries).toList)

end Clause

namespace Declaration

def renderImport (declaration : Declaration) : List Char :=
  "import ".toList ++ declaration.clause.render ++ " from ".toList ++
    declaration.specifier ++ declaration.attributes

/-- A declaration under its generated names and then its local names. -/
def render (declaration : Declaration) : List Char :=
  declaration.renderImport ++ "; ".toList ++
    List.intercalate "; ".toList (declaration.bindings.map Binding.declareLocal)

end Declaration

inductive Segment where
  /-- Code that is kept. -/
  | code (text : List Char)
  /-- A declaration without the code after it. -/
  | importing (declaration : Declaration)
  deriving DecidableEq, Repr

namespace Segment

def render : Segment → List Char
  | code text => text
  | importing declaration => declaration.render

def bindings : Segment → List Binding
  | code _ => []
  | importing declaration => declaration.bindings

end Segment

theorem length_le_of_mem_cutAtChar {separator : Char} {cs piece : List Char}
    (h : piece ∈ Text.cutAtChar separator cs) : piece.length ≤ cs.length := by
  induction cs generalizing piece with
  | nil => simp_all [Text.cutAtChar]
  | cons c cs ih =>
      simp only [Text.cutAtChar] at h
      split at h
      · rcases List.mem_cons.1 h with rfl | h
        · simp
        · exact Nat.le_succ_of_le (ih h)
      · split at h
        · simp_all
        · rename_i first others hcut
          rw [hcut] at ih
          rcases List.mem_cons.1 h with rfl | h
          · simpa using ih List.mem_cons_self
          · exact Nat.le_succ_of_le (ih (List.mem_cons_of_mem _ h))

theorem defaultName?_length_le {cs rest : List Char} {name : Option (List Char)}
    (h : defaultName? cs = some (name, rest)) : rest.length ≤ cs.length := by
  unfold defaultName? at h
  split at h
  · simp only [Option.bind_eq_bind, Option.bind_eq_some_iff] at h
    obtain ⟨⟨first, after⟩, hn, h⟩ := h
    have hname := name?_length_lt hn
    have htrim := Text.trimStart_length_le after
    dsimp only at h
    split at h
    · rename_i more hcomma
      rw [hcomma, List.length_cons] at htrim
      have hmore := Text.trimStart_length_le more
      split at h
      · simp only [Option.some.injEq, Prod.mk.injEq] at h
        rw [← h.2]
        omega
      · simp at h
    · simp only [Option.some.injEq, Prod.mk.injEq] at h
      rw [← h.2]
      omega
  · simp only [Option.some.injEq, Prod.mk.injEq] at h
    exact Nat.le_of_eq (congrArg List.length h.2.symm)

theorem entries?_length_le {cs rest : List Char} {entries : List Entry}
    (h : entries? cs = some (entries, rest)) : rest.length ≤ cs.length := by
  fun_induction entries? cs generalizing entries rest with
  | case1 cs hclose =>
      simp only [Option.some.injEq, Prod.mk.injEq] at h
      rw [← h.2, List.length_tail]
      have := Text.trimStart_length_le cs
      omega
  | case2 => simp at h
  | case3 cs _ entry after hentry more hcomma others last hmore ih =>
      simp only [Option.some.injEq, Prod.mk.injEq] at h
      have hlast := ih hmore
      have h1 := entry?_length_lt hentry
      have h2 := Text.trimStart_length_le cs
      have h3 := Text.trimStart_length_le after
      rw [hcomma, List.length_cons] at h3
      rw [← h.2]
      omega
  | case4 => simp at h
  | case5 cs _ entry after hentry last hclose =>
      simp only [Option.some.injEq, Prod.mk.injEq] at h
      have h1 := entry?_length_lt hentry
      have h2 := Text.trimStart_length_le cs
      have h3 := Text.trimStart_length_le after
      rw [hclose, List.length_cons] at h3
      rw [← h.2]
      omega
  | case6 => simp at h

theorem clause?_length_le {cs rest : List Char} {clause : Clause}
    (h : clause? cs = some (clause, rest)) : rest.length ≤ cs.length := by
  unfold clause? at h
  simp only [Option.bind_eq_bind, Option.bind_eq_some_iff] at h
  obtain ⟨⟨name, after⟩, hd, h⟩ := h
  have hname := defaultName?_length_le hd
  dsimp only at h
  split at h
  · rename_i more
    simp only [Option.bind_eq_some_iff, Option.some.injEq, Prod.mk.injEq] at h
    obtain ⟨afterAs, has, ⟨moduleName, last⟩, hn, -, rfl⟩ := h
    have h1 := keyword?_length_lt (by simp) has
    have h2 := Text.trimStart_length_le more
    have h3 := name?_length_lt hn
    have h4 := Text.trimStart_length_le afterAs
    simp only [List.length_cons] at hname ⊢
    omega
  · rename_i more
    simp only [Option.bind_eq_some_iff, Option.some.injEq, Prod.mk.injEq] at h
    obtain ⟨⟨entries, last⟩, he, -, rfl⟩ := h
    have h1 := entries?_length_le he
    simp only [List.length_cons] at hname ⊢
    omega
  · simp only [Option.some.injEq, Prod.mk.injEq] at h
    rw [← h.2]
    exact hname

theorem braceGroup?_length_le {depth : Nat} {within : Option Quotation}
    {cs text rest : List Char} (h : braceGroup? depth within cs = some (text, rest)) :
    rest.length ≤ cs.length := by
  induction cs generalizing depth within text with
  | nil => simp [braceGroup?] at h
  | cons c cs ih =>
      have further : ∀ {depth within},
          (braceGroup? depth within cs).map (fun parts => (c :: parts.1, parts.2)) =
            some (text, rest) → rest.length ≤ (c :: cs).length := by
        intro depth within hmap
        obtain ⟨⟨first, second⟩, hb, he⟩ := Option.map_eq_some_iff.1 hmap
        simp only [Prod.mk.injEq] at he
        obtain ⟨-, rfl⟩ := he
        exact Nat.le_succ_of_le (ih hb)
      simp only [braceGroup?] at h
      split at h
      · exact further h
      · split at h
        · exact further h
        · split at h <;> exact further h
      · split at h
        · exact further h
        · split at h
          · exact further h
          · split at h
            · split at h
              · simp only [Option.some.injEq, Prod.mk.injEq] at h
                simp [← h.2]
              · exact further h
            · exact further h

theorem braced?_length_le {cs text rest : List Char}
    (h : braced? cs = some (text, rest)) : rest.length ≤ cs.length := by
  unfold braced? at h
  split at h
  · obtain ⟨⟨first, second⟩, hb, he⟩ := Option.map_eq_some_iff.1 h
    simp only [Prod.mk.injEq] at he
    obtain ⟨-, rfl⟩ := he
    exact Nat.le_succ_of_le (braceGroup?_length_le hb)
  · simp at h

theorem attributes?_length_le {cs text rest : List Char}
    (h : attributes? cs = some (text, rest)) : rest.length ≤ cs.length := by
  unfold attributes? at h
  dsimp only at h
  split at h
  · simp only [Option.some.injEq, Prod.mk.injEq] at h
    exact Nat.le_of_eq (congrArg List.length h.2.symm)
  · rename_i after hk
    simp only [Option.bind_eq_bind, Option.bind_eq_some_iff, Option.some.injEq,
      Prod.mk.injEq] at h
    obtain ⟨⟨group, last⟩, hb, -, rfl⟩ := h
    have h1 := braced?_length_le hb
    have h2 := Text.trimStart_length_le after
    have h3 := Text.trimStart_length_le cs
    have h4 : after.length ≤ (Text.trimStart cs).length := by
      rcases Option.or_eq_some_iff.1 hk with hw | ⟨-, ha⟩
      · exact Nat.le_of_lt (keyword?_length_lt (by simp) hw)
      · exact Nat.le_of_lt (keyword?_length_lt (by simp) ha)
    dsimp only
    omega

theorem tail?_length_le {cs tail : List Char} (h : tail? cs = some tail) :
    tail.length ≤ cs.length := by
  unfold tail? at h
  split at h
  · simp only [Option.some.injEq] at h
    simp [← h]
  · split at h
    · simp only [Option.some.injEq] at h
      rw [← h]
      exact Text.trimEnd_length_le cs
    · simp only [Option.some.injEq] at h
      rw [← h]
      exact Text.trimEnd_length_le cs
    · simp at h

/-- The code after a declaration is shorter than the statement it ends. -/
theorem tail_length_lt_of_parse? {statement : List Char} {declaration : Declaration}
    (h : parse? statement = some declaration) :
    declaration.tail.length < statement.length := by
  unfold parse? at h
  split at h
  · simp at h
  · rename_i afterImport hi
    have himport := keyword?_length_lt (by simp) hi
    have htrim := Text.trimStart_length_le afterImport
    unfold afterKeyword? at h
    split at h
    · simp at h
    · split at h
      · simp at h
      · simp only [Option.bind_eq_bind, Option.bind_eq_some_iff] at h
        obtain ⟨⟨clause, r1⟩, hc, r2, hf, ⟨specifier, r3⟩, hs, ⟨attributes, r4⟩, ha, tail,
          ht, h⟩ := h
        have h1 := clause?_length_le hc
        have h2 := keyword?_length_lt (by simp) hf
        have h3 := Text.trimStart_length_le r1
        have h4 := quoted?_length_lt hs
        have h5 := Text.trimStart_length_le r2
        have h6 := attributes?_length_le ha
        have h7 := tail?_length_le ht
        split at h
        · simp only [Option.some.injEq] at h
          subst h
          dsimp only at *
          omega
        · simp at h

/-- The segments of a statement.  The code on the lines after a declaration
follows its local names. -/
def segments (statement : List Char) : List Segment :=
  if opensWithImport statement then
    List.intercalate [.code "; ".toList]
      ((Text.cutAtChar ';' statement).attach.map fun piece =>
        match _h : parse? (Text.trim piece.1) with
        | none => [.code (Text.trim piece.1)]
        | some declaration =>
            .importing declaration ::
              if declaration.tail.isEmpty then []
              else
                .code (';' :: Text.indent declaration.tail) ::
                  segments (Text.trimStart declaration.tail))
  else [.code statement]
termination_by statement.length
decreasing_by
  have h1 := tail_length_lt_of_parse? _h
  have h2 := Text.trim_length_le piece.1
  have h3 := length_le_of_mem_cutAtChar piece.2
  have h4 := Text.trimStart_length_le declaration.tail
  omega

def rewrite (statement : List Char) : List Char :=
  (segments statement).flatMap Segment.render

/-- The names that rewriting a statement binds, in order. -/
def bindings (statement : List Char) : List Binding :=
  (segments statement).flatMap Segment.bindings

theorem rewrite_of_not_opensWithImport {statement : List Char}
    (h : opensWithImport statement = false) : rewrite statement = statement := by
  rw [rewrite, segments]
  simp [h, Segment.render]

end ScriptConsole.Import
