import ScriptConsole.Text.Blank
import ScriptConsole.Text.Identifier
import ScriptConsole.Text.Search

/-!
# Import declarations

An import declaration binds names to exports of a module.  It may bind the
default export, the whole module, or a group of exports by name, and it may
carry an attribute clause.  Code may follow it on the next line.
-/

namespace ScriptConsole.Import

/-- A name that a group imports: the name of the export and, if it is bound
under another one, that name. -/
structure Entry where
  exported : List Char
  rename : Option (List Char)
  deriving DecidableEq, Repr

def Entry.localName (entry : Entry) : List Char :=
  entry.rename.getD entry.exported

structure Clause where
  defaultName : Option (List Char)
  moduleName : Option (List Char)
  entries : List Entry
  deriving DecidableEq, Repr

/-- An import declaration and the code on the lines after it. -/
structure Declaration where
  clause : Clause
  /-- The module, in its quotes. -/
  specifier : List Char
  /-- The attribute clause with the blanks before it. -/
  attributes : List Char
  /-- Code on the following lines, from its first line break. -/
  tail : List Char
  deriving DecidableEq, Repr

/-! ## Reading -/

/-- What follows a keyword that opens a text. -/
def keyword? (word : String) (cs : List Char) : Option (List Char) :=
  match Text.afterWord? word.toList cs with
  | some rest => if rest.head?.any Text.isIdentContinue then none else some rest
  | none => none

/-- The identifier that opens a text, and what follows it. -/
def name? : List Char → Option (List Char × List Char)
  | [] => none
  | c :: cs =>
      if Text.isIdentStart c then
        some (c :: cs.takeWhile Text.isIdentContinue, cs.dropWhile Text.isIdentContinue)
      else none

/-- Quoted text after its opening quote, up to and including the closing one. -/
def quotedMore? (quote : Char) (escaped : Bool) :
    List Char → Option (List Char × List Char)
  | [] => none
  | c :: cs =>
      if !escaped && c == quote then some ([c], cs)
      else
        (quotedMore? quote (!escaped && c == '\\') cs).map fun parts =>
          (c :: parts.1, parts.2)

/-- The quoted text that opens a text, in its quotes, and what follows it. -/
def quoted? : List Char → Option (List Char × List Char)
  | [] => none
  | c :: cs =>
      if c = '\'' ∨ c = '"' then
        (quotedMore? c false cs).map fun parts => (c :: parts.1, parts.2)
      else none

/-- Inside quoted text: its quote, and whether a backslash came before. -/
structure Quotation where
  quote : Char
  escaped : Bool
  deriving DecidableEq, Repr

/-- A group in curly brackets after `depth` of them have opened, up to and
including the last closing one.  Quoted text hides brackets. -/
def braceGroup? (depth : Nat) (within : Option Quotation) :
    List Char → Option (List Char × List Char)
  | [] => none
  | c :: cs =>
      let further depth within :=
        (braceGroup? depth within cs).map fun parts => (c :: parts.1, parts.2)
      match within with
      | some ⟨quote, true⟩ => further depth (some ⟨quote, false⟩)
      | some ⟨quote, false⟩ =>
          if c = '\\' then further depth (some ⟨quote, true⟩)
          else if c = quote then further depth none
          else further depth (some ⟨quote, false⟩)
      | none =>
          if c = '\'' ∨ c = '"' then further depth (some ⟨c, false⟩)
          else if c = '{' then further (depth + 1) none
          else if c = '}' then
            if depth ≤ 1 then some ([c], cs) else further (depth - 1) none
          else further depth none

/-- The group in curly brackets that opens a text, and what follows it. -/
def braced? : List Char → Option (List Char × List Char)
  | '{' :: cs => (braceGroup? 1 none cs).map fun parts => ('{' :: parts.1, parts.2)
  | _ => none

/-- The name that opens an entry of a group: an identifier or quoted text. -/
def exportName? (cs : List Char) : Option (List Char × List Char) :=
  match cs.head? with
  | some '\'' | some '"' => quoted? cs
  | _ => name? cs

/-- Whether the word `type` has been read as a mark of a type entry and not as a
name: another name follows it. -/
def marksType (word : List Char) (cs : List Char) : Bool :=
  word == "type".toList && (keyword? "as" cs).isNone && cs.head?.any Text.isIdentStart

/-- An entry of a group, none for a type entry, and what follows it. -/
def entry? (cs : List Char) : Option (Option Entry × List Char) := do
  let (exported, rest) ← exportName? cs
  let rest := Text.trimStart rest
  if marksType exported rest then
    let (_, rest) ← name? rest
    some (none, rest)
  else
    match keyword? "as" rest with
    | some rest =>
        let (rename, rest) ← name? (Text.trimStart rest)
        some (some ⟨exported, some rename⟩, rest)
    | none => some (some ⟨exported, none⟩, rest)

theorem keyword?_length_lt {word : String} {cs rest : List Char}
    (hw : word.toList ≠ []) (h : keyword? word cs = some rest) :
    rest.length < cs.length := by
  unfold keyword? at h
  split at h
  · rename_i after ha
    split at h
    · simp at h
    · have e := congrArg List.length (Text.eq_append_of_afterWord? ha)
      have := List.length_pos_iff.2 hw
      simp only [Option.some.injEq] at h
      subst h
      simp only [List.length_append] at e
      omega
  · simp at h

theorem name?_length_lt {cs name rest : List Char} (h : name? cs = some (name, rest)) :
    rest.length < cs.length := by
  cases cs with
  | nil => simp [name?] at h
  | cons c cs =>
      simp only [name?] at h
      split at h
      · simp only [Option.some.injEq, Prod.mk.injEq] at h
        rw [← h.2, List.length_cons]
        exact Nat.lt_succ_of_le (List.dropWhile_suffix _).length_le
      · simp at h

theorem quotedMore?_length_lt {quote : Char} {escaped : Bool} {cs text rest : List Char}
    (h : quotedMore? quote escaped cs = some (text, rest)) : rest.length < cs.length := by
  induction cs generalizing escaped text with
  | nil => simp [quotedMore?] at h
  | cons c cs ih =>
      simp only [quotedMore?] at h
      split at h
      · simp only [Option.some.injEq, Prod.mk.injEq] at h
        simp [← h.2]
      · obtain ⟨⟨first, second⟩, hq, he⟩ := Option.map_eq_some_iff.1 h
        simp only [Prod.mk.injEq] at he
        obtain ⟨-, rfl⟩ := he
        exact Nat.lt_succ_of_lt (ih hq)

theorem quoted?_length_lt {cs text rest : List Char}
    (h : quoted? cs = some (text, rest)) : rest.length < cs.length := by
  cases cs with
  | nil => simp [quoted?] at h
  | cons c cs =>
      simp only [quoted?] at h
      split at h
      · obtain ⟨⟨first, second⟩, hq, he⟩ := Option.map_eq_some_iff.1 h
        simp only [Prod.mk.injEq] at he
        have := quotedMore?_length_lt hq
        rw [← he.2, List.length_cons]
        omega
      · simp at h

theorem exportName?_length_lt {cs text rest : List Char}
    (h : exportName? cs = some (text, rest)) : rest.length < cs.length := by
  unfold exportName? at h
  split at h
  · exact quoted?_length_lt h
  · exact quoted?_length_lt h
  · exact name?_length_lt h

theorem entry?_length_lt {cs rest : List Char} {entry : Option Entry}
    (h : entry? cs = some (entry, rest)) : rest.length < cs.length := by
  unfold entry? at h
  simp only [Option.bind_eq_bind, Option.bind_eq_some_iff] at h
  obtain ⟨⟨exported, after⟩, he, h⟩ := h
  have hexp := exportName?_length_lt he
  have htrim := Text.trimStart_length_le after
  simp only at h
  split at h
  · simp only [Option.bind_eq_some_iff, Option.some.injEq, Prod.mk.injEq] at h
    obtain ⟨⟨name, more⟩, hn, -, rfl⟩ := h
    have := name?_length_lt hn
    dsimp only
    omega
  · split at h
    · rename_i more hk
      simp only [Option.bind_eq_some_iff, Option.some.injEq, Prod.mk.injEq] at h
      obtain ⟨⟨name, last⟩, hn, -, rfl⟩ := h
      have hname := name?_length_lt hn
      have hmore := Text.trimStart_length_le more
      have hkey := keyword?_length_lt (by simp) hk
      dsimp only
      omega
    · simp only [Option.some.injEq, Prod.mk.injEq] at h
      rw [← h.2]
      omega

/-- The entries of a group after its opening bracket, up to and including its
closing one, and what follows it. -/
def entries? (cs : List Char) : Option (List Entry × List Char) :=
  if (Text.trimStart cs).head? = some '}' then some ([], (Text.trimStart cs).tail)
  else
    match _h : entry? (Text.trimStart cs) with
    | none => none
    | some (entry, rest) =>
        match _ht : Text.trimStart rest with
        | ',' :: more =>
            match entries? more with
            | some (others, after) => some (entry.toList ++ others, after)
            | none => none
        | '}' :: after => some (entry.toList, after)
        | _ => none
termination_by cs.length
decreasing_by
  have hentry := entry?_length_lt _h
  have hcs := Text.trimStart_length_le cs
  have hrest := Text.trimStart_length_le rest
  rw [_ht, List.length_cons] at hrest
  omega

/-- Whether a clause after the keyword is marked as importing types alone. -/
def isTypeOnly (cs : List Char) : Bool :=
  match keyword? "type" cs with
  | none => false
  | some rest =>
      let rest := Text.trimStart rest
      (keyword? "from" rest).isNone &&
        rest.head?.any fun c => c == '{' || c == '*' || Text.isIdentStart c

/-- The default name that may open a clause, and what follows it.  After its
comma only a whole module or a group may follow. -/
def defaultName? (cs : List Char) : Option (Option (List Char) × List Char) :=
  if cs.head?.any Text.isIdentStart then do
    let (name, rest) ← name? cs
    match Text.trimStart rest with
    | ',' :: rest =>
        let rest := Text.trimStart rest
        if rest.head? = some '*' ∨ rest.head? = some '{' then some (some name, rest)
        else none
    | rest => some (some name, rest)
  else some (none, cs)

/-- The clause that opens a text, and what follows it. -/
def clause? (cs : List Char) : Option (Clause × List Char) := do
  let (defaultName, rest) ← defaultName? cs
  match rest with
  | '*' :: rest =>
      let rest ← keyword? "as" (Text.trimStart rest)
      let (name, rest) ← name? (Text.trimStart rest)
      some (⟨defaultName, some name, []⟩, rest)
  | '{' :: rest =>
      let (entries, rest) ← entries? rest
      some (⟨defaultName, none, entries⟩, rest)
  | rest => some (⟨defaultName, none, []⟩, rest)

/-- The attribute clause after a specifier with the blanks before it, and what
follows it.  None if its group is not closed. -/
def attributes? (cs : List Char) : Option (List Char × List Char) :=
  let start := Text.trimStart cs
  match (keyword? "with" start).or (keyword? "assert" start) with
  | none => some ([], cs)
  | some rest => do
      let (_, after) ← braced? (Text.trimStart rest)
      some (cs.take (cs.length - after.length), after)

/-- Code after a declaration has to begin on a new line. -/
def tail? (cs : List Char) : Option (List Char) :=
  if Text.isAllBlank cs then some []
  else
    match (cs.dropWhile fun c => c == ' ' || c == '\t').head? with
    | some '\n' | some '\r' => some (Text.trimEnd cs)
    | _ => none

def Clause.bindsName (clause : Clause) : Bool :=
  clause.defaultName.isSome || clause.moduleName.isSome || !clause.entries.isEmpty

/-- The rest of a declaration after its keyword. -/
def afterKeyword? (cs : List Char) : Option Declaration :=
  if cs.head?.any fun c => c == '(' || c == '.' || c == '\'' || c == '"' then none
  else if isTypeOnly cs then none
  else do
    let (clause, rest) ← clause? cs
    let rest ← keyword? "from" (Text.trimStart rest)
    let (specifier, rest) ← quoted? (Text.trimStart rest)
    let (attributes, rest) ← attributes? rest
    let tail ← tail? rest
    if clause.bindsName then some ⟨clause, specifier, attributes, tail⟩ else none

/-- Read one statement without semicolons.  None if it is not a declaration that
binds names. -/
def parse? (statement : List Char) : Option Declaration :=
  match keyword? "import" statement with
  | none => none
  | some rest => afterKeyword? (Text.trimStart rest)

def opensWithImport (source : List Char) : Bool :=
  (keyword? "import" (Text.trimStart source)).isSome

end ScriptConsole.Import
