import ScriptConsole.Completeness
import ScriptConsole.Declaration

/-!
# Nesting

A run of tokens is well nested when its brackets pair up by kind.  The stack of
brackets that a run leaves open decides this, gives the depth that the cutters
of statements and declarations count, and gives the verdict of the completeness
check.
-/

namespace ScriptConsole

namespace Token

/-- The brackets of a run pair up, each with one of its own kind. -/
inductive WellNested : List Token → Prop where
  | nil : WellNested []
  | plain {token : Token} {rest : List Token} (opens : token.opens? = none)
      (closes : token.closes? = none) (tail : WellNested rest) :
      WellNested (token :: rest)
  | group {opening closing : Token} {inner rest : List Token} {bracket : Bracket}
      (opens : opening.opens? = some bracket) (closes : closing.closes? = some bracket)
      (within : WellNested inner) (tail : WellNested rest) :
      WellNested (opening :: (inner ++ closing :: rest))

theorem isPunctuator_iff {token : Token} {text : String} :
    token.isPunctuator text = true ↔ token.kind = .punctuator ∧ token.text = text.toList := by
  simp [isPunctuator]

theorem isWord_iff {token : Token} {word : String} :
    token.isWord word = true ↔ token.kind = .identifier ∧ token.text = word.toList := by
  simp [isWord]

theorem isPunctuator_eq_false {token : Token} {text : String} {texts : List String}
    (mem : text ∈ texts) (other : token.isPunctuatorIn texts = false) :
    token.isPunctuator text = false := by
  simp only [isPunctuatorIn, Bool.and_eq_false_iff, List.any_eq_false] at other
  rw [isPunctuator, Bool.and_eq_false_iff]
  exact other.imp_right fun none => Bool.eq_false_iff.2 (none text mem)

/-- Commas and other marks between the parts of a source are no brackets. -/
theorem plain_of_isPunctuator {token : Token} {text : String}
    (mem : text ∈ [",", "=", ";", ":", "...", "?", "=>"]) (h : token.isPunctuator text = true) :
    token.opens? = none ∧ token.closes? = none := by
  rw [isPunctuator_iff] at h
  simp only [List.mem_cons, List.not_mem_nil, or_false] at mem
  rcases mem with rfl | rfl | rfl | rfl | rfl | rfl | rfl <;>
    simp [opens?, closes?, h, Bracket.ofOpening?, Bracket.ofClosing?]

theorem plain_of_kind {token : Token} (notMark : token.kind ≠ .punctuator) :
    token.opens? = none ∧ token.closes? = none := by
  constructor <;> rw [Option.eq_none_iff_forall_ne_some] <;> intro bracket found
  · exact notMark (opens?_eq_some_iff.1 found).1
  · exact notMark (closes?_eq_some_iff.1 found).1

theorem plain_of_isIdentifier {token : Token} (h : token.isIdentifier = true) :
    token.opens? = none ∧ token.closes? = none := by
  simp only [isIdentifier, beq_iff_eq] at h
  exact plain_of_kind (by simp [h])

theorem WellNested.mark {token : Token} {rest : List Token} {text : String}
    (mem : text ∈ [",", "=", ";", ":", "...", "?", "=>"]) (h : token.isPunctuator text = true)
    (tail : WellNested rest) : WellNested (token :: rest) :=
  .plain (plain_of_isPunctuator mem h).1 (plain_of_isPunctuator mem h).2 tail

/-- What is open after a bracket is closed; none if another one is innermost. -/
def close? (bracket : Bracket) : List Bracket → Option (List Bracket)
  | [] => none
  | first :: outer => if first = bracket then some outer else none

/-- The brackets that are open after a run that begins inside `brackets`,
innermost first; none if one is closed by a bracket of another kind. -/
def openAfter? (brackets : List Bracket) : List Token → Option (List Bracket)
  | [] => some brackets
  | token :: rest =>
      match token.opens? with
      | some bracket => openAfter? (bracket :: brackets) rest
      | none =>
          match token.closes? with
          | some bracket => (close? bracket brackets).bind fun outer => openAfter? outer rest
          | none => openAfter? brackets rest

theorem close?_eq_some_iff {bracket : Bracket} {brackets outer : List Bracket} :
    close? bracket brackets = some outer ↔ brackets = bracket :: outer := by
  cases brackets with
  | nil => simp [close?]
  | cons first rest => by_cases same : first = bracket <;> simp [close?, same]

@[simp] theorem close?_self (bracket : Bracket) (outer : List Bracket) :
    close? bracket (bracket :: outer) = some outer := by
  simp [close?]

@[simp] theorem openAfter?_nil (brackets : List Bracket) :
    openAfter? brackets [] = some brackets := rfl

theorem openAfter?_cons_of_opens {token : Token} {bracket : Bracket}
    (opens : token.opens? = some bracket) (brackets : List Bracket) (rest : List Token) :
    openAfter? brackets (token :: rest) = openAfter? (bracket :: brackets) rest := by
  simp [openAfter?, opens]

theorem openAfter?_cons_of_closes {token : Token} {bracket : Bracket}
    (closes : token.closes? = some bracket) (brackets : List Bracket)
    (rest : List Token) :
    openAfter? brackets (token :: rest) =
      (close? bracket brackets).bind fun outer => openAfter? outer rest := by
  simp [openAfter?, opens?_eq_none_of_closes? closes, closes]

theorem openAfter?_cons_of_plain {token : Token} (opens : token.opens? = none)
    (closes : token.closes? = none) (brackets : List Bracket) (rest : List Token) :
    openAfter? brackets (token :: rest) = openAfter? brackets rest := by
  simp [openAfter?, opens, closes]

theorem openAfter?_append (brackets : List Bracket) (left right : List Token) :
    openAfter? brackets (left ++ right) =
      (openAfter? brackets left).bind fun inner => openAfter? inner right := by
  induction left generalizing brackets with
  | nil => rfl
  | cons token left ih =>
      simp only [List.cons_append, openAfter?]
      split
      · exact ih _
      · split
        · simp only [ih, Option.bind_assoc]
        · exact ih _

theorem openAfter?_cons (brackets : List Bracket) (token : Token) (rest : List Token) :
    openAfter? brackets (token :: rest) =
      (openAfter? brackets [token]).bind fun next => openAfter? next rest :=
  openAfter?_append brackets [token] rest

/-- Brackets further out than those that a run closes do not matter to it. -/
theorem openAfter?_append_outer {brackets inner : List Bracket} {tokens : List Token}
    (h : openAfter? brackets tokens = some inner) (outer : List Bracket) :
    openAfter? (brackets ++ outer) tokens = some (inner ++ outer) := by
  induction tokens generalizing brackets with
  | nil =>
      simp only [openAfter?_nil, Option.some.injEq] at h
      simp [h]
  | cons token rest ih =>
      cases opens : token.opens? with
      | some bracket =>
          rw [openAfter?_cons_of_opens opens] at h ⊢
          exact ih h
      | none =>
          cases closes : token.closes? with
          | some bracket =>
              rw [openAfter?_cons_of_closes closes] at h ⊢
              obtain ⟨rest', hclose, hrest⟩ := Option.bind_eq_some_iff.1 h
              rw [close?_eq_some_iff] at hclose
              rw [hclose, List.cons_append, close?_self, Option.bind_some]
              exact ih hrest
          | none =>
              rw [openAfter?_cons_of_plain opens closes] at h ⊢
              exact ih h

theorem WellNested.openAfter? {tokens : List Token} (nested : WellNested tokens)
    (brackets : List Bracket) : openAfter? brackets tokens = some brackets := by
  induction nested generalizing brackets with
  | nil => rfl
  | plain opens closes tail ih =>
      rw [openAfter?_cons_of_plain opens closes]
      exact ih brackets
  | group opens closes within tail ihWithin ihTail =>
      rw [openAfter?_cons_of_opens opens, openAfter?_append, ihWithin, Option.bind_some,
        openAfter?_cons_of_closes closes, close?_self, Option.bind_some]
      exact ihTail brackets

/-- A run that closes an open bracket has a first token that closes it, and the
tokens up to there close nothing else. -/
theorem exists_closing_of_openAfter? {inner outer final : List Bracket}
    {bracket : Bracket} {tokens : List Token}
    (h : openAfter? (inner ++ bracket :: outer) tokens = some final)
    (short : final.length ≤ outer.length) :
    ∃ within closing rest, tokens = within ++ closing :: rest ∧
      closing.closes? = some bracket ∧ openAfter? inner within = some [] ∧
      openAfter? outer rest = some final := by
  induction tokens generalizing inner with
  | nil =>
      simp only [openAfter?_nil, Option.some.injEq] at h
      have := congrArg List.length h
      simp only [List.length_append, List.length_cons] at this
      omega
  | cons token tokens ih =>
      cases opens : token.opens? with
      | some other =>
          rw [openAfter?_cons_of_opens opens] at h
          have deeper : openAfter? ((other :: inner) ++ bracket :: outer) tokens =
              some final := h
          obtain ⟨within, closing, rest, rfl, closes, hwithin, hrest⟩ := ih deeper
          refine ⟨token :: within, closing, rest, rfl, closes, ?_, hrest⟩
          rw [openAfter?_cons_of_opens opens]
          exact hwithin
      | none =>
          cases closes : token.closes? with
          | none =>
              rw [openAfter?_cons_of_plain opens closes] at h
              obtain ⟨within, closing, rest, rfl, hclosing, hwithin, hrest⟩ := ih h
              refine ⟨token :: within, closing, rest, rfl, hclosing, ?_, hrest⟩
              rw [openAfter?_cons_of_plain opens closes]
              exact hwithin
          | some other =>
              rw [openAfter?_cons_of_closes closes] at h
              obtain ⟨left, hclose, hleft⟩ := Option.bind_eq_some_iff.1 h
              rw [close?_eq_some_iff] at hclose
              cases inner with
              | nil =>
                  simp only [List.nil_append, List.cons.injEq] at hclose
                  obtain ⟨rfl, rfl⟩ := hclose
                  exact ⟨[], token, tokens, rfl, closes, rfl, hleft⟩
              | cons first inner =>
                  simp only [List.cons_append, List.cons.injEq] at hclose
                  obtain ⟨rfl, rfl⟩ := hclose
                  obtain ⟨within, closing, rest, rfl, hclosing, hwithin, hrest⟩ := ih hleft
                  refine ⟨token :: within, closing, rest, rfl, hclosing, ?_, hrest⟩
                  rw [openAfter?_cons_of_closes closes, close?_self,
                    Option.bind_some]
                  exact hwithin

theorem wellNested_iff (tokens : List Token) :
    WellNested tokens ↔ openAfter? [] tokens = some [] := by
  refine ⟨fun nested => nested.openAfter? [], fun h => ?_⟩
  induction hn : tokens.length using Nat.strongRecOn generalizing tokens with
  | _ n ih =>
      subst hn
      cases tokens with
      | nil => exact .nil
      | cons token rest =>
          cases opens : token.opens? with
          | some bracket =>
              rw [openAfter?_cons_of_opens opens] at h
              have inside : openAfter? ([] ++ bracket :: []) rest = some [] := h
              obtain ⟨within, closing, tail, rfl, closes, hwithin, htail⟩ :=
                exists_closing_of_openAfter? inside (Nat.le_refl _)
              have length : (token :: (within ++ closing :: tail)).length =
                  within.length + tail.length + 2 := by
                rw [List.length_cons, List.length_append, List.length_cons]
                omega
              refine .group opens closes ?_ ?_
              · exact ih within.length (by omega) within hwithin rfl
              · exact ih tail.length (by omega) tail htail rfl
          | none =>
              cases closes : token.closes? with
              | some bracket => simp [openAfter?_cons_of_closes closes, close?] at h
              | none =>
                  rw [openAfter?_cons_of_plain opens closes] at h
                  exact .plain opens closes (ih rest.length (by simp) rest h rfl)

theorem WellNested.append {left right : List Token} (hleft : WellNested left)
    (hright : WellNested right) : WellNested (left ++ right) := by
  rw [wellNested_iff, openAfter?_append, hleft.openAfter?, Option.bind_some]
  exact hright.openAfter? []

/-- A token that is no bracket may be dropped from the end of a run. -/
theorem WellNested.of_append_plain {tokens : List Token} {token : Token}
    (nested : WellNested (tokens ++ [token])) (opens : token.opens? = none)
    (closes : token.closes? = none) : WellNested tokens := by
  have whole := nested.openAfter? []
  rw [openAfter?_append] at whole
  obtain ⟨inner, hinner, hlast⟩ := Option.bind_eq_some_iff.1 whole
  rw [openAfter?_cons_of_plain opens closes, openAfter?_nil, Option.some.injEq] at hlast
  exact (wellNested_iff tokens).2 (hlast ▸ hinner)

theorem wellNested_of_plain {tokens : List Token}
    (plain : ∀ token ∈ tokens, token.opens? = none ∧ token.closes? = none) :
    WellNested tokens := by
  induction tokens with
  | nil => exact .nil
  | cons token rest ih =>
      rw [List.forall_mem_cons] at plain
      exact .plain plain.1.1 plain.1.2 (ih plain.2)

/-- The brackets of a run pair up, and the given punctuator stands only in brackets. -/
inductive Unsplit (text : String) : List Token → Prop where
  | nil : Unsplit text []
  | plain {token : Token} {rest : List Token} (opens : token.opens? = none)
      (closes : token.closes? = none) (other : token.isPunctuator text = false)
      (tail : Unsplit text rest) : Unsplit text (token :: rest)
  | group {opening closing : Token} {inner rest : List Token} {bracket : Bracket}
      (opens : opening.opens? = some bracket) (closes : closing.closes? = some bracket)
      (within : WellNested inner) (tail : Unsplit text rest) :
      Unsplit text (opening :: (inner ++ closing :: rest))

namespace Unsplit

theorem wellNested {text : String} {tokens : List Token} (unsplit : Unsplit text tokens) :
    WellNested tokens := by
  induction unsplit with
  | nil => exact .nil
  | plain opens closes _ _ ih => exact .plain opens closes ih
  | group opens closes within _ ih => exact .group opens closes within ih

theorem append {text : String} {left right : List Token} (first : Unsplit text left)
    (second : Unsplit text right) : Unsplit text (left ++ right) := by
  induction first with
  | nil => exact second
  | plain opens closes other _ ih => exact .plain opens closes other ih
  | group opens closes within _ ih =>
      rw [List.cons_append, List.append_assoc, List.cons_append]
      exact .group opens closes within ih

end Unsplit

/-- How much deeper in brackets a run ends than it begins, if counted with sign. -/
def surplus : List Token → Int
  | [] => 0
  | token :: rest =>
      (if token.isOpener then 1 else if token.isCloser then -1 else 0) + surplus rest

theorem surplus_append (left right : List Token) :
    surplus (left ++ right) = surplus left + surplus right := by
  induction left with
  | nil => simp [surplus]
  | cons token left ih =>
      simp only [List.cons_append, surplus, ih]
      omega

theorem depthAfter_of_opens {token : Token} {bracket : Bracket}
    (opens : token.opens? = some bracket) (depth : Nat) :
    Declaration.depthAfter depth token = depth + 1 := by
  simp [Declaration.depthAfter, isOpener, opens]

theorem depthAfter_of_closes {token : Token} {bracket : Bracket}
    (closes : token.closes? = some bracket) (depth : Nat) :
    Declaration.depthAfter depth token = depth - 1 := by
  simp [Declaration.depthAfter, isOpener, isCloser, opens?_eq_none_of_closes? closes, closes]

theorem depthAfter_of_plain {token : Token} (opens : token.opens? = none)
    (closes : token.closes? = none) (depth : Nat) : Declaration.depthAfter depth token = depth := by
  simp [Declaration.depthAfter, isOpener, isCloser, opens, closes]

/-- What reads a run by its depth and passes over each token in brackets passes over a
well-nested run there. -/
theorem WellNested.read_append_of_skips {β : Type} {read : Nat → List Token → β}
    (skips : ∀ depth token rest, Declaration.depthAfter (depth + 1) token ≠ 0 →
      read (depth + 1) (token :: rest) = read (Declaration.depthAfter (depth + 1) token) rest)
    {inner : List Token} (nested : WellNested inner) (depth : Nat) (rest : List Token) :
    read (depth + 1) (inner ++ rest) = read (depth + 1) rest := by
  induction nested generalizing depth rest with
  | nil => rfl
  | plain opens closes tail ih =>
      have stays := depthAfter_of_plain opens closes (depth + 1)
      rw [List.cons_append, skips depth _ _ (by omega), stays]
      exact ih depth rest
  | @group opening closing inner tail bracket opens closes within outside ihWithin ihOutside =>
      have parts : opening :: (inner ++ closing :: tail) ++ rest =
          opening :: (inner ++ (closing :: (tail ++ rest))) := by simp
      have deeper := depthAfter_of_opens opens (depth + 1)
      have back : Declaration.depthAfter (depth + 1 + 1) closing = depth + 1 :=
        depthAfter_of_closes closes (depth + 1 + 1)
      rw [parts, skips depth _ _ (by omega), deeper, ihWithin, skips (depth + 1) _ _ (by omega),
        back]
      exact ihOutside depth rest

/-- The depth of brackets after a run, as the cutters of statements and declarations
count it. -/
def depthOf (tokens : List Token) : Nat :=
  tokens.foldl Declaration.depthAfter 0

@[simp] theorem depthOf_nil : depthOf [] = 0 := rfl

theorem depthOf_append_singleton (tokens : List Token) (token : Token) :
    depthOf (tokens ++ [token]) = Declaration.depthAfter (depthOf tokens) token := by
  simp [depthOf]

/-- The depth that the cutters count is the number of open brackets, as long as
no bracket is closed by another kind. -/
theorem foldl_depthAfter_of_openAfter? {brackets inner : List Bracket}
    {tokens : List Token} (h : openAfter? brackets tokens = some inner) :
    tokens.foldl Declaration.depthAfter brackets.length = inner.length := by
  induction tokens generalizing brackets with
  | nil =>
      simp only [openAfter?_nil, Option.some.injEq] at h
      rw [h, List.foldl_nil]
  | cons token rest ih =>
      rw [List.foldl_cons, Declaration.depthAfter, isOpener, isCloser]
      cases opens : token.opens? with
      | some bracket =>
          rw [openAfter?_cons_of_opens opens] at h
          exact ih h
      | none =>
          cases closes : token.closes? with
          | some bracket =>
              rw [openAfter?_cons_of_closes closes] at h
              obtain ⟨outer, hclose, hrest⟩ := Option.bind_eq_some_iff.1 h
              rw [close?_eq_some_iff] at hclose
              rw [hclose]
              exact ih hrest
          | none =>
              rw [openAfter?_cons_of_plain opens closes] at h
              exact ih h

theorem depthOf_of_openAfter? {inner : List Bracket} {tokens : List Token}
    (h : openAfter? [] tokens = some inner) : depthOf tokens = inner.length :=
  foldl_depthAfter_of_openAfter? h

/-- A run that ends outside brackets is well nested, and what follows it leaves open
what both leave open. -/
theorem wellNested_of_depthOf {left right : List Token} {final : List Bracket}
    (h : openAfter? [] (left ++ right) = some final) (outside : depthOf left = 0) :
    WellNested left ∧ openAfter? [] right = some final := by
  rw [openAfter?_append] at h
  obtain ⟨inner, hinner, hright⟩ := Option.bind_eq_some_iff.1 h
  have depth := depthOf_of_openAfter? hinner
  rw [outside] at depth
  obtain rfl := List.length_eq_zero_iff.1 depth.symm
  exact ⟨(wellNested_iff left).2 hinner, hright⟩

theorem length_of_openAfter? {brackets inner : List Bracket} {tokens : List Token}
    (h : openAfter? brackets tokens = some inner) :
    (inner.length : Int) = brackets.length + surplus tokens := by
  induction tokens generalizing brackets with
  | nil =>
      simp only [openAfter?_nil, Option.some.injEq] at h
      simp [h, surplus]
  | cons token rest ih =>
      rw [surplus, isOpener, isCloser]
      cases opens : token.opens? with
      | some bracket =>
          rw [openAfter?_cons_of_opens opens] at h
          have := ih h
          simp only [List.length_cons, Option.isSome_some, if_true] at this ⊢
          omega
      | none =>
          cases closes : token.closes? with
          | some bracket =>
              rw [openAfter?_cons_of_closes closes] at h
              obtain ⟨outer, hclose, hrest⟩ := Option.bind_eq_some_iff.1 h
              rw [close?_eq_some_iff] at hclose
              have := ih hrest
              simp only [hclose, List.length_cons, Option.isSome_none, Bool.false_eq_true,
                if_false, Option.isSome_some, if_true]
              omega
          | none =>
              rw [openAfter?_cons_of_plain opens closes] at h
              have := ih h
              simp only [Option.isSome_none, Bool.false_eq_true, if_false]
              omega

theorem WellNested.surplus {tokens : List Token} (nested : WellNested tokens) :
    surplus tokens = 0 := by
  have depth := length_of_openAfter? (nested.openAfter? [])
  simp only [List.length_nil] at depth
  omega

end Token

namespace Completeness

open Token

/-- A token that is no broken literal hands on the brackets that it leaves open. -/
theorem checkWithin_cons {brackets next : List Bracket} {token : Token}
    (faultless : fault? token = none) (h : openAfter? brackets [token] = some next)
    (rest : List Token) : checkWithin brackets (token :: rest) = checkWithin next rest := by
  rw [checkWithin, faultless]
  cases opens : token.opens? with
  | some bracket =>
      rw [openAfter?_cons_of_opens opens] at h
      cases h
      rfl
  | none =>
      cases closes : token.closes? with
      | some bracket =>
          rw [openAfter?_cons_of_closes closes] at h
          obtain ⟨outer, hclose, hnext⟩ := Option.bind_eq_some_iff.1 h
          rw [close?_eq_some_iff] at hclose
          cases hnext
          simp [hclose]
      | none =>
          rw [openAfter?_cons_of_plain opens closes] at h
          cases h
          rfl

theorem checkWithin_cons_of_mismatch {brackets : List Bracket} {token : Token}
    (faultless : fault? token = none) (h : openAfter? brackets [token] = none)
    (rest : List Token) :
    ∃ bracket, checkWithin brackets (token :: rest) = some (.unexpectedCloser bracket) := by
  rw [checkWithin, faultless]
  cases opens : token.opens? with
  | some bracket => simp [openAfter?_cons_of_opens opens] at h
  | none =>
      cases closes : token.closes? with
      | some bracket =>
          refine ⟨bracket, if_neg ?_⟩
          cases brackets with
          | nil => simp
          | cons first outer =>
              rintro ⟨⟩
              simp [openAfter?_cons_of_closes closes] at h
      | none => simp [openAfter?_cons_of_plain opens closes] at h

theorem checkWithin_append {brackets inner : List Bracket} {left : List Token}
    (faultless : ∀ token ∈ left, fault? token = none)
    (h : openAfter? brackets left = some inner) (right : List Token) :
    checkWithin brackets (left ++ right) = checkWithin inner right := by
  induction left generalizing brackets with
  | nil =>
      simp only [openAfter?_nil, Option.some.injEq] at h
      rw [h, List.nil_append]
  | cons token left ih =>
      rw [List.forall_mem_cons] at faultless
      rw [openAfter?_cons] at h
      obtain ⟨next, hnext, hleft⟩ := Option.bind_eq_some_iff.1 h
      rw [List.cons_append, checkWithin_cons faultless.1 hnext]
      exact ih faultless.2 hleft

/-- A run without broken literals that closes a bracket by another kind is
reported for that. -/
theorem checkWithin_append_of_mismatch {brackets : List Bracket} {left : List Token}
    (faultless : ∀ token ∈ left, fault? token = none)
    (h : openAfter? brackets left = none) (right : List Token) :
    ∃ bracket, checkWithin brackets (left ++ right) = some (.unexpectedCloser bracket) := by
  induction left generalizing brackets with
  | nil => cases h
  | cons token left ih =>
      rw [List.forall_mem_cons] at faultless
      rw [List.cons_append]
      cases hnext : openAfter? brackets [token] with
      | none => exact checkWithin_cons_of_mismatch faultless.1 hnext _
      | some next =>
          rw [openAfter?_cons, hnext, Option.bind_some] at h
          rw [checkWithin_cons faultless.1 hnext]
          exact ih faultless.2 h

theorem checkWithin_append_of_fault {brackets inner : List Bracket} {left right : List Token}
    {literal : Token} {fault : Incompleteness}
    (faultless : ∀ token ∈ left, fault? token = none)
    (h : openAfter? brackets left = some inner) (broken : fault? literal = some fault) :
    checkWithin brackets (left ++ literal :: right) = some fault := by
  rw [checkWithin_append faultless h, checkWithin, broken]

/-- A run that ends deeper in brackets than it begins asks for more. -/
theorem exists_fault_of_surplus {tokens : List Token}
    (faultless : ∀ token ∈ tokens, fault? token = none) (deeper : 0 < surplus tokens) :
    ∃ fault, checkWithin [] tokens = some fault ∧
      ScriptError.asksForMore fault.message = true := by
  cases final : openAfter? [] tokens with
  | none =>
      obtain ⟨bracket, mismatch⟩ := checkWithin_append_of_mismatch faultless final []
      rw [List.append_nil] at mismatch
      exact ⟨_, mismatch, by cases bracket <;> decide⟩
  | some brackets =>
      have length := length_of_openAfter? final
      have unfinished := checkWithin_append faultless final []
      rw [List.append_nil] at unfinished
      refine ⟨.unexpectedEnd, ?_, by decide⟩
      cases brackets with
      | nil =>
          simp only [List.length_nil] at length
          omega
      | cons bracket outer => exact unfinished

/-- A run is complete exactly if no literal is broken and every open bracket is
closed by its own kind. -/
theorem checkWithin_eq_none_iff {brackets : List Bracket} {tokens : List Token} :
    checkWithin brackets tokens = none ↔
      (∀ token ∈ tokens, fault? token = none) ∧ openAfter? brackets tokens = some [] := by
  induction tokens generalizing brackets with
  | nil => cases brackets <;> simp [checkWithin]
  | cons token rest ih =>
      rw [List.forall_mem_cons, openAfter?_cons]
      cases fault : fault? token with
      | some other => simp [checkWithin, fault]
      | none =>
          cases hnext : openAfter? brackets [token] with
          | none =>
              obtain ⟨bracket, mismatch⟩ := checkWithin_cons_of_mismatch fault hnext rest
              simp [mismatch]
          | some next => simp [checkWithin_cons fault hnext, ih]

/-- The end of a source is unexpected at a template that is not closed, or after
tokens that leave a bracket open. -/
theorem cases_of_checkWithin_eq_unexpectedEnd {brackets : List Bracket}
    {tokens : List Token} (h : checkWithin brackets tokens = some .unexpectedEnd) :
    (∃ left literal right inner, tokens = left ++ literal :: right ∧
      (∀ token ∈ left, fault? token = none) ∧ openAfter? brackets left = some inner ∧
      fault? literal = some .unexpectedEnd) ∨
    ((∀ token ∈ tokens, fault? token = none) ∧
      ∃ first outer, openAfter? brackets tokens = some (first :: outer)) := by
  induction tokens generalizing brackets with
  | nil =>
      cases brackets with
      | nil => cases h
      | cons first outer => exact .inr ⟨by simp, first, outer, rfl⟩
  | cons token rest ih =>
      cases fault : fault? token with
      | some other =>
          rw [checkWithin, fault] at h
          simp only [Option.some.injEq] at h
          exact .inl ⟨[], token, rest, brackets, rfl, by simp, rfl, h ▸ fault⟩
      | none =>
          cases hnext : openAfter? brackets [token] with
          | none =>
              obtain ⟨bracket, mismatch⟩ := checkWithin_cons_of_mismatch fault hnext rest
              rw [mismatch] at h
              cases h
          | some next =>
              rw [checkWithin_cons fault hnext] at h
              have extend : ∀ {more inner}, openAfter? next more = some inner →
                  openAfter? brackets (token :: more) = some inner := by
                intro more inner hmore
                rw [openAfter?_cons, hnext, Option.bind_some, hmore]
              rcases ih h with ⟨left, literal, right, inner, rfl, hleft, hopen, hfault⟩ |
                  ⟨hall, first, outer, hopen⟩
              · exact .inl ⟨token :: left, literal, right, inner, rfl,
                  List.forall_mem_cons.2 ⟨fault, hleft⟩, extend hopen, hfault⟩
              · exact .inr ⟨List.forall_mem_cons.2 ⟨fault, hall⟩, first, outer, extend hopen⟩

end Completeness

end ScriptConsole
