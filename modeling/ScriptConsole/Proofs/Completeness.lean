import Mathlib.Data.List.Induction
import ScriptConsole.Proofs.Nesting
import ScriptConsole.Proofs.Token.Runs

/-!
# Complete sources

The completeness check goes through a source once with a stack of open brackets.
Here its verdict is said without the stack, of the word that the brackets of a
source spell: a source is complete when the word is nested, unfinished when a
longer word is, and wrong at the first bracket that no nested word can have at
its place.
-/

namespace ScriptConsole

namespace Bracket

inductive Mark where
  | opening (bracket : Bracket)
  | closing (bracket : Bracket)
  deriving DecidableEq, Repr

/-- The words whose brackets pair up, each with one of its own kind. -/
inductive Nested : List Mark → Prop where
  | nil : Nested []
  | group {bracket : Bracket} {inner rest : List Mark} (within : Nested inner)
      (tail : Nested rest) : Nested (.opening bracket :: (inner ++ .closing bracket :: rest))

/-- The words with which a nested word begins. -/
def Viable (word : List Mark) : Prop :=
  ∃ more, Nested (word ++ more)

namespace Mark

def isOpening : Mark → Bool
  | opening _ => true
  | closing _ => false

@[simp] theorem isOpening_opening (bracket : Bracket) : (opening bracket).isOpening = true := rfl

@[simp] theorem isOpening_closing (bracket : Bracket) : (closing bracket).isOpening = false := rfl

/-- The brackets that are open after one more; none if it closes one of another kind. -/
def step? (brackets : List Bracket) : Mark → Option (List Bracket)
  | opening bracket => some (bracket :: brackets)
  | closing bracket => Token.close? bracket brackets

end Mark

/-- How many brackets of a word open and how many close. -/
def openings (word : List Mark) : Nat :=
  word.countP (·.isOpening)

def closings (word : List Mark) : Nat :=
  word.countP (!·.isOpening)

/-- The words with which a longer nested word begins and that leave brackets open. -/
def Unfinished (word : List Mark) : Prop :=
  ∃ more, more ≠ [] ∧ Nested (word ++ more) ∧ closings word < openings word

end Bracket

namespace Token

open ScriptConsole.Bracket (Mark)

def mark? (token : Token) : Option Mark :=
  match token.opens? with
  | some bracket => some (.opening bracket)
  | none => token.closes?.map .closing

/-- The word that the brackets of a run spell. -/
def marks (tokens : List Token) : List Mark :=
  tokens.filterMap mark?

theorem mark?_of_opens {token : Token} {bracket : Bracket}
    (opens : token.opens? = some bracket) : token.mark? = some (.opening bracket) := by
  simp [mark?, opens]

theorem mark?_of_closes {token : Token} {bracket : Bracket}
    (closes : token.closes? = some bracket) : token.mark? = some (.closing bracket) := by
  simp [mark?, opens?_eq_none_of_closes? closes, closes]

theorem mark?_of_plain {token : Token} (opens : token.opens? = none)
    (closes : token.closes? = none) : token.mark? = none := by
  simp [mark?, opens, closes]

theorem openAfter?_eq_foldlM (brackets : List Bracket) (tokens : List Token) :
    openAfter? brackets tokens = (marks tokens).foldlM Mark.step? brackets := by
  induction tokens generalizing brackets with
  | nil => rfl
  | cons token rest ih =>
      cases opens : token.opens? with
      | some bracket =>
          rw [openAfter?_cons_of_opens opens, marks,
            List.filterMap_cons_some (mark?_of_opens opens), List.foldlM_cons]
          exact ih _
      | none =>
          cases closes : token.closes? with
          | some bracket =>
              rw [openAfter?_cons_of_closes closes, marks,
                List.filterMap_cons_some (mark?_of_closes closes), List.foldlM_cons]
              simp only [ih]
              rfl
          | none =>
              rw [openAfter?_cons_of_plain opens closes, marks,
                List.filterMap_cons_none (mark?_of_plain opens closes)]
              exact ih _

theorem WellNested.nested_marks {tokens : List Token} (nested : WellNested tokens) :
    Bracket.Nested (marks tokens) := by
  induction nested with
  | nil => exact .nil
  | plain opens closes _ ih =>
      rw [marks, List.filterMap_cons_none (mark?_of_plain opens closes)]
      exact ih
  | group opens closes _ _ ihWithin ihTail =>
      rw [marks, List.filterMap_cons_some (mark?_of_opens opens), List.filterMap_append,
        List.filterMap_cons_some (mark?_of_closes closes)]
      exact .group ihWithin ihTail

end Token

namespace Bracket

open Token (marks openAfter?)

def Mark.token : Mark → Token
  | opening bracket => ⟨.punctuator, [], [bracket.opening]⟩
  | closing bracket => ⟨.punctuator, [], [bracket.closing]⟩

theorem marks_map_token (word : List Mark) : marks (word.map Mark.token) = word := by
  have one (mark : Mark) : mark.token.mark? = some mark := by
    rcases mark with bracket | bracket <;> cases bracket <;> rfl
  induction word with
  | nil => rfl
  | cons mark word ih =>
      rw [List.map_cons, marks, List.filterMap_cons_some (one mark)]
      exact congrArg _ ih

theorem nested_iff {word : List Mark} : Nested word ↔ word.foldlM Mark.step? [] = some [] := by
  constructor
  · intro nested
    have keeps (brackets : List Bracket) : word.foldlM Mark.step? brackets = some brackets := by
      induction nested generalizing brackets with
      | nil => rfl
      | @group bracket inner rest within tail ihWithin ihTail =>
          have opened : Mark.step? brackets (.opening bracket) = some (bracket :: brackets) := rfl
          have closed : Mark.step? (bracket :: brackets) (.closing bracket) = some brackets :=
            Token.close?_self bracket brackets
          simp [List.foldlM_cons, List.foldlM_append, opened, closed, ihWithin, ihTail]
    exact keeps []
  · intro closed
    have tokens : openAfter? [] (word.map Mark.token) = some [] := by
      rw [Token.openAfter?_eq_foldlM, marks_map_token, closed]
    have nested := ((Token.wellNested_iff _).2 tokens).nested_marks
    rwa [marks_map_token] at nested

theorem foldlM_closing (brackets : List Bracket) :
    (brackets.map Mark.closing).foldlM Mark.step? brackets = some [] := by
  induction brackets with
  | nil => rfl
  | cons bracket brackets ih =>
      have closed : Mark.step? (bracket :: brackets) (.closing bracket) = some brackets :=
        Token.close?_self bracket brackets
      simp [List.foldlM_cons, closed, ih]

/-- A nested word begins with exactly the words in which no bracket closes one of another
kind. -/
theorem viable_iff {word : List Mark} :
    Viable word ↔ ∃ brackets, word.foldlM Mark.step? [] = some brackets := by
  constructor
  · rintro ⟨more, nested⟩
    rw [nested_iff, List.foldlM_append] at nested
    obtain ⟨brackets, opened, -⟩ := Option.bind_eq_some_iff.1 nested
    exact ⟨brackets, opened⟩
  · rintro ⟨brackets, opened⟩
    refine ⟨brackets.map .closing, nested_iff.2 ?_⟩
    rw [List.foldlM_append, opened]
    exact foldlM_closing brackets

theorem length_of_foldlM {word : List Mark} {brackets final : List Bracket}
    (opened : word.foldlM Mark.step? brackets = some final) :
    final.length + closings word = brackets.length + openings word := by
  induction word generalizing brackets with
  | nil =>
      cases opened
      rfl
  | cons mark word ih =>
      rw [List.foldlM_cons] at opened
      obtain ⟨next, first, rest⟩ := Option.bind_eq_some_iff.1 opened
      have counted := ih rest
      cases mark with
      | opening bracket =>
          cases first
          simp only [List.length_cons] at counted
          simp [openings, closings, List.countP_cons] at counted ⊢
          omega
      | closing bracket =>
          rw [Token.close?_eq_some_iff.1 first, List.length_cons]
          simp [openings, closings] at counted ⊢
          omega

theorem unfinished_iff {word : List Mark} :
    Unfinished word ↔
      ∃ first outer, word.foldlM Mark.step? [] = some (first :: outer) := by
  constructor
  · rintro ⟨more, -, nested, deeper⟩
    obtain ⟨brackets, opened⟩ := viable_iff.1 ⟨more, nested⟩
    have length := length_of_foldlM opened
    cases brackets with
    | nil =>
        simp only [List.length_nil] at length
        omega
    | cons first outer => exact ⟨first, outer, opened⟩
  · rintro ⟨first, outer, opened⟩
    have length := length_of_foldlM opened
    simp only [List.length_cons, List.length_nil] at length
    refine ⟨(first :: outer).map .closing, by simp, nested_iff.2 ?_, by omega⟩
    rw [List.foldlM_append, opened]
    exact foldlM_closing (first :: outer)

end Bracket

namespace Completeness

open ScriptConsole.Bracket (Mark Nested Viable Unfinished)
open Token (marks openAfter?)

@[simp] theorem fault?_bare (token : Token) : fault? token.bare = fault? token := rfl

@[simp] theorem checkWithin_map_bare (brackets : List Bracket) (tokens : List Token) :
    checkWithin brackets (tokens.map Token.bare) = checkWithin brackets tokens := by
  induction tokens generalizing brackets with
  | nil => rfl
  | cons token rest ih =>
      simp only [List.map_cons, checkWithin, fault?_bare, Token.opens?_bare,
        Token.closes?_bare, ih]

/-- Quoted text or a template without its closing mark. -/
def isBroken (token : Token) : Bool :=
  (token.kind == .string || token.kind == .template) && !isDelimited token.text

/-- Nothing in a run is at fault: its literals are closed, and a nested word begins with its
brackets. -/
structure Faultless (tokens : List Token) : Prop where
  closed : ∀ token ∈ tokens, isBroken token = false
  viable : Viable (marks tokens)

theorem fault?_of_isBroken {token : Token} (broken : isBroken token = true) :
    fault? token = some (if token.kind = .template then .unexpectedEnd else .openString) := by
  simp only [isBroken, Bool.and_eq_true, Bool.or_eq_true, beq_iff_eq, Bool.not_eq_true'] at broken
  obtain ⟨kind | kind, text⟩ := broken <;> simp [fault?, kind, text]

theorem fault?_of_not_isBroken {token : Token} (closed : isBroken token = false) :
    fault? token = none := by
  unfold isBroken at closed
  unfold fault?
  split <;> simp_all

theorem fault?_eq_none_iff {token : Token} : fault? token = none ↔ isBroken token = false := by
  refine ⟨fun faultless => ?_, fault?_of_not_isBroken⟩
  cases broken : isBroken token with
  | false => rfl
  | true => simp [fault?_of_isBroken broken] at faultless

/-- A run of closed literals whose brackets a nested word begins with is read to its end. -/
theorem Faultless.exists_checkWithin {left : List Token} (faultless : Faultless left) :
    ∃ inner, openAfter? [] left = some inner ∧
      ∀ right, checkWithin [] (left ++ right) = checkWithin inner right := by
  obtain ⟨inner, opened⟩ := Bracket.viable_iff.1 faultless.viable
  rw [← Token.openAfter?_eq_foldlM] at opened
  exact ⟨inner, opened, checkWithin_append
    (fun token mem => fault?_of_not_isBroken (faultless.closed token mem)) opened⟩

theorem checkWithin_of_isBroken {left right : List Token} {token : Token}
    (faultless : Faultless left) (broken : isBroken token = true) :
    checkWithin [] (left ++ token :: right) =
      some (if token.kind = .template then .unexpectedEnd else .openString) := by
  obtain ⟨inner, -, reads⟩ := faultless.exists_checkWithin
  rw [reads, checkWithin, fault?_of_isBroken broken]

/-- Whether a nested word can have a bracket at its place is decided by the innermost open
bracket. -/
theorem viable_append_closing_iff {left : List Token} {inner : List Bracket}
    (opened : openAfter? [] left = some inner) (bracket : Bracket) :
    Viable (marks left ++ [.closing bracket]) ↔ inner.head? = some bracket := by
  rw [Token.openAfter?_eq_foldlM] at opened
  have word : (marks left ++ [Mark.closing bracket]).foldlM Mark.step? [] =
      Token.close? bracket inner := by
    simp [List.foldlM_append, opened, Mark.step?]
  rw [Bracket.viable_iff, word]
  cases inner with
  | nil => simp [Token.close?]
  | cons first outer => simp [Token.close?]

theorem checkWithin_of_closes {left right : List Token} {token : Token} {bracket : Bracket}
    (faultless : Faultless left) (closes : token.closes? = some bracket)
    (wrong : ¬Viable (marks left ++ [.closing bracket])) :
    checkWithin [] (left ++ token :: right) = some (.unexpectedCloser bracket) := by
  obtain ⟨inner, opened, reads⟩ := faultless.exists_checkWithin
  have kind := (Token.closes?_eq_some_iff.1 closes).1
  rw [viable_append_closing_iff opened] at wrong
  simp [reads, checkWithin, fault?, kind, Token.opens?_eq_none_of_closes? closes, closes, wrong]

/-- A run that no nested word begins with has a first bracket at fault. -/
theorem exists_closing_of_not_viable {tokens : List Token} (wrong : ¬Viable (marks tokens)) :
    ∃ left token right bracket, tokens = left ++ token :: right ∧
      token.closes? = some bracket ∧ Viable (marks left) ∧
      ¬Viable (marks left ++ [.closing bracket]) := by
  induction tokens using List.reverseRecOn with
  | nil => exact absurd ⟨[], .nil⟩ wrong
  | append_singleton tokens token ih =>
      by_cases viable : Viable (marks tokens)
      · obtain ⟨inner, opened⟩ := Bracket.viable_iff.1 viable
        have word : marks (tokens ++ [token]) = marks tokens ++ token.mark?.toList := by
          cases h : token.mark? <;> simp [marks, h]
        rw [word] at wrong
        cases opens : token.opens? with
        | some bracket =>
            rw [Token.mark?_of_opens opens] at wrong
            refine absurd (Bracket.viable_iff.2 ⟨bracket :: inner, ?_⟩) wrong
            simp [List.foldlM_append, opened, Mark.step?]
        | none =>
            cases closes : token.closes? with
            | none =>
                rw [Token.mark?_of_plain opens closes] at wrong
                exact absurd (by simpa using viable) wrong
            | some bracket =>
                rw [Token.mark?_of_closes closes] at wrong
                exact ⟨tokens, token, [], bracket, rfl, closes, viable, wrong⟩
      · obtain ⟨left, first, right, bracket, rfl, parts⟩ := ih viable
        exact ⟨left, first, right ++ [token], bracket, by simp, parts⟩

theorem check_eq_none_iff {source : List Char} :
    check source = none ↔
      (∀ token ∈ tokenize source, isBroken token = false) ∧ Nested (marks (tokenize source)) := by
  simp only [check, checkWithin_eq_none_iff, fault?_eq_none_iff, Bracket.nested_iff,
    Token.openAfter?_eq_foldlM]

/-- Among sources of closed literals those that are unfinished ask for more. -/
theorem check_eq_unexpectedEnd_iff {source : List Char}
    (closed : ∀ token ∈ tokenize source, isBroken token = false) :
    check source = some .unexpectedEnd ↔ Unfinished (marks (tokenize source)) := by
  have faultless : ∀ token ∈ tokenize source, fault? token = none :=
    fun token mem => fault?_of_not_isBroken (closed token mem)
  rw [Bracket.unfinished_iff, ← Token.openAfter?_eq_foldlM]
  constructor
  · intro h
    rcases cases_of_checkWithin_eq_unexpectedEnd h with
      ⟨left, literal, right, inner, whole, -, -, broken⟩ | ⟨-, opened⟩
    · have : fault? literal = none := faultless literal (by simp [whole])
      simp [this] at broken
    · exact opened
  · rintro ⟨first, outer, opened⟩
    have ended := checkWithin_append faultless opened []
    rw [List.append_nil] at ended
    exact ended

theorem message_eq_unexpectedEnd_iff {fault : Incompleteness} :
    fault.message = "Unexpected end of input" ↔ fault = .unexpectedEnd := by
  cases fault with
  | unexpectedEnd => exact iff_of_true rfl rfl
  | openString => exact iff_of_false (by decide) nofun
  | unexpectedCloser bracket => cases bracket <;> exact iff_of_false (by decide) nofun

/-- The verdict of the check, said of the word that the brackets of a source spell. -/
theorem check_verdict (source : List Char) :
    (check source = none ↔
      (∀ token ∈ tokenize source, isBroken token = false) ∧ Nested (marks (tokenize source))) ∧
    ((∀ token ∈ tokenize source, isBroken token = false) →
      ((check source).map (·.message) = some "Unexpected end of input" ↔
        Unfinished (marks (tokenize source))) ∧
      (¬Nested (marks (tokenize source)) → ¬Unfinished (marks (tokenize source)) →
        ∃ left bracket right, marks (tokenize source) = left ++ .closing bracket :: right ∧
          Viable left ∧ ¬Viable (left ++ [.closing bracket]) ∧
          (check source).map (·.message) =
            some ("Unexpected token '" ++ String.singleton bracket.closing ++ "'"))) ∧
    ∀ left token right, tokenize source = left ++ token :: right → Faultless left →
      (isBroken token = true → (check source).map (·.message) =
        some (if token.kind = .template then "Unexpected end of input"
          else "Invalid or unexpected token")) ∧
      ∀ bracket, token.closes? = some bracket → ¬Viable (marks left ++ [.closing bracket]) →
        (check source).map (·.message) =
          some ("Unexpected token '" ++ String.singleton bracket.closing ++ "'") := by
  refine ⟨check_eq_none_iff, fun closed => ⟨?_, fun notNested notUnfinished => ?_⟩, ?_⟩
  · rw [← check_eq_unexpectedEnd_iff closed]
    simp [message_eq_unexpectedEnd_iff]
  · have wrong : ¬Viable (marks (tokenize source)) := by
      rw [Bracket.viable_iff]
      rintro ⟨brackets, opened⟩
      cases brackets with
      | nil => exact notNested (Bracket.nested_iff.2 opened)
      | cons first outer => exact notUnfinished (Bracket.unfinished_iff.2 ⟨first, outer, opened⟩)
    obtain ⟨left, token, right, bracket, whole, closes, viable, stuck⟩ :=
      exists_closing_of_not_viable wrong
    have faultless : Faultless left := ⟨fun t mem => closed t (by simp [whole, mem]), viable⟩
    refine ⟨marks left, bracket, marks right, ?_, viable, stuck, ?_⟩
    · simp [whole, marks, Token.mark?_of_closes closes]
    · rw [check, whole, checkWithin_of_closes faultless closes stuck]
      rfl
  · intro left token right whole faultless
    refine ⟨fun broken => ?_, fun bracket closes stuck => ?_⟩
    · rw [check, whole, checkWithin_of_isBroken faultless broken]
      split <;> rfl
    · rw [check, whole, checkWithin_of_closes faultless closes stuck]
      rfl

/-- A round bracket after which a square one closes, with a closed template between them. -/
theorem check_verdict_mismatch :
    let source := "f(\x60a\x60]".toList
    let left : List Token :=
      [⟨.identifier, [], ['f']⟩, ⟨.punctuator, [], ['(']⟩, ⟨.template, [], "\x60a\x60".toList⟩]
    tokenize source = left ++ [⟨.punctuator, [], [']']⟩] ∧ Faultless left ∧
      ¬Viable (marks left ++ [.closing .square]) ∧
      (check source).map (·.message) = some "Unexpected token ']'" := by
  intro source left
  have scanned : Scan.within 5 none source =
      some ⟨left ++ [⟨.punctuator, [], [']']⟩], []⟩ := by decide
  have read : tokenize source = left ++ [⟨.punctuator, [], [']']⟩] :=
    congrArg Scan.tokens (Scan.ofSource_of_within scanned)
  have opened : (marks left).foldlM Mark.step? [] = some [.round] := by decide
  have faultless : Faultless left := ⟨by decide, Bracket.viable_iff.2 ⟨_, opened⟩⟩
  have stuck : ¬Viable (marks left ++ [.closing .square]) := by
    rw [viable_append_closing_iff ((Token.openAfter?_eq_foldlM _ _).trans opened)]
    decide
  exact ⟨read, faultless, stuck,
    ((check_verdict source).2.2 left _ [] read faultless).2 .square (by decide) stuck⟩

end Completeness

end ScriptConsole
