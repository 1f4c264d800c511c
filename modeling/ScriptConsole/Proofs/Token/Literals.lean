import ScriptConsole.Proofs.Token.Reading

/-!
# The grammar of literals

Quoted text, templates and the code of substitutions, told without the stack of
the reader: what may stand between the two marks of a literal.  Code counts its
braces and steps over the literals in it; it knows no comments and no regular
expressions.  The reader ends a literal exactly where its grammar ends.
-/

namespace ScriptConsole

namespace Nested

/-- The inside of quoted text.  A backslash hides the character after it. -/
inductive Quoted (quote : Char) : List Char → Prop where
  | nil : Quoted quote []
  | plain {c : Char} {cs : List Char} (visible : c ≠ '\\' ∧ c ≠ quote ∧ c ≠ '\n')
      (more : Quoted quote cs) : Quoted quote (c :: cs)
  | escaped (c : Char) {cs : List Char} (more : Quoted quote cs) : Quoted quote ('\\' :: c :: cs)

/-- The characters that code does not step over. -/
def codeMarks : List Char :=
  ['{', '}', '\'', '"', '\x60']

mutual

inductive Inside : List Char → Prop where
  | nil : Inside []
  | plain {c : Char} {cs : List Char} (visible : c ≠ '\\' ∧ c ≠ '\x60')
      (text : ¬(c = '$' ∧ cs.head? = some '{')) (more : Inside cs) : Inside (c :: cs)
  | escaped (c : Char) {cs : List Char} (more : Inside cs) : Inside ('\\' :: c :: cs)
  | substitution {code cs : List Char} (inner : Code code) (more : Inside cs) :
      Inside ('$' :: '{' :: (code ++ '}' :: cs))

inductive Code : List Char → Prop where
  | nil : Code []
  | plain {c : Char} {cs : List Char} (other : c ∉ codeMarks) (more : Code cs) : Code (c :: cs)
  | braces {inner cs : List Char} (within : Code inner) (more : Code cs) :
      Code ('{' :: (inner ++ '}' :: cs))
  /-- Quoted text ends with its mark or with its line. -/
  | quoted {quote last : Char} {body cs : List Char} (mark : quote = '\'' ∨ quote = '"')
      (within : Quoted quote body) (ends : last = quote ∨ last = '\n') (more : Code cs) :
      Code (quote :: (body ++ last :: cs))
  | template {inside cs : List Char} (within : Inside inside) (more : Code cs) :
      Code ('\x60' :: (inside ++ '\x60' :: cs))

end

def Reading.prepend (text : List Char) (reading : Reading) : Reading :=
  { reading with text := text ++ reading.text }

namespace Reading

@[simp] theorem text_prepend (text : List Char) (reading : Reading) :
    (reading.prepend text).text = text ++ reading.text := rfl

@[simp] theorem closed_prepend (text : List Char) (reading : Reading) :
    (reading.prepend text).closed = reading.closed := rfl

@[simp] theorem prepend_prepend (first second : List Char) (reading : Reading) :
    (reading.prepend second).prepend first = reading.prepend (first ++ second) := by
  simp [prepend]

end Reading

theorem read_cons (mode : Mode) (stack : List Mode) (c : Char) (cs : List Char) :
    read (mode :: stack) (c :: cs) = (read (mode.step c ++ stack) cs).prepend [c] := rfl

/-- A literal is read from its own text as it was read from its source. -/
theorem read_text (stack : List Mode) (cs : List Char) :
    read stack (read stack cs).text = ⟨(read stack cs).text, [], (read stack cs).closed⟩ := by
  induction cs generalizing stack with
  | nil => cases stack <;> rfl
  | cons c cs ih =>
      cases stack with
      | nil => rfl
      | cons mode stack =>
          rw [read_cons, Reading.text_prepend, List.singleton_append, read_cons, ih]
          rfl

theorem read_append_of_not_closed {stack : List Mode} {cs : List Char}
    (opened : (read stack cs).closed = false) (below : List Mode) :
    read (stack ++ below) cs = ⟨cs, [], false⟩ := by
  induction cs generalizing stack with
  | nil =>
      cases stack with
      | nil => cases opened
      | cons mode stack => rfl
  | cons c cs ih =>
      cases stack with
      | nil => cases opened
      | cons mode stack =>
          rw [List.cons_append, read_cons, ← List.append_assoc, ih opened]
          rfl

theorem read_templateDollar {cs : List Char} (text : cs.head? ≠ some '{') (stack : List Mode) :
    read (.templateDollar :: stack) cs = read (.template :: stack) cs := by
  cases cs with
  | nil => rfl
  | cons c cs =>
      have noBrace : c ≠ '{' := fun brace => text (congrArg some brace)
      have same : Mode.templateDollar.step c = Mode.template.step c := if_neg noBrace
      rw [read_cons, read_cons, same]

theorem Quoted.read_append {quote : Char} {body : List Char} (quoted : Quoted quote body)
    (stack : List Mode) (rest : List Char) :
    read (.quoted quote :: stack) (body ++ rest) =
      (read (.quoted quote :: stack) rest).prepend body := by
  induction quoted with
  | nil => rfl
  | @plain c cs visible more ih =>
      have step : (Mode.quoted quote).step c = [.quoted quote] := by
        simp [Mode.step, visible]
      rw [List.cons_append, read_cons, step, List.singleton_append, ih, Reading.prepend_prepend]
      rfl
  | @escaped c cs more ih =>
      have step : read (.quoted quote :: stack) ('\\' :: c :: (cs ++ rest)) =
          (read (.quoted quote :: stack) (cs ++ rest)).prepend ['\\', c] := rfl
      rw [List.cons_append, List.cons_append, step, ih, Reading.prepend_prepend]
      rfl

theorem read_quoted_last {quote last : Char} (mark : quote = '\'' ∨ quote = '"')
    (ends : last = quote ∨ last = '\n') (stack : List Mode) (rest : List Char) :
    read (.quoted quote :: stack) (last :: rest) = (read stack rest).prepend [last] := by
  have step : (Mode.quoted quote).step last = [] := by
    rcases mark with rfl | rfl <;> rcases ends with rfl | rfl <;> rfl
  rw [read_cons, step, List.nil_append]

mutual

/-- The inside of a template is read up to its end, if no brace follows. -/
theorem Inside.read_append {inside : List Char} :
    Inside inside → ∀ {rest : List Char}, rest.head? ≠ some '{' → ∀ stack : List Mode,
      read (.template :: stack) (inside ++ rest) =
        (read (.template :: stack) rest).prepend inside
  | .nil, rest, follows, stack => rfl
  | @Inside.plain c cs visible text more, rest, follows, stack => by
      have further := more.read_append follows stack
      by_cases dollar : c = '$'
      · subst dollar
        have noBrace : (cs ++ rest).head? ≠ some '{' := by
          cases cs with
          | nil => exact follows
          | cons d cs => exact fun brace => text ⟨rfl, brace⟩
        have step : Mode.template.step '$' = [.templateDollar] := rfl
        rw [List.cons_append, read_cons, step, List.singleton_append,
          read_templateDollar noBrace, further, Reading.prepend_prepend]
        rfl
      · have step : Mode.template.step c = [.template] := by
          simp [Mode.step, stepTemplate, visible, dollar]
        rw [List.cons_append, read_cons, step, List.singleton_append, further,
          Reading.prepend_prepend]
        rfl
  | @Inside.escaped c cs more, rest, follows, stack => by
      have step : read (.template :: stack) ('\\' :: c :: (cs ++ rest)) =
          (read (.template :: stack) (cs ++ rest)).prepend ['\\', c] := rfl
      rw [List.cons_append, List.cons_append, step, more.read_append follows stack,
        Reading.prepend_prepend]
      rfl
  | @Inside.substitution code cs inner more, rest, follows, stack => by
      have opening : read (.template :: stack) ('$' :: '{' :: (code ++ '}' :: (cs ++ rest))) =
          (read (.code :: .template :: stack) (code ++ '}' :: (cs ++ rest))).prepend ['$', '{'] :=
        rfl
      have closing : read (.code :: .template :: stack) ('}' :: (cs ++ rest)) =
          (read (.template :: stack) (cs ++ rest)).prepend ['}'] := rfl
      simp only [List.cons_append, List.append_assoc]
      rw [opening, inner.read_append, closing, more.read_append follows stack]
      simp

theorem Code.read_append {code : List Char} :
    Code code → ∀ (stack : List Mode) (rest : List Char),
      read (.code :: stack) (code ++ rest) = (read (.code :: stack) rest).prepend code
  | .nil, stack, rest => rfl
  | @Code.plain c cs other more, stack, rest => by
      have step : Mode.code.step c = [.code] := by
        simp only [codeMarks, List.mem_cons, List.not_mem_nil, or_false, not_or] at other
        simp [Mode.step, other]
      rw [List.cons_append, read_cons, step, List.singleton_append, more.read_append,
        Reading.prepend_prepend]
      rfl
  | @Code.braces inner cs within more, stack, rest => by
      have opening : read (.code :: stack) ('{' :: (inner ++ '}' :: (cs ++ rest))) =
          (read (.code :: .code :: stack) (inner ++ '}' :: (cs ++ rest))).prepend ['{'] := rfl
      have closing : read (.code :: .code :: stack) ('}' :: (cs ++ rest)) =
          (read (.code :: stack) (cs ++ rest)).prepend ['}'] := rfl
      simp only [List.cons_append, List.append_assoc]
      rw [opening, within.read_append, closing, more.read_append]
      simp
  | @Code.quoted quote last body cs mark within ends more, stack, rest => by
      have opening : read (.code :: stack) (quote :: (body ++ last :: (cs ++ rest))) =
          (read (.quoted quote :: .code :: stack) (body ++ last :: (cs ++ rest))).prepend
            [quote] := by
        rcases mark with rfl | rfl <;> rfl
      simp only [List.cons_append, List.append_assoc]
      rw [opening, within.read_append, read_quoted_last mark ends, more.read_append]
      simp
  | @Code.template inside cs within more, stack, rest => by
      have opening : read (.code :: stack) ('\x60' :: (inside ++ '\x60' :: (cs ++ rest))) =
          (read (.template :: .code :: stack) (inside ++ '\x60' :: (cs ++ rest))).prepend
            ['\x60'] := rfl
      have closing : read (.template :: .code :: stack) ('\x60' :: (cs ++ rest)) =
          (read (.code :: stack) (cs ++ rest)).prepend ['\x60'] := rfl
      simp only [List.cons_append, List.append_assoc]
      rw [opening, within.read_append (by simp), closing, more.read_append]
      simp

end

theorem Code.append {left right : List Char} :
    Code left → Code right → Code (left ++ right)
  | .nil, after => after
  | .plain other more, after => .plain other (more.append after)
  | .braces within more, after => by
      simpa using Code.braces within (more.append after)
  | .quoted mark within ends more, after => by
      simpa using Code.quoted mark within ends (more.append after)
  | .template within more, after => by
      simpa using Code.template within (more.append after)

theorem code_of_not_mem {cs : List Char} (plain : ∀ c ∈ cs, c ∉ codeMarks) : Code cs := by
  induction cs with
  | nil => exact .nil
  | cons c cs ih =>
      rw [List.forall_mem_cons] at plain
      exact .plain plain.1 (ih plain.2)

/-- The levels of a template outside its substitutions. -/
def Mode.isTemplate : Mode → Bool
  | .template | .templateEscape | .templateDollar => true
  | _ => false

/-- The part of a level that is read but says nothing without what follows it. -/
def Mode.pending : Mode → List Char
  | .templateEscape | .quotedEscape _ => ['\\']
  | .templateDollar => ['$']
  | .template | .code | .quoted _ => []

/-- The texts that end a level of nesting with their last character. -/
inductive Ends : Mode → List Char → Prop where
  | template {mode : Mode} {inside cs : List Char} (level : mode.isTemplate = true)
      (within : Inside inside) (whole : mode.pending ++ cs = inside ++ ['\x60']) : Ends mode cs
  | code {inner : List Char} (within : Code inner) : Ends .code (inner ++ ['}'])
  | quoted {mode : Mode} {quote last : Char} {body cs : List Char}
      (level : mode = .quoted quote ∨ mode = .quotedEscape quote) (within : Quoted quote body)
      (ends : last = quote ∨ last = '\n') (whole : mode.pending ++ cs = body ++ [last]) :
      Ends mode cs

/-- The texts that end the levels of a stack one after another, innermost first. -/
def EndsAll : List Mode → List Char → Prop
  | [], cs => cs = []
  | mode :: stack, cs => ∃ first rest, cs = first ++ rest ∧ Ends mode first ∧ EndsAll stack rest

theorem endsAll_singleton {mode : Mode} {cs : List Char} : EndsAll [mode] cs ↔ Ends mode cs := by
  simp [EndsAll]

theorem exists_endsAll_of_append {inner outer : List Mode} {cs : List Char}
    (ends : EndsAll (inner ++ outer) cs) :
    ∃ first rest, cs = first ++ rest ∧ EndsAll inner first ∧ EndsAll outer rest := by
  induction inner generalizing cs with
  | nil => exact ⟨[], cs, rfl, rfl, ends⟩
  | cons mode inner ih =>
      obtain ⟨first, rest, rfl, level, more⟩ := ends
      obtain ⟨second, rest, rfl, levels, others⟩ := ih more
      exact ⟨first ++ second, rest, by simp, ⟨first, second, rfl, level, levels⟩, others⟩

theorem ends_template_iff {cs : List Char} :
    Ends .template cs ↔ ∃ inside, Inside inside ∧ cs = inside ++ ['\x60'] := by
  constructor
  · intro ends
    cases ends with
    | template level within whole => exact ⟨_, within, whole⟩
    | quoted level => simp at level
  · rintro ⟨inside, within, whole⟩
    exact .template rfl within whole

theorem ends_code_iff {cs : List Char} :
    Ends .code cs ↔ ∃ inner, Code inner ∧ cs = inner ++ ['}'] := by
  constructor
  · intro ends
    cases ends with
    | template level => cases level
    | code within => exact ⟨_, within, rfl⟩
    | quoted level => simp at level
  · rintro ⟨inner, within, rfl⟩
    exact .code within

theorem ends_quoted_iff {quote : Char} {cs : List Char} :
    Ends (.quoted quote) cs ↔
      ∃ body last, Quoted quote body ∧ (last = quote ∨ last = '\n') ∧ cs = body ++ [last] := by
  constructor
  · intro ends
    cases ends with
    | template level => cases level
    | quoted level within last whole =>
        obtain rfl : quote = _ := by simpa using level
        exact ⟨_, _, within, last, whole⟩
  · rintro ⟨body, last, within, ends, whole⟩
    exact .quoted (.inl rfl) within ends whole

theorem Ends.of_step_template {c : Char} {cs : List Char} (ends : EndsAll (stepTemplate c) cs) :
    Ends .template (c :: cs) := by
  unfold stepTemplate at ends
  split at ends
  · rename_i escape
    subst escape
    cases endsAll_singleton.1 ends with
    | template level within whole => exact .template rfl within whole
    | quoted level => simp at level
  · rename_i noEscape
    split at ends
    · rename_i mark
      obtain rfl : cs = [] := ends
      exact .template rfl .nil (by rw [mark]; rfl)
    · rename_i noMark
      split at ends
      · rename_i dollar
        subst dollar
        cases endsAll_singleton.1 ends with
        | template level within whole => exact .template rfl within whole
        | quoted level => simp at level
      · rename_i noDollar
        obtain ⟨inside, within, rfl⟩ := ends_template_iff.1 (endsAll_singleton.1 ends)
        exact .template rfl (.plain ⟨noEscape, noMark⟩ (fun both => noDollar both.1) within) rfl

theorem Ends.of_step_code {c : Char} {cs : List Char} (ends : EndsAll (Mode.code.step c) cs) :
    Ends .code (c :: cs) := by
  rw [Mode.step] at ends
  split at ends
  · rename_i brace
    obtain ⟨first, rest, rfl, inner, outer⟩ := ends
    obtain ⟨code, within, rfl⟩ := ends_code_iff.1 inner
    obtain ⟨after, more, rfl⟩ := ends_code_iff.1 (endsAll_singleton.1 outer)
    exact ends_code_iff.2 ⟨_, .braces within more, by simp [brace]⟩
  · rename_i noBrace
    split at ends
    · rename_i brace
      obtain rfl : cs = [] := ends
      exact ends_code_iff.2 ⟨[], .nil, by rw [brace]; rfl⟩
    · rename_i noClosing
      split at ends
      · rename_i quote
        obtain ⟨first, rest, rfl, inner, outer⟩ := ends
        obtain ⟨body, last, within, lastEnds, rfl⟩ := ends_quoted_iff.1 inner
        obtain ⟨after, more, rfl⟩ := ends_code_iff.1 (endsAll_singleton.1 outer)
        exact ends_code_iff.2 ⟨_, .quoted quote within lastEnds more, by simp⟩
      · rename_i noQuote
        split at ends
        · rename_i mark
          obtain ⟨first, rest, rfl, inner, outer⟩ := ends
          obtain ⟨inside, within, rfl⟩ := ends_template_iff.1 inner
          obtain ⟨after, more, rfl⟩ := ends_code_iff.1 (endsAll_singleton.1 outer)
          exact ends_code_iff.2 ⟨_, .template within more, by simp [mark]⟩
        · rename_i noMark
          obtain ⟨after, more, rfl⟩ := ends_code_iff.1 (endsAll_singleton.1 ends)
          have other : c ∉ codeMarks := by
            simp [codeMarks, noBrace, noClosing, not_or.1 noQuote, noMark]
          exact ends_code_iff.2 ⟨_, .plain other more, rfl⟩

theorem Ends.of_step {mode : Mode} {c : Char} {cs : List Char}
    (ends : EndsAll (mode.step c) cs) : Ends mode (c :: cs) := by
  cases mode with
  | template => exact .of_step_template ends
  | templateEscape =>
      obtain ⟨inside, within, rfl⟩ := ends_template_iff.1 (endsAll_singleton.1 ends)
      exact .template rfl (.escaped c within) rfl
  | templateDollar =>
      rw [Mode.step] at ends
      split at ends
      · rename_i brace
        obtain ⟨first, rest, rfl, inner, outer⟩ := ends
        obtain ⟨code, within, rfl⟩ := ends_code_iff.1 inner
        obtain ⟨inside, more, rfl⟩ := ends_template_iff.1 (endsAll_singleton.1 outer)
        exact .template rfl (.substitution within more) (by simp [Mode.pending, brace])
      · rename_i noBrace
        obtain ⟨inside, within, whole⟩ := ends_template_iff.1 (Ends.of_step_template ends)
        refine .template rfl (.plain (by decide) ?_ within) (congrArg ('$' :: ·) whole)
        rintro ⟨-, brace⟩
        obtain ⟨more, rfl⟩ := List.head?_eq_some_iff.1 brace
        exact noBrace (List.cons.inj whole).1
  | code => exact .of_step_code ends
  | quoted quote =>
      rw [Mode.step] at ends
      split at ends
      · rename_i escape
        cases endsAll_singleton.1 ends with
        | template level => cases level
        | quoted level within last whole =>
            obtain rfl : quote = _ := by simpa using level
            exact .quoted (.inl rfl) within last (by rw [escape]; exact whole)
      · rename_i noEscape
        split at ends
        · rename_i last
          obtain rfl : cs = [] := ends
          exact .quoted (.inl rfl) .nil last rfl
        · rename_i goesOn
          obtain ⟨body, last, within, lastEnds, rfl⟩ :=
            ends_quoted_iff.1 (endsAll_singleton.1 ends)
          exact .quoted (.inl rfl) (.plain ⟨noEscape, not_or.1 goesOn⟩ within) lastEnds rfl
  | quotedEscape quote =>
      obtain ⟨body, last, within, lastEnds, rfl⟩ := ends_quoted_iff.1 (endsAll_singleton.1 ends)
      exact .quoted (.inr rfl) (.escaped c within) lastEnds rfl

theorem endsAll_of_closed {stack : List Mode} {cs : List Char}
    (closed : (read stack cs).closed = true) : EndsAll stack (read stack cs).text := by
  induction cs generalizing stack with
  | nil =>
      cases stack with
      | nil => rfl
      | cons mode stack => cases closed
  | cons c cs ih =>
      cases stack with
      | nil => rfl
      | cons mode stack =>
          rw [read_cons] at closed ⊢
          -- What ends the levels that the character leaves ends its own level behind it.
          obtain ⟨first, rest, whole, level, others⟩ := exists_endsAll_of_append (ih closed)
          refine ⟨c :: first, rest, ?_, .of_step level, others⟩
          rw [Reading.text_prepend, whole]
          rfl

theorem ends_of_text {mode : Mode} {cs text : List Char} (taken : (read [mode] cs).text = text)
    (closed : (read [mode] text).closed = true) : Ends mode text := by
  have ends := endsAll_singleton.1 (endsAll_of_closed closed)
  rwa [← taken, read_text, taken] at ends

theorem Code.read_eq {code : List Char} (within : Code code) (rest : List Char) :
    read [.code] (code ++ '}' :: rest) = ⟨code ++ ['}'], rest, true⟩ := by
  have closing : read [.code] ('}' :: rest) = ⟨['}'], rest, true⟩ := by
    rw [read_cons]
    exact congrArg (Reading.prepend ['}']) (read_nil rest)
  rw [within.read_append, closing]
  rfl

theorem closed_code_iff {cs : List Char} :
    (read [.code] cs).closed = true ↔ ∃ code rest, Code code ∧ cs = code ++ '}' :: rest := by
  constructor
  · intro closed
    obtain ⟨code, within, text⟩ := ends_code_iff.1 (endsAll_singleton.1 (endsAll_of_closed closed))
    refine ⟨code, (read [.code] cs).rest, within, ?_⟩
    have whole := read_text_append_rest [.code] cs
    rw [text] at whole
    simpa using whole.symm
  · rintro ⟨code, rest, within, rfl⟩
    rw [within.read_eq]

theorem Inside.read_eq {inside : List Char} (within : Inside inside) (rest : List Char) :
    read [.template] (inside ++ '\x60' :: rest) = ⟨inside ++ ['\x60'], rest, true⟩ := by
  have closing : read [.template] ('\x60' :: rest) = ⟨['\x60'], rest, true⟩ := by
    rw [read_cons]
    exact congrArg (Reading.prepend ['\x60']) (read_nil rest)
  rw [within.read_append (by simp), closing]
  rfl

/-- Quoted text is read up to the mark that closes it, or to the end of its line. -/
theorem Quoted.read_eq {quote last : Char} {body : List Char} (within : Quoted quote body)
    (mark : quote = '\'' ∨ quote = '"') (ends : last = quote ∨ last = '\n') (rest : List Char) :
    read [.quoted quote] (body ++ last :: rest) = ⟨body ++ [last], rest, true⟩ := by
  rw [within.read_append, read_quoted_last mark ends, read_nil]
  rfl

end Nested

namespace Lexeme

open Nested (Quoted Inside)

theorem exists_quoted_of_read {previous : Option Token} {c : Char} {more rest : List Char}
    (h : read previous c (more ++ rest) = ⟨.string, more, rest⟩)
    (closed : isOpenLiteral .string (c :: more) = false) :
    (c = '\'' ∨ c = '"') ∧
      ∃ body last, Quoted c body ∧ (last = c ∨ last = '\n') ∧ more = body ++ [last] := by
  cases Reads.of_read h with
  | quoted mark text left =>
      refine ⟨mark, Nested.ends_quoted_iff.1 (Nested.ends_of_text text ?_)⟩
      simpa [isOpenLiteral] using closed

theorem exists_inside_of_read {previous : Option Token} {c : Char} {more rest : List Char}
    (h : read previous c (more ++ rest) = ⟨.template, more, rest⟩)
    (closed : isOpenLiteral .template (c :: more) = false) :
    c = '\x60' ∧ ∃ inside, Inside inside ∧ more = inside ++ ['\x60'] := by
  cases Reads.of_read h with
  | template mark text left =>
      refine ⟨mark, Nested.ends_template_iff.1 (Nested.ends_of_text text ?_)⟩
      simpa [isOpenLiteral] using closed

end Lexeme

end ScriptConsole
