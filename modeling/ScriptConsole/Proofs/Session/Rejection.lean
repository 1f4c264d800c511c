import ScriptConsole.Proofs.Session.Lines
import ScriptConsole.Proofs.World.Waiting

/-!
# Rejected statements

A statement that suspends has run when its promise is rejected.  The reason of the
rejection becomes an error, and by its message alone this error counts as a failure or as a
sign that the statement is not finished.  A statement that failed is reported and its lines
are dropped; the lines of one that is not finished wait for more, and are evaluated again.
-/

namespace ScriptConsole

namespace ScriptError

theorem asksForMore_iff {message : String} :
    asksForMore message = true ↔
      ∃ opening ∈ unfinishedMessages, opening.toList <+: message.toList := by
  simp [asksForMore, List.any_eq_true]

end ScriptError

namespace EvalError

/-- An error is a failure if its message opens with none of the texts that ask for more. -/
theorem classify_eq_failed_iff {error : ScriptError} :
    classify error = .failed error ↔
      ¬ ∃ opening ∈ ScriptError.unfinishedMessages, opening.toList <+: error.message.toList := by
  rw [← ScriptError.asksForMore_iff, classify]
  split <;> rename_i asks <;> simp [asks]

theorem classify_eq_unfinished {error : ScriptError} (ne : classify error ≠ .failed error) :
    classify error = .unfinished error := by
  unfold classify at ne ⊢
  split at ne
  · rw [if_pos ‹_›]
  · exact absurd rfl ne

end EvalError

namespace Session

variable {ν : Type}

/-- A session in which the lines of a statement wait: the next line of code is evaluated
together with them. -/
structure KeepsWaiting (lines : List String) (session : Session ν) : Prop where
  buffer : session.buffer = lines
  again : ∀ (perform : Performer ν) server line editor console,
    session.world.server = some server →
    server.editor.read server.currentPrompt session.world.console =
      (some (.line line), editor, console) →
    server.IsCode line → ∃ next, next.buffer = lines ++ [line] ∧
      session.turn perform = (none,
        ((session.withServer next console).handleStatement
          ("\n".intercalate (lines ++ [line]))).settleDown)

theorem keepsWaiting (session : Session ν) : KeepsWaiting session.buffer session where
  buffer := rfl
  again perform server line editor console isOpen taken isCode := by
    obtain ⟨next, buffer, turned⟩ := exists_turn_of_isCode perform isOpen taken isCode
    rw [← buffer_of_open isOpen] at buffer
    exact ⟨next, buffer, buffer ▸ turned⟩

theorem buffer_publishCompletions (session : Session ν) :
    session.publishCompletions.buffer = session.buffer := by
  unfold publishCompletions
  split
  · rfl
  · rename_i server isOpen
    rw [buffer_of_open isOpen]
    rfl

theorem buffer_settleDown (session : Session ν) :
    session.settleDown.buffer = session.buffer := by
  obtain ⟨written, writes⟩ := World.prints_round session.world
  rw [settleDown, buffer_publishCompletions]
  cases closed : session.world.server with
  | none =>
      have closed' := writes.server
      rw [closed] at closed'
      cases h : session.world.round.server with
      | none => rw [buffer_of_closed closed, buffer_of_closed h]
      | some server =>
          rw [h] at closed'
          cases closed'
  | some server =>
      obtain ⟨next, isOpen, left⟩ := writes.exists_server closed
      rw [buffer_of_open closed, ← left.buffer]
      exact buffer_of_open isOpen

theorem buffer_evaluated {session : Session ν} {server : Server (SessionAction ν)}
    (isOpen : session.world.server = some server) (code : String) :
    (session.evaluated code).buffer = server.buffer := by
  obtain ⟨written, writes⟩ := exists_writes_evaluated session code
  obtain ⟨next, isOpen', left⟩ := exists_server_evaluated isOpen writes
  rw [buffer_of_open isOpen', left.buffer]

/-- What the session does with a statement whose lines are to wait. -/
theorem handleStatement_of_unfinished {session : Session ν} {code : String}
    {error : ScriptError} (unfinished : session.outcome code = .error (.unfinished error)) :
    session.handleStatement code = session.evaluated code := by
  rw [handleStatement_eq, unfinished]
  rfl

theorem handleStatement_of_failed {session : Session ν} {server : Server (SessionAction ν)}
    (isOpen : session.world.server = some server) {code : String} {error : ScriptError}
    (failed : session.outcome code = .error (.failed error)) :
    (session.handleStatement code).buffer = [] ∧
      (session.handleStatement code).world.console =
        (session.evaluated code).world.console.record
          (.line (Server.errorLine (session.evaluated code).world.palette error)) := by
  obtain ⟨written, writes⟩ := exists_writes_evaluated session code
  obtain ⟨next, isOpen', -⟩ := exists_server_evaluated isOpen writes
  rw [handleStatement_eq, failed]
  exact ⟨buffer_of_open (server_conclude isOpen' _), console_conclude isOpen' _⟩

/-- The statement of a suspending unit whose promise is rejected, at once or after a number
of turns of the background work, gives the error of the reason.  It counts as failed if and
only if the message opens with none of the texts that ask for more: then it is reported and
its lines are dropped.  Otherwise nothing is reported, and the next line of code evaluates its
lines, which have run, once more. -/
theorem rejected_failed_iff {session : Session ν} {code : String} {unit : CompiledUnit}
    {promise : Nat} (rounds : Nat) {reason : Value} {after : World (SessionAction ν)}
    (compiled : CompiledUnit.ofStatement session.compiler code (label (session.evaluations + 1)) =
      .ok unit)
    (suspends : unit.suspends = true)
    (ran : session.host.run unit (label (session.evaluations + 1)) session.world =
      (.ok (.promise promise), after))
    (rejected : (World.afterRounds rounds after).promises.state promise = .rejected reason) :
    let error := reason.rejectionError
    let failed := (session.evaluate code).1 = .error (.failed error)
    (session.evaluate code).1 = .error (.classify error) ∧
      (failed ↔ ¬ ∃ opening ∈ ScriptError.unfinishedMessages,
        opening.toList <+: error.message.toList) ∧
      ∀ (asked : Session ν) (server : Server (SessionAction ν)), asked.noting code = session →
        asked.world.server = some server →
        (failed → (asked.handleStatement code).buffer = [] ∧
          (asked.handleStatement code).world.console =
            (session.evaluate code).2.world.console.record
              (.line (Server.errorLine (session.evaluate code).2.world.palette error))) ∧
        (¬ failed → asked.handleStatement code = (session.evaluate code).2 ∧
          KeepsWaiting server.buffer (asked.handleStatement code).settleDown) := by
  intro error failed
  have given : (session.evaluate code).1 = .error (.classify error) :=
    World.evaluate_fst_of_rejected rounds compiled suspends ran rejected
  have failed_iff : failed ↔ EvalError.classify error = .failed error := by
    change (session.evaluate code).1 = _ ↔ _
    rw [given, Except.error.injEq]
  refine ⟨given, failed_iff.trans EvalError.classify_eq_failed_iff, ?_⟩
  rintro asked server rfl isOpen
  constructor
  · exact fun fails => handleStatement_of_failed isOpen fails
  · intro goesOn
    have unfinished := EvalError.classify_eq_unfinished fun fails => goesOn (failed_iff.2 fails)
    rw [unfinished] at given
    have same := handleStatement_of_unfinished given
    have buffer : (asked.handleStatement code).settleDown.buffer = server.buffer := by
      rw [buffer_settleDown, same, buffer_evaluated isOpen]
    exact ⟨same, buffer ▸ keepsWaiting _⟩

/-- A session whose host answers every statement with a promise that is rejected. -/
def rejecting (reason : Value) : Session ν :=
  ofOptions
    (Host.execution fun _ _ =>
      .makePromise (.rejected reason) fun promise => .give (.promise promise))
    { compiler := none
      historyPath := none
      palette := ⟨false⟩
      editor := .scripted []
      disk := .empty
      natives := []
      promises := .empty }

/-- A statement that is rejected with a text fails with it. -/
theorem rejected_failed_iff_denied :
    let session : Session Unit := rejecting (.string "denied")
    CompiledUnit.ofStatement session.compiler "await f()" (label (session.evaluations + 1)) =
      .ok (.awaiting "f()") ∧
      (∃ after, session.host.run (.awaiting "f()") (label 1) session.world =
        (.ok (.promise 0), after) ∧ after.promises.state 0 = .rejected (.string "denied")) ∧
      (session.evaluate "await f()").1 = .error (.failed (.general "denied")) := by
  intro session
  have compiled : CompiledUnit.ofStatement session.compiler "await f()"
      (label (session.evaluations + 1)) = .ok (.awaiting "f()") :=
    CompiledUnit.ofStatement_await _
  refine ⟨compiled, ⟨_, rfl, rfl⟩, ?_⟩
  exact (rejected_failed_iff 0 compiled rfl rfl rfl).2.1.2 (by decide)

/-- A statement that has run and was rejected with an error whose message is one of the
parser is not reported as failed. -/
theorem evaluate_rejected_unfinished :
    let error : ScriptError := .malformed "Unexpected token < in JSON at position 0"
    let session : Session Unit := rejecting (.ofError error)
    (∃ after, session.host.run (.awaiting "f()") (label 1) session.world =
        (.ok (.promise 0), after) ∧ after.promises.state 0 = .rejected (.ofError error)) ∧
      (session.evaluate "await f()").1 = .error (.unfinished error) ∧
      (session.evaluate "await f()").1 ≠ .error (.failed error) := by
  intro error session
  have compiled : CompiledUnit.ofStatement session.compiler "await f()"
      (label (session.evaluations + 1)) = .ok (.awaiting "f()") :=
    CompiledUnit.ofStatement_await _
  have ran : session.host.run (.awaiting "f()") (label 1) session.world =
      (.ok (.promise 0), _) := rfl
  have given : (session.evaluate "await f()").1 =
      .error (.classify (Value.ofError error).rejectionError) :=
    World.evaluate_fst_of_rejected 0 compiled rfl ran rfl
  rw [World.rejectionError_ofError] at given
  have unfinished : EvalError.classify error = .unfinished error := by decide
  rw [given, unfinished]
  exact ⟨⟨_, rfl, rfl⟩, rfl, by simp⟩

end Session

end ScriptConsole
