import ScriptConsole.Dictionary
import ScriptConsole.Number
import ScriptConsole.ScriptError

/-!
# Values

What evaluated code produces, as far as a session has to tell it apart.  Native
functions and promises have an identity and are named by it: what a function
does and what a promise has become is kept elsewhere.
-/

namespace ScriptConsole

inductive Function where
  /-- A function of the host, by its identity. -/
  | native (name : String) (identity : Nat)
  /-- A helper command under the name it is shown by. -/
  | helper (name : String) (command : String)
  /-- A function that takes a callback, as one that returns a promise. -/
  | promisified (target : Function)
  /-- The callback that settles the promise of the given identity. -/
  | settler (promise : Nat)
  deriving DecidableEq, Repr, Inhabited

namespace Function

def name : Function → String
  | native name _ => name
  | helper name _ => name
  | promisified target => target.name
  | settler _ => "callback"

/-- Whether two functions are the same: the same native function, wrappers of one
helper, or promisified forms of the same function. -/
def same : Function → Function → Bool
  | native _ a, native _ b => a == b
  | helper _ a, helper _ b => a == b
  | promisified a, promisified b => a.same b
  | settler a, settler b => a == b
  | _, _ => false

def label (function : Function) : String :=
  if function.name.isEmpty then "[Function (anonymous)]"
  else "[Function: " ++ function.name ++ "]"

theorem same_self (function : Function) : function.same function = true := by
  induction function with
  | promisified target ih => simpa [same] using ih
  | _ => simp [same]

theorem same_trans {a b c : Function} (first : a.same b = true) (second : b.same c = true) :
    a.same c = true := by
  induction a generalizing b c with
  | promisified target ih =>
      cases b <;> simp only [same, Bool.false_eq_true] at first
      cases c <;> simp only [same, Bool.false_eq_true] at second ⊢
      exact ih first second
  | _ =>
      cases b <;> simp only [same, beq_iff_eq, Bool.false_eq_true] at first
      cases c <;> simp_all [same]

theorem same_comm (a b : Function) : a.same b = b.same a := by
  induction a generalizing b with
  | promisified target ih => cases b <;> simp [same, ih]
  | _ => cases b <;> simp [same, BEq.comm]

end Function

inductive Value where
  | undefined
  | null
  | bool (value : Bool)
  | number (value : Number)
  | string (value : String)
  | array (items : List Value)
  | object (fields : List (String × Value))
  | function (value : Function)
  /-- A promise, by its identity. -/
  | promise (identity : Nat)
  deriving Repr, Inhabited

namespace Value

@[elab_as_elim]
theorem inductionOnParts {motive : Value → Prop} (value : Value)
    (undefined : motive .undefined) (null : motive .null) (bool : ∀ value, motive (.bool value))
    (number : ∀ value, motive (.number value)) (string : ∀ value, motive (.string value))
    (array : ∀ items, (∀ item ∈ items, motive item) → motive (.array items))
    (object : ∀ fields, (∀ entry ∈ fields, motive entry.2) → motive (.object fields))
    (function : ∀ value, motive (.function value))
    (promise : ∀ identity, motive (.promise identity)) : motive value :=
  @Value.rec motive (fun items => ∀ item ∈ items, motive item)
    (fun fields => ∀ entry ∈ fields, motive entry.2) (fun entry => motive entry.2)
    undefined null bool number string array object function promise
    nofun (fun _ _ first rest => List.forall_mem_cons.2 ⟨first, rest⟩)
    nofun (fun _ _ first rest => List.forall_mem_cons.2 ⟨first, rest⟩)
    (fun _ _ held => held) value

def ofError (error : ScriptError) : Value :=
  .object [("name", .string error.name), ("message", .string error.message)]

/-- Values that stand for no error in a callback. -/
def isNothing : Value → Bool
  | undefined | null => true
  | _ => false

mutual

/-- Equality of values: numbers as numbers, objects without regard to order,
functions and promises by identity. -/
def equals : Value → Value → Bool
  | undefined, undefined => true
  | null, null => true
  | bool a, bool b => a == b
  | number a, number b => a.equals b
  | string a, string b => a == b
  | array a, array b => equalItems a b
  | object a, object b => a.length == b.length && equalFields a b
  | function a, function b => a.same b
  | promise a, promise b => a == b
  | _, _ => false

def equalItems : List Value → List Value → Bool
  | [], [] => true
  | a :: as, b :: bs => equals a b && equalItems as bs
  | _, _ => false

/-- Whether every field of the first list has an equal one in the second. -/
def equalFields : List (String × Value) → List (String × Value) → Bool
  | [], _ => true
  | (key, a) :: rest, fields =>
      (match Dictionary.find? key fields with
        | some b => equals a b
        | none => false) && equalFields rest fields

end

/-- The error of a rejection: an object with a message keeps its name and
message, given the text of any other reason. -/
def rejection (reason : Value) (text : String) : ScriptError :=
  match reason with
  | .object fields =>
      match Dictionary.find? "message" fields with
      | some (.string message) =>
          match Dictionary.find? "name" fields with
          | some (.string name) => ⟨name, message⟩
          | _ => ⟨"Error", message⟩
      | _ => .general text
  | _ => .general text

end Value

end ScriptConsole
