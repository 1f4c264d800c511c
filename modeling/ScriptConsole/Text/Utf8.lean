/-!
# Bytes and text

Text is stored as UTF-8.  Reading bytes as text either insists on valid UTF-8 or
puts a replacement character for every longest run that begins a character and
does not complete it.
-/

namespace ScriptConsole.Text

def encode (text : String) : ByteArray :=
  text.toUTF8

def decode? (bytes : ByteArray) : Option String :=
  String.fromUTF8? bytes

@[simp] theorem decode?_encode (text : String) : decode? (encode text) = some text := by
  have h : text.toUTF8.IsValidUTF8 := text.isValidUTF8
  exact dif_pos h

/-- A character of several bytes that has begun: its value so far, the number of
bytes it still needs, and the bounds of the next of them. -/
structure PartialChar where
  value : Nat
  needs : Nat
  low : Nat
  high : Nat
  deriving DecidableEq, Repr

/-- The character of several bytes that a byte begins. -/
def PartialChar.ofLead? (b : Nat) : Option PartialChar :=
  if 0xc2 ≤ b ∧ b ≤ 0xdf then some ⟨b - 0xc0, 1, 0x80, 0xbf⟩
  else if b = 0xe0 then some ⟨0, 2, 0xa0, 0xbf⟩
  else if b = 0xed then some ⟨0xd, 2, 0x80, 0x9f⟩
  else if 0xe1 ≤ b ∧ b ≤ 0xef then some ⟨b - 0xe0, 2, 0x80, 0xbf⟩
  else if b = 0xf0 then some ⟨0, 3, 0x90, 0xbf⟩
  else if 0xf1 ≤ b ∧ b ≤ 0xf3 then some ⟨b - 0xf0, 3, 0x80, 0xbf⟩
  else if b = 0xf4 then some ⟨4, 3, 0x80, 0x8f⟩
  else none

def replacement : Char :=
  '\ufffd'

/-- Read bytes as text after a character has begun. -/
def decodeLossyFrom (pending : Option PartialChar) : List UInt8 → List Char
  | [] => if pending.isSome then [replacement] else []
  | byte :: bytes =>
      let b := byte.toNat
      let fresh :=
        if b < 0x80 then Char.ofNat b :: decodeLossyFrom none bytes
        else
          match PartialChar.ofLead? b with
          | some char => decodeLossyFrom (some char) bytes
          | none => replacement :: decodeLossyFrom none bytes
      match pending with
      | none => fresh
      | some char =>
          if char.low ≤ b ∧ b ≤ char.high then
            let value := char.value * 64 + (b - 0x80)
            if char.needs = 1 then Char.ofNat value :: decodeLossyFrom none bytes
            else decodeLossyFrom (some ⟨value, char.needs - 1, 0x80, 0xbf⟩) bytes
          else replacement :: fresh

def decodeLossy (bytes : ByteArray) : String :=
  String.ofList (decodeLossyFrom none bytes.toList)

def byteLength : List Char → Nat
  | [] => 0
  | c :: cs => c.utf8Size + byteLength cs

@[simp] theorem byteLength_append (left right : List Char) :
    byteLength (left ++ right) = byteLength left + byteLength right := by
  induction left with
  | nil => simp [byteLength]
  | cons c left ih => simp only [List.cons_append, byteLength, ih, Nat.add_assoc]

/-- The characters of a text that begin before byte `count`. -/
def takeBytes : (count : Nat) → List Char → List Char
  | 0, _ => []
  | _ + 1, [] => []
  | count + 1, c :: cs => c :: takeBytes (count + 1 - c.utf8Size) cs

end ScriptConsole.Text
