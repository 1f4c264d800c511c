import ScriptConsole.Text.Escape
import ScriptConsole.Text.Identifier
import ScriptConsole.Text.Width.Ranges

/-!
# Columns

The number of terminal columns that a text takes.  It is the sum of what its
characters take, except where several of them are drawn as one: emoji sequences,
the ligatures of some scripts, and a line break of two characters.  The text is
read from its end, keeping what has been read there.
-/

namespace ScriptConsole.Text

/-- What has been read to the right of a character. -/
inductive Follower where
  | plain
  | lineFeed
  /-- The selector of wide quotation marks. -/
  | wideSelector
  | skinTone
  /-- One letter of a flag, or several. -/
  | flagLetter (several : Bool)
  | picture
  /-- A joiner before a picture. -/
  | joiner
  | joinedKeycap
  /-- Letters of a flag before a joiner, by their number. -/
  | joinedFlag (letters : Nat)
  /-- Tags before a joiner: the letters and digits read of them. -/
  | joinedTags (letters digits : Nat)
  | alef
  | lamed
  | bugineseYa
  | bugineseVowel
  | tifinaghConsonant
  | tifinaghJoiner
  | lisuTone
  | orkhon
  | khmerLetter
  | kiratVowelE
  | kiratVowelAi
  deriving DecidableEq, Repr

namespace Follower

/-- Whether a letter may be drawn as one with the letter before it. -/
def ligates : Follower → Bool
  | alef | lamed | bugineseYa | bugineseVowel | tifinaghConsonant | tifinaghJoiner |
    lisuTone | orkhon | khmerLetter => true
  | _ => false

/-- Whether marks and joiners may stand before it in a ligature. -/
def seesThroughMarks (follower : Follower) : Bool :=
  follower.ligates && follower != alef

end Follower

/-- What has been read to the right of a character, and whether a selector for
pictures, a selector for text or a joiner stands before it. -/
structure Lookahead where
  follower : Follower
  pictureSelector : Bool
  textSelector : Bool
  joined : Bool
  deriving DecidableEq, Repr

namespace Lookahead

def of (follower : Follower) : Lookahead :=
  ⟨follower, false, false, false⟩

def nothing : Lookahead :=
  of .plain

/-- Put a selector for pictures before what has been read. -/
def selectPicture (ahead : Lookahead) : Lookahead :=
  if ahead.follower.ligates ||
      ((ahead.follower == .joiner || ahead.follower == .joinedKeycap) &&
        !ahead.pictureSelector) then
    { ahead with pictureSelector := true }
  else { nothing with pictureSelector := true }

/-- Put a selector for text before what has been read. -/
def selectText (ahead : Lookahead) : Lookahead :=
  if ahead.follower.ligates then { ahead with textSelector := true }
  else { nothing with textSelector := true }

/-- Forget a selector for pictures that applies to nothing. -/
def dropPictureSelector (ahead : Lookahead) : Lookahead :=
  if ahead.follower.ligates then { ahead with pictureSelector := false } else nothing

end Lookahead

/-- Whether a code point lies between two others. -/
def isWithin (low high : Nat) (c : Char) : Bool :=
  low ≤ c.toNat && c.toNat ≤ high

def isRegionalIndicator (c : Char) : Bool :=
  isWithin 0x1f1e6 0x1f1ff c

def isSkinTone (c : Char) : Bool :=
  isWithin 0x1f3fb 0x1f3ff c

def isPicture (c : Char) : Bool :=
  inRanges pictureRanges c.toNat && !isSkinTone c

/-- Emoji that a selector for pictures may follow. -/
def takesPictureSelector (c : Char) : Bool :=
  inRanges textEmojiRanges c.toNat || inRanges selectablePictureRanges c.toNat

/-- Pictures that a selector for text makes one column wide. -/
def takesTextSelector (c : Char) : Bool :=
  inRanges selectablePictureRanges c.toNat && !(isWithin 0x1f200 0x1f2ff c)

def isLigatureMark (c : Char) : Bool :=
  inRanges [(0x34f, 0x34f), (0x17b4, 0x17b5), (0x180b, 0x180d), (0x180f, 0x180f),
    (0xfe00, 0xfe0f), (0xe0100, 0xe01ef)] c.toNat

def isAlef (c : Char) : Bool :=
  inRanges [(0x622, 0x623), (0x625, 0x625), (0x627, 0x627), (0x671, 0x673),
    (0x675, 0x675), (0x773, 0x774), (0x870, 0x882)] c.toNat

def isLam (c : Char) : Bool :=
  inRanges [(0x644, 0x644), (0x6b5, 0x6b8), (0x76a, 0x76a), (0x8a6, 0x8a6),
    (0x8c7, 0x8c7)] c.toNat

def isTifinaghConsonant (c : Char) : Bool :=
  inRanges [(0x2d31, 0x2d65), (0x2d6f, 0x2d6f)] c.toNat

def isKhmerLetter (c : Char) : Bool :=
  inRanges [(0x1780, 0x1782), (0x1784, 0x1787), (0x1789, 0x178c), (0x178e, 0x1793),
    (0x1795, 0x1798), (0x179b, 0x179d), (0x17a0, 0x17a0), (0x17a2, 0x17a2),
    (0x17a7, 0x17a7), (0x17ab, 0x17ac), (0x17af, 0x17af)] c.toNat

def charColumns (c : Char) : Nat :=
  if c.toNat ≤ 0xa0 then 1
  else if c == '\u17d8' then 3
  else if inRanges zeroWidthRanges c.toNat then 0
  else if inRanges wideRanges c.toNat then 2
  else 1

/-- What a character is to the one before it. -/
def Follower.ofChar (c : Char) : Follower :=
  if isPicture c then .picture
  else if isSkinTone c then .skinTone
  else if isRegionalIndicator c then .flagLetter false
  else if c == '\ufe01' then .wideSelector
  else if isAlef c then .alef
  else if c == '\u05dc' then .lamed
  else if isKhmerLetter c then .khmerLetter
  else if c == '\u1a10' then .bugineseYa
  else if isTifinaghConsonant c then .tifinaghConsonant
  else if c == '\ua4fc' || c == '\ua4fd' then .lisuTone
  else if c.toNat == 0x10c03 then .orkhon
  else if c.toNat == 0x16d67 then .kiratVowelE
  else if c.toNat == 0x16d68 then .kiratVowelAi
  else .plain

/-- The columns that a character adds to what follows it, and what the two are
together. -/
def columnsAlone (c : Char) : Int × Lookahead :=
  if c == '\ufe0f' then (0, Lookahead.nothing.selectPicture)
  else if c == '\ufe0e' then (0, Lookahead.nothing.selectText)
  else (charColumns c, .of (.ofChar c))

/-- What a tag adds to the tags after it; none if it cannot stand there. -/
def columnsBeforeTags? (letters digits : Nat) (c : Char) : Option (Int × Lookahead) :=
  if isWithin 0xe0061 0xe007a c ∧ digits = 0 ∧ letters < 6 then
    some (0, .of (.joinedTags (letters + 1) 0))
  else if isWithin 0xe0030 0xe0039 c ∧ digits < 3 ∧ letters ≤ 4 then
    some (0, .of (.joinedTags letters (digits + 1)))
  else if c.toNat = 0x1f3f4 ∧ ((digits = 0 ∧ 3 ≤ letters) ∨ digits = 3) then
    some (0, .of .picture)
  else none

/-- What a character adds to a follower that it is drawn together with. -/
def columnsBefore? (follower : Follower) (joined : Bool) (c : Char) :
    Option (Int × Lookahead) :=
  match follower with
  | .alef =>
      if isLam c then some (0, .nothing)
      else if inRanges joinTransparentRanges c.toNat then some (0, .of .alef)
      else none
  | .lamed => if joined && c == '\u05d0' then some (0, .nothing) else none
  | .khmerLetter => if c == '\u17d2' then some (-1, .nothing) else none
  | .bugineseYa =>
      if joined && c == '\u1a17' then some (0, .of .bugineseVowel) else none
  | .bugineseVowel => if c == '\u1a15' then some (0, .nothing) else none
  | .tifinaghConsonant =>
      if c == '\u2d7f' then some (1, .of .tifinaghJoiner)
      else if joined && isTifinaghConsonant c then some (0, .nothing)
      else none
  | .tifinaghJoiner => if isTifinaghConsonant c then some (-1, .nothing) else none
  | .lisuTone => if '\ua4f8' ≤ c && c ≤ '\ua4fb' then some (0, .nothing) else none
  | .orkhon => if joined && c.toNat == 0x10c32 then some (0, .nothing) else none
  | .wideSelector =>
      if c == '\u2018' || c == '\u2019' || c == '\u201c' || c == '\u201d' then
        some (2, .nothing)
      else none
  | .skinTone =>
      if inRanges modifierBaseRanges c.toNat then some (0, .of .picture)
      else if c == '\u200d' then some (0, .of .joiner)
      else none
  | .flagLetter several =>
      if isRegionalIndicator c then some (1, .of (.flagLetter true))
      else if several && c == '\u200d' then some (0, .of .joiner)
      else none
  | .picture => if c == '\u200d' then some (0, .of .joiner) else none
  | .joiner =>
      if c == '\u20e3' then some (0, .of .joinedKeycap)
      else if isRegionalIndicator c then some (1, .of (.joinedFlag 1))
      else if isSkinTone c then some (0, .of .skinTone)
      else if c.toNat == 0xe007f then some (0, .of (.joinedTags 0 0))
      else if isPicture c then some (0, .of .picture)
      else none
  | .joinedFlag letters =>
      if isRegionalIndicator c then
        some (if letters % 2 = 1 then -1 else 3, .of (.joinedFlag (letters + 1)))
      else if letters ≥ 2 && c == '\u200d' then some (0, .of .joiner)
      else none
  | .joinedTags letters digits => columnsBeforeTags? letters digits c
  | .kiratVowelE =>
      if c.toNat == 0x16d63 || c.toNat == 0x16d69 then some (0, .nothing)
      else if c.toNat == 0x16d67 then some (0, .of .kiratVowelAi)
      else if c.toNat == 0x16d68 then some (1, .of .kiratVowelE)
      else none
  | .kiratVowelAi => if c.toNat == 0x16d63 then some (0, .nothing) else none
  | .plain | .lineFeed | .joinedKeycap => none

/-- What a character above the first block adds. -/
def columnsAbove (c : Char) (ahead : Lookahead) : Int × Lookahead :=
  if ahead = .nothing then columnsAlone c
  else if c == '\ufe0f' then (0, ahead.selectPicture)
  else if c == '\ufe0e' then (0, ahead.selectText)
  else if ahead.textSelector && takesTextSelector c then (1, .nothing)
  else
    let ahead := { ahead with textSelector := false }
    if ahead.follower.seesThroughMarks && c == '\u200d' then
      (0, { ahead with joined := true })
    else if ahead.follower.seesThroughMarks && isLigatureMark c then (0, ahead)
    else (columnsBefore? ahead.follower ahead.joined c).getD (columnsAlone c)

/-- The columns that a character adds to what follows it. -/
def columnsWith (c : Char) (ahead : Lookahead) : Int × Lookahead :=
  if ahead.pictureSelector && takesPictureSelector c then
    (if ahead.follower == .joiner || ahead.follower == .joinedKeycap then 0 else 2,
      .of .picture)
  else
    let ahead := if ahead.pictureSelector then ahead.dropPictureSelector else ahead
    if c == '\n' then (1, .of .lineFeed)
    else if c == '\r' && ahead == .of .lineFeed then (0, .nothing)
    else if c.toNat ≤ 0xa0 then (1, .nothing)
    else columnsAbove c ahead

/-- The columns of a text and what its first character is to one before it. -/
def measure : List Char → Int × Lookahead
  | [] => (0, .nothing)
  | c :: cs =>
      let (sum, ahead) := measure cs
      let (columns, ahead) := columnsWith c ahead
      (sum + columns, ahead)

/-- The columns that a text takes once its escape sequences are read out. -/
def displayWidth (text : List Char) : Nat :=
  (measure (stripEscapes text)).1.toNat

end ScriptConsole.Text
