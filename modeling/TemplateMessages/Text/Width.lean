import TemplateMessages.Text.Emoji
import TemplateMessages.Text.Ligature

set_option autoImplicit false

/-!
# Display width

The number of columns that a text takes on a terminal. It is the sum of the columns of the
characters, except where characters are shown together: emoji with their marks, modifiers and
joiners, flags, ligatures, and the end of a line. The text is read from its end, and of what was
read only a summary is kept.
-/

namespace TemplateMessages.Text

inductive Following where
  | nothing
  | lineFeed
  | alef
  | ligature (part : Ligature) (joined : Bool)
  | emoji
  | modifier
  | indicator
  | indicators
  | joinedEmoji
  | joinedKeycap
  /-- A number of regional indicators, a joiner and an emoji. -/
  | joinedIndicator
  | joinedEvenIndicators
  | joinedOddIndicators
  /-- The end of the tags of a flag, a joiner and an emoji; `letters` tags stand in front. -/
  | joinedTagLetters (letters : Nat)
  | joinedTagDigits (digits : Nat)
  deriving DecidableEq, Repr, Inhabited

inductive Mark where
  | emoji
  | text
  | fullWidth
  deriving DecidableEq, Repr, Inhabited

structure Behind where
  following : Following
  mark : Option Mark
  deriving DecidableEq, Repr, Inhabited

namespace Following

def alone (c : Char) : Int × Following :=
  if isZeroWidth c then (0, nothing)
  else if isModifier c then (2, modifier)
  else if isRegionalIndicator c then (1, indicator)
  else if isEmoji c then (2, emoji)
  else if LamAlef.isAlef c then (1, alef)
  else
    match Ligature.ofLetter? c with
    | some part => (1, ligature part false)
    | none => (columns c, nothing)

def withLigature? (part : Ligature) (joined : Bool) (c : Char) : Option (Int × Following) :=
  if c = joiner then some (0, ligature part true)
  else if Ligature.isTransparent c then some (0, ligature part joined)
  else
    (part.extend? joined c).map fun (width, part) =>
      (width, match part with
        | some part => ligature part false
        | none => nothing)

def withJoinedEmoji? (c : Char) : Option (Int × Following) :=
  if isKeycap c then some (0, joinedKeycap)
  else if isRegionalIndicator c then some (1, joinedIndicator)
  else if isModifier c then some (0, modifier)
  else if isTagEnd c then some (0, joinedTagLetters 0)
  else if isEmoji c then some (0, emoji)
  else none

/-- A character in front of `letters` tags: of letters there are up to six, in front of at most four
of them up to three digits, and a flag has three letters at least. -/
def withTagLetters? (letters : Nat) (c : Char) : Option (Int × Following) :=
  if isTagLetter c ∧ letters < 6 then some (0, joinedTagLetters (letters + 1))
  else if isTagDigit c ∧ letters ≤ 4 then some (0, joinedTagDigits 1)
  else if isTaggedFlag c ∧ 3 ≤ letters then some (0, emoji)
  else none

def withTagDigits? (digits : Nat) (c : Char) : Option (Int × Following) :=
  if isTagDigit c ∧ digits < 3 then some (0, joinedTagDigits (digits + 1))
  else if isTaggedFlag c ∧ digits = 3 then some (0, emoji)
  else none

def together? (following : Following) (c : Char) : Option (Int × Following) :=
  match following with
  | nothing | lineFeed => none
  | alef =>
    if LamAlef.isLam c then some (0, nothing)
    else if LamAlef.isMark c then some (0, alef)
    else none
  | ligature part joined => withLigature? part joined c
  | emoji => if c = joiner then some (0, joinedEmoji) else none
  | modifier =>
    if c = joiner then some (0, joinedEmoji)
    else if isModifierBase c then some (0, emoji)
    else none
  | indicator => if isRegionalIndicator c then some (1, indicators) else none
  | indicators =>
    if c = joiner then some (0, joinedEmoji)
    else if isRegionalIndicator c then some (1, indicators)
    else none
  | joinedEmoji => withJoinedEmoji? c
  | joinedKeycap => none
  | joinedIndicator => if isRegionalIndicator c then some (-1, joinedEvenIndicators) else none
  | joinedEvenIndicators =>
    if c = joiner then some (0, joinedEmoji)
    else if isRegionalIndicator c then some (3, joinedOddIndicators)
    else none
  | joinedOddIndicators =>
    if c = joiner then some (0, joinedEmoji)
    else if isRegionalIndicator c then some (-1, joinedEvenIndicators)
    else none
  | joinedTagLetters letters => withTagLetters? letters c
  | joinedTagDigits digits => withTagDigits? digits c

/-- The columns that a character adds in front of what stands behind it. -/
def before (following : Following) (c : Char) : Int × Following :=
  (following.together? c).getD (alone c)

def isJoined : Following → Bool
  | joinedEmoji | joinedKeycap => true
  | _ => false

/-- What is left behind a mark: a ligature goes on through all marks, an Arabic one and joined emoji
only through the mark of an emoji. -/
def throughMark (mark : Mark) : Following → Following
  | ligature part joined => ligature part joined
  | alef => if mark = .emoji then alef else nothing
  | joinedEmoji => if mark = .emoji then joinedEmoji else nothing
  | joinedKeycap => if mark = .emoji then joinedKeycap else nothing
  | _ => nothing

end Following

def Mark.ofChar? (c : Char) : Option Mark :=
  if c = emojiMark then some .emoji
  else if c = textMark then some .text
  else if c = '\ufe01' then some .fullWidth
  else none

def isQuotationMark (c : Char) : Bool :=
  c == '\u2018' || c == '\u2019' || c == '\u201c' || c == '\u201d'

def Mark.columns? (mark : Mark) (following : Following) (c : Char) : Option (Int × Following) :=
  match mark with
  | emoji => if isMarkable c then some (if following.isJoined then 0 else 2, .emoji) else none
  | text =>
    if isMarkable c && isEmoji c && !isEnclosedIdeograph c then some (1, .nothing) else none
  | fullWidth => if isQuotationMark c then some (2, .nothing) else none

namespace Behind

def nothing : Behind := ⟨.nothing, none⟩

/-- The columns that a character adds in front of what stands behind it. A character up to the last
control character is not shown together with others, the end of a line apart. -/
def before (behind : Behind) (c : Char) : Int × Behind :=
  match behind.mark.bind (·.columns? behind.following c) with
  | some (width, following) => (width, ⟨following, none⟩)
  | none =>
    if c = '\n' then (1, ⟨.lineFeed, none⟩)
    else if c = '\r' ∧ behind.following = .lineFeed then (0, nothing)
    else if c.toNat ≤ 0xA0 then (1, nothing)
    else
      match Mark.ofChar? c with
      | some mark => (0, ⟨behind.following.throughMark mark, some mark⟩)
      | none =>
        let (width, following) := behind.following.before c
        (width, ⟨following, none⟩)

end Behind

def measure (text : List Char) : Int × Behind :=
  text.foldr
    (fun c (width, behind) =>
      let (added, behind) := behind.before c
      (width + added, behind))
    (0, .nothing)

def displayWidth (text : List Char) : Nat :=
  (measure text).1.toNat

end TemplateMessages.Text
