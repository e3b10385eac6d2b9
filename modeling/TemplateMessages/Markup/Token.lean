import TemplateMessages.Markup.Tag

set_option autoImplicit false

/-!
# Tokens of a template

The scan cuts a template into tags, comments, doctypes, raw text and text, from left to right. A
stack of the open elements carries the `translate` flag: an element has the flag of its own
`translate` attribute, and that of the element around it when it has none. The scan ends early at
an end tag of no open element, and behind the end tag of the outermost `template`.
-/

namespace TemplateMessages.Markup

open TemplateMessages.Text

structure Frame where
  name : String
  translate : Bool
  deriving DecidableEq, Repr, Inhabited

structure StartTag where
  span : Span
  name : String
  attributes : List Attribute
  selfClosing : Bool
  translate : Bool
  /-- An outermost `template` element, whose attributes are left alone. -/
  root : Bool
  deriving DecidableEq, Repr, Inhabited

inductive Token where
  | text (span : Span) (translate : Bool)
  | comment (span : Span)
  | doctype (span : Span)
  | startTag (tag : StartTag)
  | endTag (span : Span) (name : String)
  | rawText (span : Span)
  deriving DecidableEq, Repr, Inhabited

inductive Construct where
  | comment
  | doctype
  | endTag (name : String)
  | startTag (tag : TagText)
  deriving DecidableEq, Repr, Inhabited

structure Scan where
  tokens : List Token
  stop : Nat
  deriving Repr, Inhabited

def rawTextElements : List String := ["script", "style", "textarea"]

def voidElements : List String := [
  "area", "base", "br", "col", "embed", "hr", "img", "input", "link", "meta", "param", "source",
  "track", "wbr"]

def inherited : List Frame → Bool
  | [] => true
  | frame :: _ => frame.translate

def translateFlag (around : Bool) (value : String) : Bool :=
  if value = "yes" ∨ value = "" then true
  else if value = "no" then false
  else around

/-- The flag of an element with these attributes: the last `translate` attribute that means
something decides. -/
def ownFlag (around : Bool) (attributes : List Attribute) : Bool :=
  (attributes.filter (·.name == "translate")).foldl
    (fun flag attr => translateFlag flag attr.valueText) around

def closeElement? (name : String) : List Frame → Option (List Frame)
  | [] => none
  | frame :: frames => if frame.name = name then some frames else closeElement? name frames

def readDoctype? (text : List Char) : Option (List Char × List Char) :=
  let keyword := "<!doctype ".toList
  let front := text.take keyword.length
  let rest := text.drop keyword.length
  if front.map Char.toLower = keyword then
    match rest.takeWhile (· ≠ '>'), rest.dropWhile (· ≠ '>') with
    | c :: cs, '>' :: after => some (front ++ c :: cs ++ ['>'], after)
    | _, _ => none
  else none

/-- The construct at the start of a text: what it is, its characters and the rest. -/
def readConstruct? (text : List Char) : Option (Construct × List Char × List Char) :=
  if "<!--".toList.isPrefixOf text then
    let (chars, rest) := through "-->".toList text
    some (.comment, chars, rest)
  else if "<![".toList.isPrefixOf text then
    let (chars, rest) := through "]>".toList text
    some (.comment, chars, rest)
  else
    match readDoctype? text with
    | some (chars, rest) => some (.doctype, chars, rest)
    | none =>
      match readEndTag? text with
      | some (name, chars, rest) => some (.endTag (String.ofList name), chars, rest)
      | none =>
        match readTag? text with
        | some (tag, rest) => some (.startTag tag, tag.chars, rest)
        | none => none

def startsMarkup (text : List Char) : Bool :=
  "<!--".toList.isPrefixOf text || "<![".toList.isPrefixOf text || (readEndTag? text).isSome ||
    (readTagOpen? text).isSome

def textRun : List Char → List Char × List Char
  | [] => ([], [])
  | c :: cs =>
    if startsMarkup (c :: cs) then ([], c :: cs)
    else
      let (run, rest) := textRun cs
      (c :: run, rest)

@[simp] theorem textRun_append (text : List Char) :
    (textRun text).1 ++ (textRun text).2 = text := by
  fun_induction textRun text with
  | case1 => rfl
  | case2 => rfl
  | case3 _ _ _ _ _ heq ih => simpa [heq] using ih

theorem cons_textRun_append (c : Char) (cs : List Char) :
    (c :: (textRun cs).1) ++ (textRun cs).2 = c :: cs := by
  simp

theorem append_of_readDoctype? {text chars rest : List Char}
    (h : readDoctype? text = some (chars, rest)) : chars ++ rest = text ∧ chars ≠ [] := by
  unfold readDoctype? at h
  dsimp only at h
  split at h
  · split at h
    · rename_i c cs after htake hdrop
      simp only [Option.some.injEq, Prod.mk.injEq] at h
      obtain ⟨rfl, rfl⟩ := h
      have inner := List.takeWhile_append_dropWhile (p := fun c => decide (c ≠ '>'))
        (l := text.drop "<!doctype ".toList.length)
      rw [htake, hdrop] at inner
      refine ⟨?_, by simp⟩
      conv => rhs; rw [← List.take_append_drop "<!doctype ".toList.length text, ← inner]
      simp
    · simp at h
  · simp at h

theorem append_of_readConstruct? {text chars rest : List Char} {construct : Construct}
    (h : readConstruct? text = some (construct, chars, rest)) :
    chars ++ rest = text ∧ chars ≠ [] := by
  have commented {phrase start : List Char} (hstart : start.isPrefixOf text = true)
      (hne : start ≠ []) (hphrase : phrase ≠ []) :
      (through phrase text).1 ++ (through phrase text).2 = text ∧ (through phrase text).1 ≠ [] := by
    refine ⟨through_append phrase text, ?_⟩
    unfold through
    split
    · simp [hphrase]
    · obtain ⟨tail, rfl⟩ := List.isPrefixOf_iff_prefix.mp hstart
      simp [hne]
  unfold readConstruct? at h
  split at h
  · rename_i hopen
    simp only [Option.some.injEq, Prod.mk.injEq] at h
    obtain ⟨rfl, rfl, rfl⟩ := h
    exact commented hopen (by decide) (by decide)
  · split at h
    · rename_i hopen
      simp only [Option.some.injEq, Prod.mk.injEq] at h
      obtain ⟨rfl, rfl, rfl⟩ := h
      exact commented hopen (by decide) (by decide)
    · split at h
      · rename_i hdoctype
        simp only [Option.some.injEq, Prod.mk.injEq] at h
        obtain ⟨rfl, rfl, rfl⟩ := h
        exact append_of_readDoctype? hdoctype
      · split at h
        · rename_i hend
          simp only [Option.some.injEq, Prod.mk.injEq] at h
          obtain ⟨rfl, rfl, rfl⟩ := h
          exact append_of_readEndTag? hend
        · split at h
          · rename_i htag
            simp only [Option.some.injEq, Prod.mk.injEq] at h
            obtain ⟨rfl, rfl, rfl⟩ := h
            exact ⟨append_of_readTag? htag, by simp [TagText.chars]⟩
          · simp at h

theorem length_lt_of_append {chars rest text : List Char}
    (h : chars ++ rest = text ∧ chars ≠ []) : rest.length < text.length := by
  have := List.length_pos_iff.mpr h.2
  rw [← h.1, List.length_append]
  omega

inductive Advance (text : List Char) where
  | stop (tokens : List Token) (position : Nat)
  | go (tokens : List Token) (frames : List Frame) (position : Nat) (rest : List Char)
      (shorter : rest.length < text.length)

def advanceEndTag {text : List Char} (position : Nat) (frames : List Frame) (name : String)
    (chars rest : List Char) (h : chars ++ rest = text ∧ chars ≠ []) : Advance text :=
  match closeElement? name frames with
  | none => .stop [] position
  | some outer =>
    let next := position + byteLength chars
    let token := Token.endTag ⟨position, next⟩ name
    if outer.isEmpty ∧ name = "template" then .stop [token] next
    else .go [token] outer next rest (length_lt_of_append h)

def advanceRawText {text : List Char} (position : Nat) (frames : List Frame) (tag : Token)
    (name : List Char) (rest : List Char) (h : rest.length < text.length) : Advance text :=
  match hend : findEndTag? name rest with
  | none =>
    let stop := position + byteLength rest
    .stop [tag, .rawText ⟨position, stop⟩] stop
  | some (content, chars, after) =>
    let start := position + byteLength content
    let stop := start + byteLength chars
    .go [tag, .rawText ⟨position, start⟩, .endTag ⟨start, stop⟩ (String.ofList name)] frames stop
      after (by
        have whole := (append_of_findEndTag? hend).1
        have : content.length + chars.length + after.length = rest.length := by
          rw [← whole, List.length_append, List.length_append]
        omega)

/-- Behind a start tag. What was read of a tag that does not close is text that is left alone. -/
def advanceStartTag {text : List Char} (position : Nat) (frames : List Frame) (tag : TagText)
    (chars rest : List Char) (h : chars ++ rest = text ∧ chars ≠ []) : Advance text :=
  let next := position + byteLength chars
  let span : Span := ⟨position, next⟩
  let name := String.ofList tag.name
  if tag.close = .missing then
    .go [.text span false] frames next rest (length_lt_of_append h)
  else
    let root := frames.isEmpty && name == "template"
    let attributes := tag.locate position
    let translate := if root then inherited frames else ownFlag (inherited frames) attributes
    let selfClosing := tag.close == .selfClosing
    let token := Token.startTag { span, name, attributes, selfClosing, translate, root }
    if selfClosing ∨ voidElements.contains name then
      .go [token] frames next rest (length_lt_of_append h)
    else if rawTextElements.contains name then
      advanceRawText next frames token tag.name rest (length_lt_of_append h)
    else .go [token] (⟨name, translate⟩ :: frames) next rest (length_lt_of_append h)

def advanceText (position : Nat) (frames : List Frame) (c : Char) (cs : List Char) :
    Advance (c :: cs) :=
  let (run, rest) := textRun cs
  let next := position + byteLength (c :: run)
  .go [.text ⟨position, next⟩ (inherited frames)] frames next (textRun cs).2 (by
    have := congrArg List.length (textRun_append cs)
    rw [List.length_append] at this
    simp only [List.length_cons]
    omega)

def advance (position : Nat) (frames : List Frame) (c : Char) (cs : List Char) :
    Advance (c :: cs) :=
  match h : readConstruct? (c :: cs) with
  | none => advanceText position frames c cs
  | some (construct, chars, rest) =>
    have whole := append_of_readConstruct? h
    let next := position + byteLength chars
    match construct with
    | .comment => .go [.comment ⟨position, next⟩] frames next rest (length_lt_of_append whole)
    | .doctype => .go [.doctype ⟨position, next⟩] frames next rest (length_lt_of_append whole)
    | .endTag name => advanceEndTag position frames name chars rest whole
    | .startTag tag => advanceStartTag position frames tag chars rest whole

/-- The scan of a text that starts at a position inside these open elements. -/
def scanFrom (position : Nat) (frames : List Frame) (text : List Char) : Scan :=
  match text with
  | [] => ⟨[], position⟩
  | c :: cs =>
    match advance position frames c cs with
    | .stop tokens stop => ⟨tokens, stop⟩
    | .go tokens frames next rest _ =>
      let scanned := scanFrom next frames rest
      ⟨tokens ++ scanned.tokens, scanned.stop⟩
termination_by text.length
decreasing_by assumption

/-- The scan of a region of a text. -/
def scan (source : List Char) (region : Span) : Scan :=
  scanFrom region.start [] (region.slice source)

namespace Scan

def translatableText (scanned : Scan) : List Span :=
  scanned.tokens.filterMap fun
    | .text span true => some span
    | _ => none

/-- The start tags whose attributes are translated. -/
def translatableTags (scanned : Scan) : List StartTag :=
  scanned.tokens.filterMap fun
    | .startTag tag => if tag.translate && !tag.root then some tag else none
    | _ => none

end Scan

end TemplateMessages.Markup
