import TemplateMessages.Proofs.Markup.Locality

set_option autoImplicit false

/-!
# The start of a scan

`Reads` lists what a scan can find first, and how it goes on behind it.
-/

namespace TemplateMessages.Markup

open TemplateMessages.Text

/-- The scan of a text from its first token. -/
inductive Reads (position : Nat) (frames : List Frame) : (text : List Char) → Scan → Prop
  | nothing : Reads position frames [] ⟨[], position⟩
  | textRun {c : Char} {cs run rest : List Char} (plain : readConstruct? (c :: cs) = none)
      (found : textRun cs = (run, rest)) :
      Reads position frames (c :: cs)
        (.behind [.text ⟨position, position + byteLength (c :: run)⟩ (inherited frames)]
          (scanFrom (position + byteLength (c :: run)) frames rest))
  | comment {text chars rest : List Char}
      (found : readConstruct? text = some (.comment, chars, rest)) :
      Reads position frames text
        (.behind [.comment ⟨position, position + byteLength chars⟩]
          (scanFrom (position + byteLength chars) frames rest))
  | doctype {text chars rest : List Char} (found : readDoctype? text = some (chars, rest)) :
      Reads position frames text
        (.behind [.doctype ⟨position, position + byteLength chars⟩]
          (scanFrom (position + byteLength chars) frames rest))
  | strayEndTag {text name chars rest : List Char}
      (found : readEndTag? text = some (name, chars, rest))
      (closed : closeElement? (String.ofList name) frames = none) :
      Reads position frames text ⟨[], position⟩
  | rootEndTag {text name chars rest : List Char}
      (found : readEndTag? text = some (name, chars, rest))
      (root : String.ofList name = "template")
      (closed : closeElement? (String.ofList name) frames = some []) :
      Reads position frames text
        ⟨[.endTag ⟨position, position + byteLength chars⟩ (String.ofList name)],
          position + byteLength chars⟩
  | endTag {text name chars rest : List Char} {outer : List Frame}
      (found : readEndTag? text = some (name, chars, rest))
      (closed : closeElement? (String.ofList name) frames = some outer)
      (inside : ¬(outer.isEmpty = true ∧ String.ofList name = "template")) :
      Reads position frames text
        (.behind [.endTag ⟨position, position + byteLength chars⟩ (String.ofList name)]
          (scanFrom (position + byteLength chars) outer rest))
  | unclosedTag {text rest : List Char} {tag : TagText} (found : readTag? text = some (tag, rest))
      (close : tag.close = .missing) :
      Reads position frames text
        (.behind [.text ⟨position, position + byteLength tag.chars⟩ false]
          (scanFrom (position + byteLength tag.chars) frames rest))
  | leaf {text rest : List Char} {tag : TagText} (found : readTag? text = some (tag, rest))
      (close : tag.close ≠ .missing)
      (empty : tag.close = .selfClosing ∨ voidElements.contains (String.ofList tag.name) = true) :
      Reads position frames text
        (.behind [.startTag (tag.token position frames)]
          (scanFrom (position + byteLength tag.chars) frames rest))
  | rawText {text rest content last after : List Char} {tag : TagText}
      (found : readTag? text = some (tag, rest)) (close : tag.close = .plain)
      (notVoid : voidElements.contains (String.ofList tag.name) = false)
      (raw : rawTextElements.contains (String.ofList tag.name) = true)
      (ended : findEndTag? tag.name rest = some (content, last, after)) :
      Reads position frames text
        (let start := position + byteLength tag.chars
        let stop := start + byteLength content
        let next := stop + byteLength last
        .behind [.startTag (tag.token position frames), .rawText ⟨start, stop⟩,
          .endTag ⟨stop, next⟩ (String.ofList tag.name)] (scanFrom next frames after))
  | openRawText {text rest : List Char} {tag : TagText} (found : readTag? text = some (tag, rest))
      (close : tag.close = .plain)
      (notVoid : voidElements.contains (String.ofList tag.name) = false)
      (raw : rawTextElements.contains (String.ofList tag.name) = true)
      (ended : findEndTag? tag.name rest = none) :
      Reads position frames text
        (let start := position + byteLength tag.chars
        let stop := start + byteLength rest
        ⟨[.startTag (tag.token position frames), .rawText ⟨start, stop⟩], stop⟩)
  | element {text rest : List Char} {tag : TagText} (found : readTag? text = some (tag, rest))
      (close : tag.close = .plain)
      (notVoid : voidElements.contains (String.ofList tag.name) = false)
      (notRaw : rawTextElements.contains (String.ofList tag.name) = false) :
      Reads position frames text
        (.behind [.startTag (tag.token position frames)]
          (scanFrom (position + byteLength tag.chars)
            (⟨String.ofList tag.name, (tag.token position frames).translate⟩ :: frames) rest))

variable {position : Nat} {frames : List Frame} {text chars rest : List Char}

theorem reads_endTag {name : List Char} (h : readEndTag? text = some (name, chars, rest)) :
    Reads position frames text (scanFrom position frames text) := by
  have hconstruct := readConstruct?_of_readEndTag? h
  cases hclosed : closeElement? (String.ofList name) frames with
  | none =>
    rw [scanFrom_strayEndTag hconstruct hclosed]
    exact .strayEndTag h hclosed
  | some outer =>
    by_cases hroot : outer.isEmpty = true ∧ String.ofList name = "template"
    · obtain ⟨hempty, hname⟩ := hroot
      rw [List.isEmpty_iff.mp hempty] at hclosed
      have hscan : scanFrom position frames text =
          ⟨[.endTag ⟨position, position + byteLength chars⟩ (String.ofList name)],
            position + byteLength chars⟩ := by
        rw [hname] at hconstruct hclosed ⊢
        exact scanFrom_rootEndTag hconstruct hclosed
      rw [hscan]
      exact .rootEndTag h hname hclosed
    · rw [scanFrom_endTag hconstruct hclosed hroot]
      exact .endTag h hclosed hroot

theorem reads_startTag {tag : TagText} (h : readTag? text = some (tag, rest)) :
    Reads position frames text (scanFrom position frames text) := by
  by_cases hmissing : tag.close = .missing
  · rw [scanFrom_unclosedTag h hmissing]
    exact .unclosedTag h hmissing
  by_cases hleaf : tag.close = .selfClosing ∨
      voidElements.contains (String.ofList tag.name) = true
  · rw [scanFrom_leaf h hmissing hleaf]
    exact .leaf h hmissing hleaf
  obtain ⟨hselfClosing, hvoid⟩ := not_or.mp hleaf
  have hplain : tag.close = .plain := by
    cases hclose : tag.close with
    | plain => rfl
    | selfClosing => exact absurd hclose hselfClosing
    | missing => exact absurd hclose hmissing
  rw [Bool.not_eq_true] at hvoid
  cases hraw : rawTextElements.contains (String.ofList tag.name) with
  | false =>
    rw [scanFrom_element h hplain hvoid hraw]
    exact .element h hplain hvoid hraw
  | true =>
    cases hend : findEndTag? tag.name rest with
    | none =>
      rw [scanFrom_openRawText h hplain hvoid hraw hend]
      exact .openRawText h hplain hvoid hraw hend
    | some found =>
      obtain ⟨content, last, after⟩ := found
      rw [scanFrom_rawText h hplain hvoid hraw hend]
      exact .rawText h hplain hvoid hraw hend

theorem reads_scanFrom (position : Nat) (frames : List Frame) (text : List Char) :
    Reads position frames text (scanFrom position frames text) := by
  cases text with
  | nil =>
    simpa using .nothing
  | cons c cs =>
    cases hconstruct : readConstruct? (c :: cs) with
    | none =>
      rw [scanFrom_textRun hconstruct]
      exact .textRun hconstruct rfl
    | some read =>
      obtain ⟨construct, chars, rest⟩ := read
      have hcase := readConstruct?_cases hconstruct
      cases construct with
      | comment =>
        rw [scanFrom_comment hconstruct]
        exact .comment hconstruct
      | doctype =>
        rw [scanFrom_doctype hconstruct]
        exact .doctype hcase
      | endTag name =>
        obtain ⟨spelled, hend, -⟩ := hcase
        exact reads_endTag hend
      | startTag tag => exact reads_startTag hcase.1

end TemplateMessages.Markup
