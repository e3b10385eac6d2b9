import TemplateMessages.Proofs.Markup.Enclosed
import TemplateMessages.Proofs.Markup.Inheritance
import TemplateMessages.Proofs.Markup.Reads
import TemplateMessages.Proofs.Text.Placement

set_option autoImplicit false

/-!
# The scan of a template and of its content

A scan goes on in the same way wherever its text starts. Inside a template it has one more element at
the bottom of its stack than the scan of the content on its own, and an outermost template of the
content, which is the root there, is an element like any other.
-/

namespace TemplateMessages.Markup

open TemplateMessages.Text

def AttributeValue.shift (value : AttributeValue) (base : Nat) : AttributeValue :=
  { value with span := value.span.shift base }

/-- The attribute in a text that has `base` more bytes in front. -/
def Attribute.shift (attr : Attribute) (base : Nat) : Attribute :=
  { attr with span := attr.span.shift base, value := attr.value.map (·.shift base) }

@[simp] theorem ValueText.locate_shift (value : ValueText) (position base : Nat) :
    value.locate (position + base) = (value.locate position).shift base := by
  simp only [ValueText.locate, AttributeValue.shift, Span.shift, AttributeValue.mk.injEq,
    Span.mk.injEq, and_true]
  omega

@[simp] theorem AttributeText.locate_shift (attr : AttributeText) (position base : Nat) :
    attr.locate (position + base) = (attr.locate position).shift base := by
  have hstart : position + base + byteLength attr.blanks =
      position + byteLength attr.blanks + base := by omega
  have hname (start : Nat) : start + base + byteLength attr.name =
      start + byteLength attr.name + base := by omega
  simp only [AttributeText.locate, Attribute.shift, Span.shift, Attribute.mk.injEq, Span.mk.injEq,
    true_and, and_true, Option.map_map, hstart, hname, ValueText.locate_shift]
  exact ⟨by omega, rfl⟩

@[simp] theorem locateAttributes_shift (position base : Nat) (attrs : List AttributeText) :
    locateAttributes (position + base) attrs =
      (locateAttributes position attrs).map (·.shift base) := by
  induction attrs generalizing position with
  | nil => rfl
  | cons attr attrs ih =>
    have hnext : position + base + byteLength attr.chars =
        position + byteLength attr.chars + base := by omega
    simp [locateAttributes, hnext, ih]

@[simp] theorem TagText.locate_shift (tag : TagText) (position base : Nat) :
    tag.locate (position + base) = (tag.locate position).map (·.shift base) := by
  have hname : position + base + byteLength ('<' :: tag.name) =
      position + byteLength ('<' :: tag.name) + base := by omega
  rw [TagText.locate, TagText.locate, hname, locateAttributes_shift]

@[simp] theorem ownFlag_shift (around : Bool) (attrs : List Attribute) (base : Nat) :
    ownFlag around (attrs.map (·.shift base)) = ownFlag around attrs := by
  have hvalue (attr : Attribute) : (attr.shift base).valueText = attr.valueText := by
    unfold Attribute.valueText Attribute.shift
    cases attr.value <;> rfl
  unfold ownFlag
  rw [List.filter_map, List.foldl_map]
  simp only [hvalue]
  rfl

def StartTag.shift (tag : StartTag) (base : Nat) : StartTag :=
  { tag with span := tag.span.shift base, attributes := tag.attributes.map (·.shift base) }

/-- The token in a text that has `base` more bytes in front. -/
def Token.shift (base : Nat) : Token → Token
  | text span translate => text (span.shift base) translate
  | comment span => comment (span.shift base)
  | doctype span => doctype (span.shift base)
  | startTag tag => startTag (tag.shift base)
  | endTag span name => endTag (span.shift base) name
  | rawText span => rawText (span.shift base)

def Scan.shift (scanned : Scan) (base : Nat) : Scan :=
  ⟨scanned.tokens.map (Token.shift base), scanned.stop + base⟩

@[simp] theorem Scan.shift_behind (tokens : List Token) (scanned : Scan) (base : Nat) :
    (scanned.behind tokens).shift base =
      (scanned.shift base).behind (tokens.map (Token.shift base)) := by
  unfold Scan.shift Scan.behind
  rw [List.map_append]

variable {name : String} {frames outer : List Frame} {text chars rest : List Char}
  {position base : Nat} {dark : Prop}

@[simp] theorem TagText.token_shift (tag : TagText) (position base : Nat) (frames : List Frame) :
    tag.token (position + base) frames = (tag.token position frames).shift base := by
  have hnext : position + base + byteLength tag.chars =
      position + byteLength tag.chars + base := by omega
  unfold TagText.token StartTag.shift Span.shift
  rw [tag.locate_shift, hnext]
  simp

@[simp] theorem scanFrom_shift (position base : Nat) (frames : List Frame) (text : List Char) :
    scanFrom (position + base) frames text = (scanFrom position frames text).shift base := by
  -- On the length of the text: a position is only ever added to.
  induction hlength : text.length using Nat.strong_induction_on generalizing position frames text
    with
  | _ n ih =>
    have hreads := reads_scanFrom position frames text
    generalize scanFrom position frames text = scanned at hreads
    have hmove (start length : Nat) : start + base + length = start + length + base := by omega
    have hgo {chars rest : List Char} (position : Nat) (outer : List Frame)
        (whole : chars ++ rest = text ∧ chars ≠ []) :
        scanFrom (position + base) outer rest = (scanFrom position outer rest).shift base :=
      ih _ (hlength ▸ length_lt_of_append whole) position outer rest rfl
    have hchars (tag : TagText) : tag.chars ≠ [] := by simp [TagText.chars]
    cases hreads with
    | nothing => exact scanFrom_nil _ _
    | @textRun c cs run rest plain found =>
      have whole := cons_textRun_append c cs
      rw [found] at whole
      rw [scanFrom_textRun plain, found, Scan.shift_behind, hmove,
        hgo _ _ ⟨whole, List.cons_ne_nil _ _⟩]
      rfl
    | comment found =>
      rw [scanFrom_comment found, Scan.shift_behind, hmove, hgo _ _ (append_of_readConstruct? found)]
      rfl
    | doctype found =>
      rw [scanFrom_doctype (readConstruct?_of_readDoctype? found), Scan.shift_behind, hmove,
        hgo _ _ (append_of_readDoctype? found)]
      rfl
    | strayEndTag found closed =>
      exact scanFrom_strayEndTag (readConstruct?_of_readEndTag? found) closed
    | rootEndTag found root closed =>
      have hread := readConstruct?_of_readEndTag? found
      rw [root] at hread closed ⊢
      rw [scanFrom_rootEndTag hread closed, hmove]
      rfl
    | endTag found closed inside =>
      rw [scanFrom_endTag (readConstruct?_of_readEndTag? found) closed inside, Scan.shift_behind,
        hmove, hgo _ _ (append_of_readEndTag? found)]
      rfl
    | @unclosedTag _ rest tag found close =>
      rw [scanFrom_unclosedTag found close, Scan.shift_behind, hmove,
        hgo _ _ ⟨append_of_readTag? found, hchars tag⟩]
      rfl
    | @leaf _ rest tag found close empty =>
      rw [scanFrom_leaf found close empty, Scan.shift_behind, tag.token_shift, hmove,
        hgo _ _ ⟨append_of_readTag? found, hchars tag⟩]
      rfl
    | @rawText _ rest content last after tag found close notVoid raw ended =>
      have whole : tag.chars ++ content ++ last ++ after = text := by
        rw [← append_of_readTag? found, ← (append_of_findEndTag? ended).1]
        simp
      dsimp only
      rw [scanFrom_rawText found close notVoid raw ended, Scan.shift_behind, tag.token_shift]
      simp only [hmove]
      rw [hgo _ _ ⟨whole, by simp [TagText.chars]⟩]
      rfl
    | @openRawText _ rest tag found close notVoid raw ended =>
      rw [scanFrom_openRawText found close notVoid raw ended, tag.token_shift]
      simp only [hmove]
      rfl
    | @element _ rest tag found close notVoid notRaw =>
      rw [scanFrom_element found close notVoid notRaw, Scan.shift_behind, tag.token_shift, hmove,
        hgo _ _ ⟨append_of_readTag? found, hchars tag⟩]
      rfl

def templateElement : ElementName where
  chars := "template".toList
  ne_nil := by decide
  isAlpha := by decide
  not_void := by decide
  not_rawText := by decide

def templateFrame : Frame :=
  ⟨"template", true⟩

theorem readTag?_inTemplate (content : List Char) :
    readTag? (inTemplate content) =
      some (templateElement.startTag none, content ++ templateEnd) := by
  rw [inTemplate, List.append_assoc]
  exact templateElement.readTag?_append none (content ++ templateEnd)

theorem scanFrom_inTemplate (content : List Char) :
    scanFrom 0 [] (inTemplate content) =
      .behind [.startTag ((templateElement.startTag none).token 0 [])]
        ((scanFrom 0 [templateFrame] (content ++ templateEnd)).shift (byteLength templateStart)) := by
  rw [← scanFrom_shift]
  exact scanFrom_element (readTag?_inTemplate content) rfl templateElement.not_void
    templateElement.not_rawText

/-- What a place of the content has for its flag on its own and inside the template: only what is on
on its own is on there, and all of that is unless `dark`. -/
def Dims (dark : Prop) (own inner : Bool) : Prop :=
  (inner = true → own = true) ∧ (own = true → inner = true ∨ dark)

theorem Dims.refl (dark : Prop) (flag : Bool) : Dims dark flag flag :=
  ⟨id, .inl⟩

theorem Dims.imp {dark dark' : Prop} {own inner : Bool} (h : Dims dark own inner)
    (hdark : dark → dark') : Dims dark' own inner :=
  ⟨h.1, fun hown => (h.2 hown).imp_right hdark⟩

theorem Dims.translateFlag {own inner : Bool} (h : Dims dark own inner) (value : String) :
    Dims dark (translateFlag own value) (translateFlag inner value) := by
  unfold Markup.translateFlag
  split
  · exact .refl dark true
  · split
    · exact .refl dark false
    · exact h

theorem Dims.ownFlag {own inner : Bool} (h : Dims dark own inner) (attrs : List Attribute) :
    Dims dark (ownFlag own attrs) (ownFlag inner attrs) := by
  unfold Markup.ownFlag
  induction attrs.filter (·.name == "translate") generalizing own inner with
  | nil => exact h
  | cons attr attrs ih => exact ih (h.translateFlag attr.valueText)

/-- The open elements of a place of the content, on its own and inside the template. -/
inductive Under (dark : Prop) : List Frame → List Frame → Prop
  | bottom : Under dark [] [templateFrame]
  | element {frames inside : List Frame} {own inner : Bool} (name : String)
      (flags : Dims dark own inner) (around : Under dark frames inside) :
      Under dark (⟨name, own⟩ :: frames) (⟨name, inner⟩ :: inside)

namespace Under

variable {inside : List Frame}

theorem imp {dark' : Prop} (h : Under dark frames inside) (hdark : dark → dark') :
    Under dark' frames inside := by
  induction h with
  | bottom => exact .bottom
  | element name flags _ ih => exact .element name (flags.imp hdark) ih

theorem inherited (h : Under dark frames inside) :
    Dims dark (inherited frames) (inherited inside) := by
  cases h with
  | bottom => exact .refl dark true
  | element _ flags _ => exact flags

theorem ne_nil (h : Under dark frames inside) : inside ≠ [] := by
  cases h <;> exact List.cons_ne_nil _ _

theorem closeElement? (h : Under dark frames inside)
    (hclosed : closeElement? name frames = some outer) :
    ∃ around, Markup.closeElement? name inside = some around ∧ Under dark outer around := by
  induction h with
  | bottom => cases hclosed
  | element label _ around ih =>
    rw [Markup.closeElement?] at hclosed ⊢
    split at hclosed
    · rename_i heq
      rw [if_pos heq]
      obtain rfl := Option.some.inj hclosed
      exact ⟨_, rfl, around⟩
    · rename_i heq
      rw [if_neg heq]
      exact ih hclosed

theorem closeElement?_of_none (h : Under dark frames inside)
    (hclosed : Markup.closeElement? name frames = none) :
    Markup.closeElement? name inside = if name = "template" then some [] else none := by
  induction h with
  | bottom =>
    rw [Markup.closeElement?, Markup.closeElement?]
    exact if_congr eq_comm rfl rfl
  | element label _ _ ih =>
    rw [Markup.closeElement?] at hclosed ⊢
    split at hclosed
    · cases hclosed
    · rename_i heq
      rw [if_neg heq]
      exact ih hclosed

/-- A start tag has the same attributes in both, and none is the root inside the template. The flags
differ where the attributes of a root are left alone. -/
theorem token (h : Under dark frames inside) (tag : TagText) (position : Nat) :
    (tag.token position inside).root = false ∧
      Dims (dark ∨ (tag.token position frames).root = true ∧
          Markup.ownFlag true (tag.token position frames).attributes = false)
        (tag.token position frames).translate (tag.token position inside).translate := by
  have hroot : (tag.token position inside).root = false := by
    have hne := List.isEmpty_eq_false_iff.mpr h.ne_nil
    simp only [TagText.token, hne, Bool.false_and]
  have hflag : (tag.token position inside).translate =
      Markup.ownFlag (Markup.inherited inside) (tag.locate position) := by
    change (if (tag.token position inside).root = true then _ else _) = _
    rw [hroot]
    rfl
  refine ⟨hroot, ?_⟩
  rw [hflag]
  cases hown : (tag.token position frames).root with
  | false =>
    have heq : (tag.token position frames).translate =
        Markup.ownFlag (Markup.inherited frames) (tag.locate position) := by
      change (if (tag.token position frames).root = true then _ else _) = _
      rw [hown]
      rfl
    rw [heq]
    exact (h.inherited.ownFlag _).imp .inl
  | true =>
    have hempty : frames = [] := by
      have hboth : (frames.isEmpty && String.ofList tag.name == "template") = true := hown
      exact List.isEmpty_iff.mp (Bool.and_eq_true_iff.mp hboth).1
    subst hempty
    have heq : (tag.token position []).translate = true := by
      change (if (tag.token position []).root = true then _ else _) = _
      rw [hown]
      rfl
    rw [heq]
    cases h
    cases hinner : Markup.ownFlag true (tag.locate position) with
    | true => exact ⟨fun _ => rfl, fun _ => .inl hinner⟩
    | false => exact ⟨fun _ => rfl, fun _ => .inr (.inr ⟨rfl, hinner⟩)⟩

end Under

end TemplateMessages.Markup
