import TemplateMessages.Proofs.Markup.TagReading

set_option autoImplicit false

/-!
# Inheritance of the translate flag

A forest of elements and texts is printed as markup and scanned. The scan gives the start tags, texts
and end tags in document order, and each text and start tag has the flag of the nearest `translate`
attribute around it that says `yes` or `no`. The scan threads a flag through its stack of open
elements; the forest looks the nearest attribute up in the list of all that enclose a place.
-/

namespace TemplateMessages.Markup

open TemplateMessages.Expression (Quote)
open TemplateMessages.Text

structure ElementName where
  chars : List Char
  ne_nil : chars ≠ []
  isAlpha : ∀ c ∈ chars, c.isAlpha = true
  not_void : voidElements.contains (String.ofList chars) = false
  not_rawText : rawTextElements.contains (String.ofList chars) = false

structure TranslateValue where
  chars : List Char
  quote : Quote
  quote_ne_back : quote ≠ .back
  quote_not_mem : quote.toChar ∉ chars

structure TextChars where
  chars : List Char
  ne_nil : chars ≠ []
  bracket_not_mem : '<' ∉ chars

/-- A sequence of texts and elements. -/
inductive Forest where
  | nil
  | text (run : TextChars) (rest : Forest)
  | element (name : ElementName) (value : Option TranslateValue) (content rest : Forest)

def TranslateValue.attributeText (value : TranslateValue) : AttributeText :=
  ⟨[' '], "translate".toList, some ⟨['='], some value.quote, value.chars⟩, false⟩

namespace ElementName

def startTag (name : ElementName) (value : Option TranslateValue) : TagText :=
  ⟨name.chars, value.toList.map TranslateValue.attributeText, .plain, ['>']⟩

def endTag (name : ElementName) : List Char :=
  '<' :: '/' :: name.chars ++ ['>']

end ElementName

def TranslateValue.decides? (value : TranslateValue) : Option Bool :=
  if value.chars = "yes".toList ∨ value.chars = [] then some true
  else if value.chars = "no".toList then some false
  else none

def nearestFlag (enclosing : List TranslateValue) : Bool :=
  (enclosing.findSome? TranslateValue.decides?).getD true

/-- The start tag of an element at `position`, inside these `translate` attributes. -/
def ElementName.token (name : ElementName) (value : Option TranslateValue) (position : Nat)
    (enclosing : List TranslateValue) : StartTag where
  span := ⟨position, position + byteLength (name.startTag value).chars⟩
  name := String.ofList name.chars
  attributes := (name.startTag value).locate position
  selfClosing := false
  translate := nearestFlag (value.toList ++ enclosing)
  root := false

namespace Forest

def chars : Forest → List Char
  | nil => []
  | text run rest => run.chars ++ rest.chars
  | element name value content rest =>
    (name.startTag value).chars ++ content.chars ++ name.endTag ++ rest.chars

/-- The texts and tags in document order, the first at `position`. -/
def tokens (position : Nat) (enclosing : List TranslateValue) : Forest → List Token
  | nil => []
  | text run rest =>
    let next := position + byteLength run.chars
    .text ⟨position, next⟩ (nearestFlag enclosing) :: rest.tokens next enclosing
  | element name value content rest =>
    let inner := position + byteLength (name.startTag value).chars
    let last := inner + byteLength content.chars
    let next := last + byteLength name.endTag
    .startTag (name.token value position enclosing) ::
      (content.tokens inner (value.toList ++ enclosing) ++
        .endTag ⟨last, next⟩ (String.ofList name.chars) :: rest.tokens next enclosing)

def startsWithText : Forest → Bool
  | text .. => true
  | _ => false

/-- No two texts are adjacent. -/
def Alternates : Forest → Prop
  | nil => True
  | text _ rest => rest.startsWithText = false ∧ rest.Alternates
  | element _ _ content rest => content.Alternates ∧ rest.Alternates

/-- The names of the outermost elements. -/
def topNames : Forest → List (List Char)
  | nil => []
  | text _ rest => rest.topNames
  | element name _ _ rest => name.chars :: rest.topNames

end Forest

theorem isNameChar_of_isAlpha {c : Char} (h : c.isAlpha = true) : isNameChar c = true := by
  simp [isNameChar, Char.isAlphanum, h]

theorem ElementName.readQualifiedName?_append (name : ElementName) {d : Char} (rest : List Char)
    (hd : isNameChar d = false) (hcolon : d ≠ ':') :
    readQualifiedName? (name.chars ++ d :: rest) = some (name.chars, d :: rest) := by
  obtain ⟨chars, hne, halpha, _, _⟩ := name
  cases chars with
  | nil => exact absurd rfl hne
  | cons c cs =>
    have hstart : isNameStart c = true := by
      simp [isNameStart, halpha c List.mem_cons_self]
    have hcs : ∀ e ∈ cs, isNameChar e = true := fun e he =>
      isNameChar_of_isAlpha (halpha e (List.mem_cons_of_mem _ he))
    have hread : readName? (c :: cs ++ d :: rest) = some (c :: cs, d :: rest) := by
      rw [List.cons_append, readName?, if_pos hstart, List.takeWhile_append_of_pos hcs,
        List.dropWhile_append_of_pos hcs, List.takeWhile_cons_of_neg (by simp [hd]),
        List.dropWhile_cons_of_neg (by simp [hd]), List.append_nil]
    unfold readQualifiedName?
    rw [hread]
    split
    · rename_i hnone
      cases hnone
    · rename_i heq
      cases heq
      exact absurd rfl hcolon
    · rename_i heq
      cases heq
      rfl

theorem TranslateValue.standsBefore (value : TranslateValue) (rest : List Char) :
    value.attributeText.StandsBefore rest := by
  have hplain : readDynamicName? "translate".toList = none := by
    have hdirective : readDirective? "translate".toList = none := rfl
    rw [readDynamicName?, hdirective]
  exact staticText_standsBefore (by decide) (by decide) (by decide) hplain value.quote_ne_back
    value.quote_not_mem rest

namespace ElementName

variable (name : ElementName) (value : Option TranslateValue)

theorem readTagOpen?_append {d : Char} (rest : List Char) (hd : isNameChar d = false)
    (hcolon : d ≠ ':') :
    readTagOpen? ('<' :: (name.chars ++ d :: rest)) = some (name.chars, d :: rest) :=
  name.readQualifiedName?_append rest hd hcolon

theorem chars_startTag (rest : List Char) :
    (name.startTag value).chars ++ rest =
      '<' :: (name.chars ++
        (TagText.attributeChars (name.startTag value).attributes ++ '>' :: rest)) := by
  simp [TagText.chars, startTag]

theorem exists_attributeChars (rest : List Char) :
    ∃ d ds, TagText.attributeChars (name.startTag value).attributes ++ '>' :: rest = d :: ds ∧
      isNameChar d = false ∧ d ≠ ':' := by
  cases value with
  | none => exact ⟨'>', rest, rfl, by decide, by decide⟩
  | some value => exact ⟨' ', _, rfl, by decide, by decide⟩

theorem standsBefore (rest : List Char) : (name.startTag value).StandsBefore rest := by
  have hclose : readAttribute? ('>' :: rest) = none := rfl
  refine ⟨?_, ?_, rfl⟩
  · obtain ⟨d, ds, heq, hd, hcolon⟩ := name.exists_attributeChars value rest
    show readQualifiedName? (name.chars ++
      (TagText.attributeChars (name.startTag value).attributes ++ '>' :: rest)) = some (name.chars,
        TagText.attributeChars (name.startTag value).attributes ++ '>' :: rest)
    rw [heq]
    exact name.readQualifiedName?_append ds hd hcolon
  · cases value with
    | none => exact hclose
    | some value => exact ⟨value.standsBefore _, hclose⟩

@[simp] theorem readTag?_append (rest : List Char) :
    readTag? ((name.startTag value).chars ++ rest) = some (name.startTag value, rest) :=
  (name.standsBefore value rest).readTag?_eq

@[simp] theorem startsMarkup_startTag (rest : List Char) :
    startsMarkup ((name.startTag value).chars ++ rest) = true := by
  obtain ⟨d, ds, heq, hd, hcolon⟩ := name.exists_attributeChars value rest
  rw [chars_startTag, heq]
  simp [startsMarkup, name.readTagOpen?_append ds hd hcolon]

@[simp] theorem readEndTag?_append (rest : List Char) :
    readEndTag? (name.endTag ++ rest) = some (name.chars, name.endTag, rest) := by
  have hname := name.readQualifiedName?_append rest (d := '>') (by decide) (by decide)
  have hsplit : name.endTag ++ rest = '<' :: '/' :: (name.chars ++ '>' :: rest) := by
    simp [endTag]
  rw [hsplit, readEndTag?, hname]
  simp [endTag]

@[simp] theorem startsMarkup_endTag (rest : List Char) :
    startsMarkup (name.endTag ++ rest) = true := by
  simp [startsMarkup]

end ElementName

theorem translateFlag_eq (around : Bool) (value : TranslateValue) :
    translateFlag around (String.ofList value.chars) = value.decides?.getD around := by
  have hofList (text : String) : String.ofList value.chars = text ↔ value.chars = text.toList := by
    rw [← String.toList_inj, String.toList_ofList]
  unfold translateFlag TranslateValue.decides?
  simp only [hofList, String.toList_empty]
  split
  · rfl
  · split <;> rfl

@[simp] theorem nearestFlag_cons (value : TranslateValue) (enclosing : List TranslateValue) :
    nearestFlag (value :: enclosing) = value.decides?.getD (nearestFlag enclosing) := by
  unfold nearestFlag
  rw [List.findSome?_cons]
  cases value.decides? <;> rfl

theorem ownFlag_startTag (name : ElementName) (value : Option TranslateValue) (position : Nat)
    (enclosing : List TranslateValue) :
    ownFlag (nearestFlag enclosing) ((name.startTag value).locate position) =
      nearestFlag (value.toList ++ enclosing) := by
  cases value with
  | none => rfl
  | some value =>
    rw [Option.toList_some, List.singleton_append, nearestFlag_cons, ← translateFlag_eq]
    rfl

namespace Forest

theorem startsMarkup_chars {forest : Forest} {rest : List Char}
    (htext : forest.startsWithText = false) (hrest : rest = [] ∨ startsMarkup rest = true) :
    forest.chars ++ rest = [] ∨ startsMarkup (forest.chars ++ rest) = true := by
  cases forest with
  | nil => exact hrest
  | text => cases htext
  | element name value content after =>
    right
    simp only [chars, List.append_assoc]
    exact name.startsMarkup_startTag value _

theorem scanFrom_startTag {name : ElementName} {frames : List Frame}
    {enclosing : List TranslateValue} (value : Option TranslateValue) (position : Nat)
    (hflag : inherited frames = nearestFlag enclosing)
    (hroot : frames = [] → name.chars ≠ "template".toList) (inside : List Char) :
    scanFrom position frames ((name.startTag value).chars ++ inside) =
      .behind [.startTag (name.token value position enclosing)]
        (scanFrom (position + byteLength (name.startTag value).chars)
          (⟨String.ofList name.chars, nearestFlag (value.toList ++ enclosing)⟩ :: frames)
          inside) := by
  have hinside : (frames.isEmpty && String.ofList name.chars == "template") = false := by
    cases frames with
    | cons => rfl
    | nil =>
      have hne : String.ofList name.chars ≠ "template" := fun heq =>
        hroot rfl (by rw [← heq, String.toList_ofList])
      simpa using hne
  have hname : (name.startTag value).name = name.chars := rfl
  have htoken : (name.startTag value).token position frames =
      name.token value position enclosing := by
    unfold TagText.token ElementName.token
    dsimp only
    rw [hname, hinside, hflag, if_neg (by decide), ownFlag_startTag]
    rfl
  have hstart : scanFrom position frames ((name.startTag value).chars ++ inside) = _ :=
    scanFrom_element (name.readTag?_append value inside) rfl name.not_void name.not_rawText
  rw [htoken, hname] at hstart
  exact hstart

theorem scanFrom_textChars (run : TextChars) (position : Nat) (frames : List Frame)
    {after : List Char} (hafter : after = [] ∨ startsMarkup after = true) :
    scanFrom position frames (run.chars ++ after) =
      .behind [.text ⟨position, position + byteLength run.chars⟩ (inherited frames)]
        (scanFrom (position + byteLength run.chars) frames after) := by
  obtain ⟨runChars, hne, hbracket⟩ := run
  cases runChars with
  | nil => exact absurd rfl hne
  | cons c cs =>
    have hc : c ≠ '<' := fun heq => hbracket (heq ▸ List.mem_cons_self)
    have hcs : '<' ∉ cs := fun hmem => hbracket (List.mem_cons_of_mem _ hmem)
    rw [List.cons_append, scanFrom_textRun (readConstruct?_eq_none_of_ne hc),
      textRun_append_of_not_mem hcs hafter]

theorem scanFrom_ownEndTag {name : ElementName} {frames : List Frame} (position : Nat)
    (translate : Bool) (hroot : frames = [] → name.chars ≠ "template".toList)
    (after : List Char) :
    scanFrom position (⟨String.ofList name.chars, translate⟩ :: frames) (name.endTag ++ after) =
      .behind [.endTag ⟨position, position + byteLength name.endTag⟩ (String.ofList name.chars)]
        (scanFrom (position + byteLength name.endTag) frames after) := by
  have hclosed : closeElement? (String.ofList name.chars)
      (⟨String.ofList name.chars, translate⟩ :: frames) = some frames := by
    simp [closeElement?]
  have hinside : ¬(frames.isEmpty = true ∧ String.ofList name.chars = "template") := by
    rintro ⟨hempty, htemplate⟩
    exact hroot (List.isEmpty_iff.mp hempty) (by rw [← htemplate, String.toList_ofList])
  exact scanFrom_endTag (readConstruct?_of_readEndTag? (name.readEndTag?_append after)) hclosed
    hinside

theorem scanFrom_chars (forest : Forest) {position : Nat} {frames : List Frame}
    {enclosing : List TranslateValue} {rest : List Char}
    (hflag : inherited frames = nearestFlag enclosing) (halternates : forest.Alternates)
    (hroot : frames = [] → "template".toList ∉ forest.topNames)
    (hrest : rest = [] ∨ startsMarkup rest = true) :
    scanFrom position frames (forest.chars ++ rest) =
      .behind (forest.tokens position enclosing)
        (scanFrom (position + byteLength forest.chars) frames rest) := by
  induction forest generalizing position frames enclosing rest with
  | nil => rfl
  | text run after ih =>
    obtain ⟨hfirst, hafter⟩ := halternates
    have hnext := @ih (position + byteLength run.chars) _ _ _ hflag hafter hroot hrest
    have hprinted : (text run after).chars ++ rest = run.chars ++ (after.chars ++ rest) := by
      simp [chars]
    rw [hprinted, scanFrom_textChars run position frames (startsMarkup_chars hfirst hrest), hnext,
      hflag]
    simp [chars, Scan.behind, tokens, Nat.add_assoc]
  | element name value content after ihContent ihAfter =>
    obtain ⟨hcontent, hafter⟩ := halternates
    have hname : frames = [] → name.chars ≠ "template".toList := fun hnil heq =>
      hroot hnil (by simp [topNames, heq])
    have hend : startsMarkup (name.endTag ++ (after.chars ++ rest)) = true :=
      name.startsMarkup_endTag _
    -- the content is scanned inside the element, and what follows outside of it
    have hinner := @ihContent (position + byteLength (name.startTag value).chars)
      (⟨String.ofList name.chars, nearestFlag (value.toList ++ enclosing)⟩ :: frames)
      (value.toList ++ enclosing) _ rfl hcontent (fun hnil => absurd hnil (List.cons_ne_nil _ _))
      (.inr hend)
    have houter := @ihAfter
      (position + byteLength (name.startTag value).chars + byteLength content.chars +
        byteLength name.endTag)
      _ _ _ hflag hafter (fun hnil hmem => hroot hnil (List.mem_cons_of_mem _ hmem)) hrest
    have hprinted : (element name value content after).chars ++ rest =
        (name.startTag value).chars ++
          (content.chars ++ (name.endTag ++ (after.chars ++ rest))) := by
      simp [chars]
    have hlength : byteLength (element name value content after).chars =
        byteLength (name.startTag value).chars + byteLength content.chars +
          byteLength name.endTag + byteLength after.chars := by
      simp only [chars, byteLength_append]
    rw [hprinted, scanFrom_startTag value position hflag hname, hinner,
      scanFrom_ownEndTag _ _ hname, houter, hlength]
    simp only [Scan.behind, tokens, List.cons_append, List.nil_append, List.append_assoc,
      Nat.add_assoc]

/-- The scan of a printed forest has its tokens in document order, consumes the whole text, and
gives each text and each start tag the flag of the nearest `translate` attribute that decides. -/
theorem scan_chars (forest : Forest) (halternates : forest.Alternates)
    (hroot : "template".toList ∉ forest.topNames) :
    scan forest.chars ⟨0, byteLength forest.chars⟩ =
      ⟨forest.tokens 0 [], byteLength forest.chars⟩ := by
  have hslice : (Span.mk 0 (byteLength forest.chars)).slice forest.chars = forest.chars := by
    have htake := takeBytes_byteLength_append forest.chars []
    rw [List.append_nil] at htake
    rw [Span.slice, Span.length, dropBytes, Nat.sub_zero, htake]
  have hscan := @scanFrom_chars forest 0 [] [] [] rfl halternates (fun _ => hroot) (.inl rfl)
  rw [List.append_nil] at hscan
  have hnil : scanFrom (0 + byteLength forest.chars) [] [] = ⟨[], byteLength forest.chars⟩ := by
    simp
  rw [scan, hslice, hscan, hnil]
  simp [Scan.behind]

def nestedDivisions : Forest :=
  let division : ElementName :=
    ⟨"div".toList, by decide, List.all_eq_true.mp (by decide), by decide, by decide⟩
  let no : TranslateValue := ⟨"no".toList, .double, by decide, by decide⟩
  let yes : TranslateValue := ⟨"yes".toList, .single, by decide, by decide⟩
  let a : TextChars := ⟨['a'], by decide, by decide⟩
  let b : TextChars := ⟨['b'], by decide, by decide⟩
  .element division (some no)
    (.text a (.element division (some yes) (.text b .nil) .nil)) .nil

theorem scan_chars_nestedDivisions :
    nestedDivisions.Alternates ∧ "template".toList ∉ nestedDivisions.topNames ∧
      scan nestedDivisions.chars ⟨0, 55⟩ = ⟨nestedDivisions.tokens 0 [], 55⟩ ∧
      (nestedDivisions.tokens 0 []).filterMap (fun
        | .text _ translate => some translate
        | _ => none) = [false, true] := by
  have halternates : nestedDivisions.Alternates := by
    simp [nestedDivisions, Alternates, startsWithText]
  have hroot : "template".toList ∉ nestedDivisions.topNames := by decide
  have hlength : byteLength nestedDivisions.chars = 55 := by decide
  have hscan := scan_chars nestedDivisions halternates hroot
  rw [hlength] at hscan
  exact ⟨halternates, hroot, hscan, by decide⟩

end Forest

end TemplateMessages.Markup
