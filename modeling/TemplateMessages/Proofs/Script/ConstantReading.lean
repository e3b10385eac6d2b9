import TemplateMessages.Proofs.Expression.PhraseOf
import TemplateMessages.Proofs.Expression.PhraseReading
import TemplateMessages.Proofs.Script.Constant
import TemplateMessages.Proofs.Script.Misread

set_option autoImplicit false

/-!
# Constants that are read

A phrase without numbers that the reader accepts has the value that is read, if no string in it is
misread and no key is `__proto__`.
-/

namespace TemplateMessages.Script

open TemplateMessages.Expression
open TemplateMessages.Text (isBlank)

inductive Leaf where
  | string (quote : Char) (inside : List Char)
  | number (digits : List Char)
  | key (key : Key)

mutual

def leaves : Phrase → List Leaf
  | .string quote inside => [.string quote inside]
  | .number digits => [.number digits]
  | .word _ => []
  | .parentheses inner => leaves inner
  | .array items => itemLeaves items
  | .object entries => entryLeaves entries
  | .signed _ operand => leaves operand
  | .sum left right => leaves left ++ leaves right

def itemLeaves : List Phrase → List Leaf
  | [] => []
  | item :: items => leaves item ++ itemLeaves items

def entryLeaves : List (Key × Phrase) → List Leaf
  | [] => []
  | (key, value) :: entries => .key key :: (leaves value ++ entryLeaves entries)

end

namespace Leaf

def IsNumberFree : Leaf → Prop
  | .number _ => False
  | .key (.number _) => False
  | _ => True

def IsRead : Leaf → Prop
  | .string quote inside => ∃ read, insideValue? quote inside = some read
  | .number _ => True
  | .key name => ∃ read, name.text? = some read

/-- It is read as what it stands for in a script. -/
def Agrees : Leaf → Prop
  | .string quote inside =>
    ∃ read, insideValue? quote inside = some read ∧ StringValue quote inside (units read)
  | .number _ => False
  | .key name => ∃ read, name.text? = some read ∧ NamesProperty name (units read.toList)

/-- No escape in it is misread, and it is not the key `__proto__`. -/
def IsReadAsMeant : Leaf → Prop
  | .string _ inside => isReadAsMeant inside = true
  | .number _ => True
  | .key (.word name) => name ≠ "__proto__".toList
  | .key (.string quote inside) =>
    isReadAsMeant inside = true ∧ insideValue? quote inside ≠ some "__proto__".toList
  | .key (.number _) => True

theorem agrees_word {name : List Char} :
    (key (.word name)).Agrees ↔ (key (.word name)).IsReadAsMeant := by
  constructor
  · rintro ⟨read, hread, hnames⟩ rfl
    cases hread
    rw [String.toList_ofList] at hnames
    exact hnames.ne_proto rfl
  · intro hproto
    refine ⟨String.ofList name, rfl, ?_⟩
    rw [String.toList_ofList]
    exact .word fun h => hproto (units_injective h)

theorem agrees_string {quote : Char} {inside read : List Char}
    (h : insideValue? quote inside = some read) :
    (key (.string quote inside)).Agrees ↔ (key (.string quote inside)).IsReadAsMeant := by
  have htext : (Key.string quote inside).text? = some (String.ofList read) := by
    rw [Key.text?, h]
    rfl
  rw [IsReadAsMeant, ← stringValue_iff h, h]
  constructor
  · rintro ⟨name, hname, hnames⟩
    rw [htext] at hname
    cases hname
    rw [String.toList_ofList] at hnames
    refine ⟨?_, fun heq => hnames.ne_proto (by rw [Option.some.inj heq])⟩
    cases hnames with
    | string hvalue _ => exact hvalue
  · rintro ⟨hvalue, hproto⟩
    refine ⟨_, htext, ?_⟩
    rw [String.toList_ofList]
    exact .string hvalue fun heq => hproto (congrArg some (units_injective heq))

theorem agrees_iff {leaf : Leaf} (hread : leaf.IsRead) (hfree : leaf.IsNumberFree) :
    leaf.Agrees ↔ leaf.IsReadAsMeant := by
  cases leaf with
  | string quote inside =>
    obtain ⟨read, h⟩ := hread
    rw [IsReadAsMeant, ← stringValue_iff h]
    constructor
    · rintro ⟨other, hother, hvalue⟩
      rw [h] at hother
      cases hother
      exact hvalue
    · exact fun hvalue => ⟨read, h, hvalue⟩
  | number _ => exact hfree.elim
  | key name =>
    cases name with
    | word name => exact agrees_word
    | string quote inside =>
      obtain ⟨_, h⟩ := hread
      obtain ⟨read, h, -⟩ := Option.map_eq_some_iff.mp h
      exact agrees_string h
    | number _ => exact hfree.elim

end Leaf

mutual

theorem isRead_of_value? : {phrase : Phrase} → {value : Literal} → phrase.value? = some value →
    ∀ leaf ∈ leaves phrase, leaf.IsRead
  | .string quote inside, _, h => by
    obtain ⟨read, hread, -⟩ := Option.map_eq_some_iff.mp h
    rw [leaves, List.forall_mem_singleton]
    exact ⟨read, hread⟩
  | .number digits, _, _ => by
    rw [leaves, List.forall_mem_singleton]
    exact trivial
  | .word _, _, _ => fun _ hleaf => by cases hleaf
  | .parentheses inner, value, h => by
    change inner.value? = some value at h
    rw [leaves]
    exact isRead_of_value? h
  | .array items, _, h => by
    obtain ⟨values, hvalues, -⟩ := Option.map_eq_some_iff.mp h
    exact isRead_of_values? hvalues
  | .object entries, _, h => by
    obtain ⟨values, hvalues, -⟩ := Option.map_eq_some_iff.mp h
    exact isRead_of_entryValues? hvalues
  | .signed _ operand, _, h => by
    obtain ⟨number, hnumber, -⟩ := Option.map_eq_some_iff.mp h
    obtain ⟨value, hvalue, -⟩ := Option.bind_eq_some_iff.mp hnumber
    rw [leaves]
    exact isRead_of_value? hvalue
  | .sum left right, _, h => by
    obtain ⟨a, ha, h⟩ := Option.bind_eq_some_iff.mp h
    obtain ⟨b, hb, -⟩ := Option.bind_eq_some_iff.mp h
    rw [leaves, List.forall_mem_append]
    exact ⟨isRead_of_value? ha, isRead_of_value? hb⟩

theorem isRead_of_values? : {items : List Phrase} → {values : List Literal} →
    Phrase.values? items = some values → ∀ leaf ∈ itemLeaves items, leaf.IsRead
  | [], _, _ => fun _ hleaf => by cases hleaf
  | item :: items, _, h => by
    obtain ⟨value, hvalue, h⟩ := Option.bind_eq_some_iff.mp h
    obtain ⟨values, hvalues, -⟩ := Option.bind_eq_some_iff.mp h
    rw [itemLeaves, List.forall_mem_append]
    exact ⟨isRead_of_value? hvalue, isRead_of_values? hvalues⟩

theorem isRead_of_entryValues? : {entries : List (Key × Phrase)} →
    {values : List (String × Literal)} → Phrase.entryValues? entries = some values →
    ∀ leaf ∈ entryLeaves entries, leaf.IsRead
  | [], _, _ => fun _ hleaf => by cases hleaf
  | (key, phrase) :: entries, _, h => by
    obtain ⟨name, hname, h⟩ := Option.bind_eq_some_iff.mp h
    obtain ⟨value, hvalue, h⟩ := Option.bind_eq_some_iff.mp h
    obtain ⟨values, hvalues, -⟩ := Option.bind_eq_some_iff.mp h
    rw [entryLeaves, List.forall_mem_cons, List.forall_mem_append]
    exact ⟨⟨name, hname⟩, isRead_of_value? hvalue, isRead_of_entryValues? hvalues⟩

end

theorem asNumber?_eq_none {value : Literal} (h : ∀ number, value ≠ .number number) :
    value.asNumber? = none := by
  cases value with
  | number number => exact absurd rfl (h number)
  | _ => rfl

theorem signed_value?_eq_none {sign : Char} {operand : Phrase}
    (h : ∀ value, operand.value? = some value → ∀ number, value ≠ .number number) :
    (Phrase.signed sign operand).value? = none := by
  rw [Phrase.value?, Option.map_eq_none_iff, Option.bind_eq_none_iff]
  exact fun value hvalue => asNumber?_eq_none (h value hvalue)

theorem value?_ne_number : {phrase : Phrase} → {value : Literal} →
    (∀ leaf ∈ leaves phrase, leaf.IsNumberFree) → phrase.value? = some value →
    ∀ number, value ≠ .number number
  | .string _ _, _, _, h, _ => by
    obtain ⟨_, -, rfl⟩ := Option.map_eq_some_iff.mp h
    exact Literal.noConfusion
  | .number digits, _, hfree, _, _ => (hfree (.number digits) List.mem_cons_self).elim
  | .word name, _, _, h, _ => by
    change constant? name = _ at h
    unfold constant? at h
    split at h <;> cases h <;> exact Literal.noConfusion
  | .parentheses inner, value, hfree, h, number => by
    change inner.value? = some value at h
    rw [leaves] at hfree
    exact value?_ne_number hfree h number
  | .array _, _, _, h, _ => by
    obtain ⟨_, -, rfl⟩ := Option.map_eq_some_iff.mp h
    exact Literal.noConfusion
  | .object _, _, _, h, _ => by
    obtain ⟨_, -, rfl⟩ := Option.map_eq_some_iff.mp h
    exact Literal.noConfusion
  | .signed _ operand, _, hfree, h, _ => by
    rw [leaves] at hfree
    rw [signed_value?_eq_none fun _ hvalue => value?_ne_number hfree hvalue] at h
    cases h
  | .sum left right, value, hfree, h, n => by
    obtain ⟨a, ha, h⟩ := Option.bind_eq_some_iff.mp h
    obtain ⟨b, -, hadd⟩ := Option.bind_eq_some_iff.mp h
    rw [leaves, List.forall_mem_append] at hfree
    rcases add?_cases hadd with ⟨x, y, rfl, -⟩ | ⟨text, rfl⟩
    · exact absurd rfl (value?_ne_number hfree.1 ha x)
    · exact Literal.noConfusion

theorem means_of_constant? {name : List Char} {value : Literal} (h : constant? name = some value) :
    Means (.word name) (Constant.ofLiteral value) := by
  have hname : name = (String.ofList name).toList := String.toList_ofList.symm
  unfold constant? at h
  split at h
  · rename_i heq
    cases h
    rw [hname, heq]
    exact .true
  · rename_i heq
    cases h
    rw [hname, heq]
    exact .false
  · rename_i heq
    cases h
    rw [hname, heq]
    exact .null
  · rename_i heq
    cases h
    rw [hname, heq]
    exact .undefined
  · cases h

theorem textUnits?_ofLiteral {value : Literal} {text : String}
    (hnumber : ∀ number, value ≠ .number number) (h : value.primitiveText? = some text) :
    (Constant.ofLiteral value).textUnits? = some (units text.toList) := by
  cases value with
  | undefined =>
    cases h
    rfl
  | null =>
    cases h
    rfl
  | bool value => cases value <;> cases h <;> rfl
  | number number => exact absurd rfl (hnumber number)
  | string value =>
    cases h
    rfl
  | array _ => cases h
  | object _ => cases h

theorem add?_ofLiteral {a b value : Literal} (ha : ∀ number, a ≠ .number number)
    (hb : ∀ number, b ≠ .number number) (h : a.add? b = some value) :
    (Constant.ofLiteral a).add? (Constant.ofLiteral b) = some (Constant.ofLiteral value) := by
  unfold Literal.add? at h
  split at h
  · exact absurd rfl (ha _)
  · rename_i x
    obtain ⟨y, hy, rfl⟩ := Option.map_eq_some_iff.mp h
    rw [Constant.ofLiteral, Constant.ofLiteral, Constant.add?, textUnits?_ofLiteral hb hy,
      String.toList_append, units_append]
    rfl
  · rename_i y hstring
    obtain ⟨x, hx, rfl⟩ := Option.map_eq_some_iff.mp h
    have hsum : (Constant.ofLiteral a).add? (.string (units y.toList)) =
        (Constant.ofLiteral a).textUnits?.map fun x => .string (x ++ units y.toList) := by
      cases a with
      | string x => exact (hstring x rfl).elim
      | _ => rfl
    change (Constant.ofLiteral a).add? (.string (units y.toList)) = _
    rw [hsum, textUnits?_ofLiteral ha hx, Constant.ofLiteral, String.toList_append, units_append]
    rfl
  · cases h

theorem ofEntries_put (table : Table Literal) (name : String) (value : Literal) :
    Constant.ofEntries (table.put name value) =
      Constant.define (Constant.ofEntries table) (units name.toList) (Constant.ofLiteral value) := by
  induction table with
  | nil => rfl
  | cons entry table ih =>
    obtain ⟨key, old⟩ := entry
    have hkey : units key.toList = units name.toList ↔ key = name :=
      ⟨fun h => String.toList_injective (units_injective h), fun h => by rw [h]⟩
    rw [Constant.ofEntries, Constant.define, Table.put]
    by_cases h : key = name
    · rw [if_pos h, if_pos (hkey.mpr h)]
      rfl
    · rw [if_neg h, if_neg fun heq => h (hkey.mp heq), Constant.ofEntries, ih]

theorem ofEntries_putAll (table other : Table Literal) :
    Constant.ofEntries (table.putAll other) =
      Constant.defineAll (Constant.ofEntries table) (Constant.ofEntries other) := by
  induction other generalizing table with
  | nil => rfl
  | cons entry other ih =>
    obtain ⟨key, value⟩ := entry
    change Constant.ofEntries ((table.put key value).putAll other) = _
    rw [ih, ofEntries_put]
    rfl

mutual

theorem means_of_value? : {phrase : Phrase} → {value : Literal} → phrase.value? = some value →
    (∀ leaf ∈ leaves phrase, leaf.IsNumberFree) → (∀ leaf ∈ leaves phrase, leaf.Agrees) →
    Means phrase (Constant.ofLiteral value)
  | .string quote inside, _, h, _, hagrees => by
    obtain ⟨read, hread, rfl⟩ := Option.map_eq_some_iff.mp h
    obtain ⟨other, hother, hvalue⟩ := hagrees (.string quote inside) List.mem_cons_self
    rw [hread] at hother
    cases hother
    rw [Constant.ofLiteral, String.toList_ofList]
    exact .string hvalue
  | .number digits, _, _, hfree, _ => (hfree (.number digits) List.mem_cons_self).elim
  | .word name, _, h, _, _ => means_of_constant? h
  | .parentheses inner, value, h, hfree, hagrees => by
    change inner.value? = some value at h
    rw [leaves] at hfree hagrees
    exact .parentheses (means_of_value? h hfree hagrees)
  | .array items, _, h, hfree, hagrees => by
    obtain ⟨values, hvalues, rfl⟩ := Option.map_eq_some_iff.mp h
    rw [leaves] at hfree hagrees
    exact .array (meansItems_of_values? hvalues hfree hagrees)
  | .object entries, _, h, hfree, hagrees => by
    obtain ⟨values, hvalues, rfl⟩ := Option.map_eq_some_iff.mp h
    rw [leaves] at hfree hagrees
    -- the properties are made one by one as the entries are put into the table
    rw [Constant.ofLiteral, Table.ofList, ofEntries_putAll]
    exact .object (meansEntries_of_entryValues? hvalues hfree hagrees)
  | .signed _ operand, _, h, hfree, _ => by
    rw [leaves] at hfree
    rw [signed_value?_eq_none fun _ hvalue => value?_ne_number hfree hvalue] at h
    cases h
  | .sum left right, value, h, hfree, hagrees => by
    obtain ⟨a, ha, h⟩ := Option.bind_eq_some_iff.mp h
    obtain ⟨b, hb, hadd⟩ := Option.bind_eq_some_iff.mp h
    rw [leaves, List.forall_mem_append] at hfree hagrees
    exact .sum (means_of_value? ha hfree.1 hagrees.1) (means_of_value? hb hfree.2 hagrees.2)
      (add?_ofLiteral (value?_ne_number hfree.1 ha) (value?_ne_number hfree.2 hb) hadd)

theorem meansItems_of_values? : {items : List Phrase} → {values : List Literal} →
    Phrase.values? items = some values → (∀ leaf ∈ itemLeaves items, leaf.IsNumberFree) →
    (∀ leaf ∈ itemLeaves items, leaf.Agrees) → MeansItems items (Constant.ofLiterals values)
  | [], _, h, _, _ => by
    cases h
    exact .nil
  | item :: items, _, h, hfree, hagrees => by
    obtain ⟨value, hvalue, h⟩ := Option.bind_eq_some_iff.mp h
    obtain ⟨values, hvalues, h⟩ := Option.bind_eq_some_iff.mp h
    cases h
    rw [itemLeaves, List.forall_mem_append] at hfree hagrees
    exact .cons (means_of_value? hvalue hfree.1 hagrees.1)
      (meansItems_of_values? hvalues hfree.2 hagrees.2)

theorem meansEntries_of_entryValues? : {entries : List (Key × Phrase)} →
    {values : List (String × Literal)} → Phrase.entryValues? entries = some values →
    (∀ leaf ∈ entryLeaves entries, leaf.IsNumberFree) →
    (∀ leaf ∈ entryLeaves entries, leaf.Agrees) →
    MeansEntries entries (Constant.ofEntries values)
  | [], _, h, _, _ => by
    cases h
    exact .nil
  | (key, phrase) :: entries, _, h, hfree, hagrees => by
    obtain ⟨name, hname, h⟩ := Option.bind_eq_some_iff.mp h
    obtain ⟨value, hvalue, h⟩ := Option.bind_eq_some_iff.mp h
    obtain ⟨values, hvalues, h⟩ := Option.bind_eq_some_iff.mp h
    cases h
    rw [entryLeaves, List.forall_mem_cons, List.forall_mem_append] at hfree hagrees
    obtain ⟨read, hread, hnames⟩ := hagrees.1
    rw [hname] at hread
    cases hread
    exact .cons hnames (means_of_value? hvalue hfree.2.1 hagrees.2.1)
      (meansEntries_of_entryValues? hvalues hfree.2.2 hagrees.2.2)

end

def isScriptBlank (c : Char) : Bool :=
  isBlank c && c != '\x85' || c == '\ufeff'

/-- The text is the phrase and white space. -/
def IsPhraseText (blank : Char → Bool) (text : List Char) (phrase : Phrase) : Prop :=
  ∃ front blanks, text = front ++ blanks ∧ (∀ c ∈ blanks, blank c = true) ∧
    Spells blank (.sum phrase) front

/-- The text has the value in a script. -/
def Gives (text : String) (value : Constant) : Prop :=
  ∃ phrase, IsPhraseText isScriptBlank text.toList phrase ∧ Means phrase value

theorem isPhraseText_script {text : List Char} {phrase : Phrase} (hnext : '\x85' ∉ text)
    (h : IsPhraseText isBlank text phrase) : IsPhraseText isScriptBlank text phrase := by
  have hblank : ∀ c ∈ text, isBlank c = true → isScriptBlank c = true := by
    intro c hc hc'
    have hne : c ≠ '\x85' := by
      rintro rfl
      exact hnext hc
    simp [isScriptBlank, hc', hne]
  obtain ⟨front, blanks, rfl, hblanks, hspells⟩ := h
  rw [List.forall_mem_append] at hblank
  exact ⟨front, blanks, rfl, fun c hc => hblank.2 c hc (hblanks c hc), hspells.mono hblank.1⟩

theorem evaluate_of_isPhraseText {text : String} {phrase : Phrase} {value : Literal}
    (h : IsPhraseText isBlank text.toList phrase) (hvalue : phrase.value? = some value) :
    evaluate text = .ok value := by
  obtain ⟨front, blanks, htext, hblanks, hspells⟩ := h
  unfold evaluate
  rw [htext]
  exact evaluateChars_of_spells hspells hvalue hblanks

theorem isPhraseText_string {blank : Char → Bool} {quote : Char}
    (hquote : quote = '\x27' ∨ quote = '\x22' ∨ quote = '\x60') (inside : List Char) :
    IsPhraseText blank (quote :: (inside ++ [quote])) (.string quote inside) := by
  have hnone : ∀ c ∈ ([] : List Char), blank c = true := by simp
  have hoperand : Spells blank (.term (.string quote inside)) (quote :: (inside ++ [quote])) :=
    .primary (.string inside hquote) hnone
  exact ⟨_, [], (List.append_nil _).symm, hnone, .term hoperand⟩

/-- What is read is a phrase with that value. If it has no number, each string and key in it is read
as what it stands for just when nothing in it is misread. If this is so of all of them, the value
that is read is the one value of the phrase in a script, and of the text if its white space is white
space of a script, as it is but for U+0085. -/
theorem evaluate_agrees {text : String} {value : Literal} (h : evaluate text = .ok value) :
    (∃ phrase, IsPhraseText isBlank text.toList phrase ∧ phrase.value? = some value) ∧
      ∀ phrase, IsPhraseText isBlank text.toList phrase → phrase.value? = some value →
        (∀ leaf ∈ leaves phrase, leaf.IsNumberFree) →
          (∀ leaf ∈ leaves phrase, leaf.Agrees ↔ leaf.IsReadAsMeant) ∧
          ('\x85' ∉ text.toList → IsPhraseText isScriptBlank text.toList phrase) ∧
          ((∀ leaf ∈ leaves phrase, leaf.IsReadAsMeant) →
            (∀ constant, Means phrase constant ↔ constant = Constant.ofLiteral value) ∧
              (IsPhraseText isScriptBlank text.toList phrase →
                Gives text (Constant.ofLiteral value))) := by
  constructor
  · obtain ⟨phrase, front, blanks, htext, hblanks, hspells, hvalue⟩ :=
      exists_phrase_of_evaluateChars h
    exact ⟨phrase, ⟨front, blanks, htext, hblanks, hspells⟩, hvalue⟩
  · intro phrase htext hvalue hfree
    have hagrees : ∀ leaf ∈ leaves phrase, leaf.Agrees ↔ leaf.IsReadAsMeant :=
      fun leaf hleaf => Leaf.agrees_iff (isRead_of_value? hvalue leaf hleaf) (hfree leaf hleaf)
    refine ⟨hagrees, fun hnext => isPhraseText_script hnext htext, fun hmeant => ?_⟩
    have hmeans : Means phrase (Constant.ofLiteral value) :=
      means_of_value? hvalue hfree fun leaf hleaf => (hagrees leaf hleaf).mpr (hmeant leaf hleaf)
    refine ⟨fun constant => ⟨fun hconstant => hconstant.unique hmeans, ?_⟩, ?_⟩
    · rintro rfl
      exact hmeans
    · exact fun hscript => ⟨phrase, hscript, hmeans⟩

/-- The letter A by its code. -/
def codeEscape : String := "'\\u0041'"

def lineFeedEscape : String := "'\\n'"

theorem evaluate_agrees_escapes :
    (evaluate codeEscape = .ok (.string "u0041") ∧ Gives codeEscape (.string [0x41]) ∧
      ¬(Leaf.string '\x27' ['\\', 'u', '0', '0', '4', '1']).Agrees) ∧
    evaluate lineFeedEscape = .ok (.string "\n") ∧ Gives lineFeedEscape (.string [0x0A]) := by
  have hfree (inside : List Char) :
      ∀ leaf ∈ leaves (.string '\x27' inside), leaf.IsNumberFree := by
    rw [leaves, List.forall_mem_singleton]
    exact trivial
  constructor
  · let inside := ['\\', 'u', '0', '0', '4', '1']
    have htext {blank : Char → Bool} :
        IsPhraseText blank codeEscape.toList (.string '\x27' inside) :=
      isPhraseText_string (Or.inl rfl) inside
    have hread : insideValue? '\x27' inside = some "u0041".toList := by decide +kernel
    have hvalue : (Phrase.string '\x27' inside).value? = some (.string "u0041") := by
      rw [Phrase.value?, hread]
      rfl
    have hevaluate := evaluate_of_isPhraseText htext hvalue
    have hagrees := ((evaluate_agrees hevaluate).2 _ htext hvalue (hfree inside)).1
    refine ⟨hevaluate, ⟨_, htext, ?_⟩, ?_⟩
    · exact .string (.escape (.unit (by decide)) .nil)
    · rw [hagrees _ List.mem_cons_self, Leaf.IsReadAsMeant]
      decide
  · have htext {blank : Char → Bool} :
        IsPhraseText blank lineFeedEscape.toList (.string '\x27' ['\\', 'n']) :=
      isPhraseText_string (Or.inl rfl) ['\\', 'n']
    have hread : insideValue? '\x27' ['\\', 'n'] = some "\n".toList := by decide +kernel
    have hvalue : (Phrase.string '\x27' ['\\', 'n']).value? = some (.string "\n") := by
      rw [Phrase.value?, hread]
      rfl
    have hevaluate := evaluate_of_isPhraseText htext hvalue
    have hgives := ((evaluate_agrees hevaluate).2 _ htext hvalue (hfree ['\\', 'n'])).2
    refine ⟨hevaluate, (hgives.2 ?_).2 (hgives.1 (by decide))⟩
    rw [leaves, List.forall_mem_singleton, Leaf.IsReadAsMeant]
    decide

end TemplateMessages.Script
