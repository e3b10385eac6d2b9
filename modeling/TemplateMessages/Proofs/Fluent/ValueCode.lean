import Mathlib.Tactic.SplitIfs
import TemplateMessages.Fluent.Translation
import TemplateMessages.Proofs.Fluent.PlainNames
import TemplateMessages.Proofs.Number.Text

set_option autoImplicit false

/-!
# The code of values

Every value that is built of constants and of balanced source texts has balanced code. The code that
stands for a call has an operator outside all brackets when it is a sum or a source text that has
one, and in no other case.
-/

namespace TemplateMessages.Fluent

open TemplateMessages.Expression (quoted)
open TemplateMessages.Number (Binary64)
open TemplateMessages.Script (Scan Piece IsBalanced HasOperator delimiters outline?
  isBalanced_of_outline? isBalanced_of_not_mem isBalanced_quoted selfContained_quoted)

theorem isBalanced_numberText (value : Binary64) : IsBalanced value.text.toList := by
  have hminus : '-' ∉ delimiters := by decide
  have hwords {word : String} (h : word = "Infinity" ∨ word = "NaN") {c : Char}
      (hc : c ∈ word.toList) : c ∉ delimiters := by
    have hall : word.toList.all Char.isAlphanum = true := by
      rcases h with rfl | rfl <;> decide
    exact not_mem_delimiters_of_isAlphanum (List.all_eq_true.mp hall c hc)
  have hmagnitude {text : List Char} (h : Number.IsMagnitude text) : ∀ c ∈ text, c ∉ delimiters := by
    rcases h with rfl | ⟨c, cs, rfl, hc, hcs⟩
    · exact fun c hc => hwords (Or.inl rfl) hc
    · intro d hd
      rcases List.mem_cons.mp hd with rfl | htail
      · exact not_mem_delimiters_of_isDigit hc
      · rcases hcs d htail with hdigit | rfl
        · exact not_mem_delimiters_of_isDigit hdigit
        · decide
  apply isBalanced_of_not_mem
  by_cases hnan : value = .nan
  · subst hnan
    exact fun c hc => hwords (Or.inr rfl) hc
  · obtain ⟨body, hbody, heq | heq⟩ := Binary64.text_shape hnan
    · rw [heq]
      exact hmagnitude hbody
    · rw [heq]
      intro c hc
      rcases List.mem_cons.mp hc with rfl | htail
      · exact hminus
      · exact hmagnitude hbody c htail

theorem isBalanced_natText (n : Nat) : IsBalanced (toString n).toList := by
  rw [Nat.toString_eq_ofList_toDigits, String.toList_ofList]
  apply isBalanced_of_not_mem
  intro c hc
  exact not_mem_delimiters_of_isDigit (Number.isDigit_of_mem_toDigits hc)

theorem isBalanced_parenthesize {code : String} (h : IsBalanced code.toList) :
    IsBalanced (parenthesize code).toList := by
  unfold parenthesize
  split
  · exact h
  · rw [String.toList_append, String.toList_append]
    exact h.parentheses

namespace Value

def Balanced : Value → Prop
  | text _ => True
  | number _ => True
  | code source => Script.IsBalanced source.toList
  | formatted source argument options =>
    Script.IsBalanced source.toList ∧ Script.IsBalanced argument.argumentCode.toList ∧
      Script.IsBalanced options.toList

variable {value : Value}

theorem Balanced.operandCode (h : value.Balanced) :
    Script.IsBalanced value.operandCode.toList := by
  cases value with
  | text value => exact isBalanced_quoted value
  | number value => exact isBalanced_quoted value.text
  | code source => exact isBalanced_parenthesize h
  | formatted code argument options => exact h.1

theorem Balanced.argumentCode (h : value.Balanced) :
    Script.IsBalanced value.argumentCode.toList := by
  cases value with
  | number value => exact isBalanced_numberText value
  | text value => exact h.operandCode
  | code source => exact h.operandCode
  | formatted code argument options => exact h.operandCode

theorem Balanced.expressionCode (h : value.Balanced) :
    Script.IsBalanced value.expressionCode.toList := by
  cases value with
  | code source => exact h
  | text value => exact h.operandCode
  | number value => exact h.operandCode
  | formatted code argument options => exact h.operandCode

end Value

theorem isBalanced_join {separator : String} {codes : List String}
    (hseparator : IsBalanced separator.toList) (h : ∀ code ∈ codes, IsBalanced code.toList) :
    IsBalanced (separator.intercalate codes).toList := by
  rw [String.toList_intercalate]
  apply hseparator.intercalate
  intro text htext
  obtain ⟨code, hcode, rfl⟩ := List.mem_map.mp htext
  exact h code hcode

theorem sumCode_eq {parts : List Value} (hlength : 2 ≤ parts.length) :
    ∃ (front : String) (back : List Value), (∀ part ∈ back, part ∈ parts) ∧
      Value.sumCode parts =
        quoted front ++ " + " ++ " + ".intercalate (back.map Value.operandCode) := by
  have hempty : quoted "" = "''" := by decide
  have hcons {front : String} {back : List Value} (hback : back ≠ []) :
      " + ".intercalate (front :: back.map Value.operandCode) =
        front ++ " + " ++ " + ".intercalate (back.map Value.operandCode) :=
    String.intercalate_cons_of_ne_nil (by simpa using hback)
  unfold Value.sumCode
  split
  · rename_i front back
    have hback : back ≠ [] := by
      rintro rfl
      simp at hlength
    refine ⟨front, back, fun part hpart => .tail _ hpart, ?_⟩
    rw [List.map_cons, Value.operandCode, hcons hback]
  · have hback : parts ≠ [] := by
      rintro rfl
      simp at hlength
    refine ⟨"", parts, fun part hpart => hpart, ?_⟩
    rw [hcons hback, hempty]

theorem isBalanced_sumCode {parts : List Value} (hlength : 2 ≤ parts.length)
    (h : ∀ part ∈ parts, part.Balanced) : IsBalanced (Value.sumCode parts).toList := by
  obtain ⟨front, back, hback, heq⟩ := sumCode_eq hlength
  have hplus : IsBalanced " + ".toList := by decide
  rw [heq, String.toList_append, String.toList_append]
  apply ((isBalanced_quoted front).append hplus).append
  apply isBalanced_join hplus
  intro code hcode
  obtain ⟨part, hpart, rfl⟩ := List.mem_map.mp hcode
  exact (h part (hback part hpart)).operandCode

theorem hasOperator_sumCode {parts : List Value} (hlength : 2 ≤ parts.length)
    (h : IsBalanced (Value.sumCode parts).toList) : HasOperator (Value.sumCode parts).toList := by
  obtain ⟨front, back, _, heq⟩ := sumCode_eq hlength
  have hrun : Scan.start.run? " + ".toList = some Scan.start := by decide
  have houtline : outline? (Value.sumCode parts).toList =
      ((outline? (" + ".intercalate (back.map Value.operandCode)).toList).map
        (Scan.start.pushAll " + ".toList)).map (.group :: ·) := by
    rw [heq, String.toList_append, String.toList_append, List.append_assoc, quoted,
      String.toList_ofList, Script.outline?_quotedChars, outline?, Scan.outline?_append hrun]
    rfl
  obtain ⟨all, hall⟩ := Option.isSome_iff_exists.mp h
  rw [Script.hasOperator_iff_of_outline? hall]
  rw [houtline, Option.map_map] at hall
  obtain ⟨pieces, _, rfl⟩ := Option.map_eq_some_iff.mp hall
  rfl

theorem VariantKey.isBalanced_conditionCode {key : VariantKey} (h : key.IsPlain) :
    IsBalanced key.conditionCode.toList := by
  have hsubject : IsBalanced "s === ".toList := by decide
  cases key with
  | name id =>
    have hcategory : IsBalanced " || c === ".toList := by decide
    have hid := isBalanced_quoted id
    rw [conditionCode, String.toList_append, String.toList_append, String.toList_append]
    exact ((hsubject.append hid).append hcategory).append hid
  | number text =>
    rw [conditionCode, String.toList_append]
    apply hsubject.append
    cases Binary64.ofText? text.toList with
    | some value => exact isBalanced_numberText value
    | none => exact isBalanced_of_not_mem h

theorem isBalanced_indexCode {variants : List Variant} (default index : Nat)
    (h : ∀ variant ∈ variants, variant.key.IsPlain) :
    IsBalanced (indexCode default index variants).toList := by
  induction variants generalizing index with
  | nil => exact isBalanced_natText default
  | cons variant variants ih =>
    have hrest := ih (index + 1) fun other hother => h other (.tail _ hother)
    rw [indexCode]
    split
    · exact hrest
    · have hcondition := VariantKey.isBalanced_conditionCode (h variant List.mem_cons_self)
      have hthen : IsBalanced " ? ".toList := by decide
      have helse : IsBalanced " : ".toList := by decide
      simp only [String.toList_append]
      exact (((hcondition.append hthen).append (isBalanced_natText index)).append helse).append hrest

/-- What a selection looks at, and the options of its plural rules. -/
def selectionSubject (selector : Value) : String × String :=
  match selector with
  | .formatted _ argument options => (argument.argumentCode, options)
  | other => (other.argumentCode, "\x7b\x7d")

theorem Value.Balanced.selectionSubject {selector : Value} (h : selector.Balanced) :
    IsBalanced (selectionSubject selector).1.toList ∧
      IsBalanced (selectionSubject selector).2.toList := by
  have hnone : IsBalanced "\x7b\x7d".toList := by decide
  cases selector with
  | formatted source argument options => exact ⟨h.2.1, h.2.2⟩
  | text value => exact ⟨h.argumentCode, hnone⟩
  | number value => exact ⟨h.argumentCode, hnone⟩
  | code source => exact ⟨h.argumentCode, hnone⟩

theorem selectionCode_eq (locale : String) (selector : Value) (variants : List Variant)
    (default : Nat) (arms : List Value) :
    selectionCode locale selector variants default arms =
      "[" ++ ", ".intercalate (arms.map fun arm => "() => " ++ arm.operandCode)
        ++ "][(function(s)\x7bvar c = typeof s === 'number' ? new Intl.PluralRules(["
        ++ quoted locale ++ "], " ++ (selectionSubject selector).2 ++ ").select(s) : null; return "
        ++ indexCode default 0 variants ++ ";\x7d)(" ++ (selectionSubject selector).1 ++ ")]()" := by
  cases selector <;> rfl

theorem outline?_selectionCode {selector : Value} {variants : List Variant} {arms : List Value}
    (locale : String) (default : Nat) (hselector : selector.Balanced)
    (hkeys : ∀ variant ∈ variants, variant.key.IsPlain) (harms : ∀ arm ∈ arms, arm.Balanced) :
    outline? (selectionCode locale selector variants default arms).toList =
      some [.group, .group, .group] := by
  have hlist : IsBalanced
      (", ".intercalate (arms.map fun arm => "() => " ++ arm.operandCode)).toList := by
    apply isBalanced_join (by decide)
    intro code hcode
    obtain ⟨arm, harm, rfl⟩ := List.mem_map.mp hcode
    have harrow : IsBalanced "() => ".toList := by decide
    rw [String.toList_append]
    exact harrow.append (harms arm harm).operandCode
  have hindex := isBalanced_indexCode default 0 hkeys
  obtain ⟨hsubject, hoptions⟩ := hselector.selectionSubject
  have hrun : Scan.start.run? "[".toList = some ⟨[.square], none⟩ := by decide
  have hrun₁ : Scan.run? ⟨[.square], none⟩
      "][(function(s)\x7bvar c = typeof s === 'number' ? new Intl.PluralRules([".toList =
        some ⟨[.square, .round, .curly, .round, .square], none⟩ := by decide
  have hrun₂ : Scan.run? ⟨[.square, .round, .curly, .round, .square], none⟩ "], ".toList =
      some ⟨[.round, .curly, .round, .square], none⟩ := by decide
  have hrun₃ : Scan.run? ⟨[.round, .curly, .round, .square], none⟩
      ").select(s) : null; return ".toList = some ⟨[.curly, .round, .square], none⟩ := by
    decide
  have hrun₄ : Scan.run? ⟨[.curly, .round, .square], none⟩ ";\x7d)(".toList =
      some ⟨[.round, .square], none⟩ := by decide
  have hend : Scan.outline? ⟨[.round, .square], none⟩ ")]()".toList = some [.group] := by
    decide
  rw [selectionCode_eq]
  simp only [String.toList_append, List.append_assoc]
  rw [outline?, Scan.outline?_append hrun, hlist.outline?_inside, Scan.outline?_append hrun₁,
    (isBalanced_quoted locale).outline?_inside, Scan.outline?_append hrun₂,
    hoptions.outline?_inside, Scan.outline?_append hrun₃, hindex.outline?_inside,
    Scan.outline?_append hrun₄, hsubject.outline?_inside, hend]
  decide

theorem isBalanced_optionsCode {options : List (String × Value)}
    (hnames : ∀ option ∈ options, IsPlain option.1)
    (hvalues : ∀ option ∈ options, option.2.Balanced) :
    IsBalanced (optionsCode options).toList := by
  have hspace : IsBalanced " ".toList := by decide
  have hcolon : IsBalanced ": ".toList := by decide
  have hbraced (codes : List String) (h : ∀ code ∈ codes, IsBalanced code.toList) :
      IsBalanced ("\x7b " ++ ", ".intercalate codes ++ " \x7d").toList := by
    have hjoined : IsBalanced (", ".intercalate codes).toList := isBalanced_join (by decide) h
    rw [String.toList_append, String.toList_append]
    simpa using ((hspace.append hjoined).append hspace).braces
  unfold optionsCode
  split
  · decide
  · apply hbraced
    intro code hcode
    obtain ⟨option, hoption, rfl⟩ := List.mem_map.mp hcode
    rw [String.toList_append, String.toList_append]
    exact ((isBalanced_of_not_mem (hnames option hoption)).append hcolon).append
      (hvalues option hoption).argumentCode

theorem formatter?_eq {name formatter : String} (h : formatter? name = some formatter) :
    formatter = "NumberFormat" ∨ formatter = "DateTimeFormat" := by
  unfold formatter? at h
  split_ifs at h
  · exact Or.inl (Option.some.inj h).symm
  · exact Or.inr (Option.some.inj h).symm

theorem outline?_formatted {formatter : String}
    (hformatter : formatter = "NumberFormat" ∨ formatter = "DateTimeFormat") (locale : String)
    {options argument : String} (hoptions : IsBalanced options.toList)
    (hargument : IsBalanced argument.toList) :
    outline? ("new Intl." ++ formatter ++ "([" ++ quoted locale ++ "], " ++ options ++ ").format("
      ++ argument ++ ")").toList =
      some [.word "new".toList, .symbol ' ', .word ("Intl." ++ formatter).toList, .group,
        .word ".format".toList, .group] := by
  have hrun : Scan.start.run? ("new Intl." ++ formatter ++ "([").toList =
      some ⟨[.square, .round], none⟩ := by
    rcases hformatter with rfl | rfl <;> decide
  have hrun₁ : Scan.run? ⟨[.square, .round], none⟩ "], ".toList = some ⟨[.round], none⟩ := by
    decide
  have hrun₂ : Scan.run? ⟨[.round], none⟩ ").format(".toList = some ⟨[.round], none⟩ := by
    decide
  have hend : Scan.outline? ⟨[.round], none⟩ ")".toList = some [] := by decide
  have hlocale := isBalanced_quoted locale
  have htext : ("new Intl." ++ formatter ++ "([" ++ quoted locale ++ "], " ++ options ++ ").format("
      ++ argument ++ ")").toList =
      ("new Intl." ++ formatter ++ "([").toList ++ ((quoted locale).toList ++ ("], ".toList ++
        (options.toList ++ (").format(".toList ++ (argument.toList ++ ")".toList))))) := by
    simp only [String.toList_append, List.append_assoc]
  rw [htext, outline?, Scan.outline?_append hrun, hlocale.outline?_inside,
    Scan.outline?_append hrun₁, hoptions.outline?_inside, Scan.outline?_append hrun₂,
    hargument.outline?_inside, hend]
  rcases hformatter with rfl | rfl <;> decide

/-- The values that are built of constants and of the source texts `sources`. -/
inductive Value.Built (sources : List String) : Value → Prop
  | text (value : String) : Built sources (.text value)
  | number (value : Binary64) : Built sources (.number value)
  | source {source : String} (hsource : source ∈ sources) : Built sources (.code source)
  | sum {parts : List Value} (hlength : 2 ≤ parts.length)
      (hparts : ∀ part ∈ parts, Built sources part) : Built sources (.code (sumCode parts))
  | selection {selector : Value} {variants : List Variant} {arms : List Value} (locale : String)
      (default : Nat) (hselector : Built sources selector)
      (hkeys : ∀ variant ∈ variants, variant.key.IsPlain)
      (harms : ∀ arm ∈ arms, Built sources arm) :
      Built sources (.code (selectionCode locale selector variants default arms))
  | formatted {name formatter : String} {argument : Value} {options : List (String × Value)}
      (locale : String) (hformatter : formatter? name = some formatter)
      (hargument : Built sources argument)
      (hnames : ∀ option ∈ options, IsPlain option.1)
      (hoptions : ∀ option ∈ options, Built sources option.2) :
      Built sources (formattedValue name formatter locale argument options)

/-- A sum of several parts, or a source text with an operator of its own. -/
def Value.IsOpen (sources : List String) (value : Value) : Prop :=
  (∃ parts, 2 ≤ parts.length ∧ value = .code (sumCode parts)) ∨
    ∃ source ∈ sources, HasOperator source.toList ∧ value = .code source

section

variable {sources : List String} {value : Value}

theorem Value.Built.balanced (hsources : ∀ source ∈ sources, IsBalanced source.toList)
    (h : Built sources value) : value.Balanced := by
  induction h with
  | text value => trivial
  | number value => trivial
  | source hsource => exact hsources _ hsource
  | sum hlength hparts ih => exact isBalanced_sumCode hlength ih
  | selection locale default hselector hkeys harms ih ihArms =>
    exact isBalanced_of_outline? (outline?_selectionCode locale default ih hkeys ihArms)
  | formatted locale hformatter hargument hnames hoptions ih ihOptions =>
    have hoptions := isBalanced_optionsCode hnames ihOptions
    have houtline := outline?_formatted (formatter?_eq hformatter) locale hoptions ih.argumentCode
    have hcode := isBalanced_of_outline? houtline
    rw [formattedValue]
    split
    · exact ⟨hcode, ih.argumentCode, hoptions⟩
    · exact hcode

theorem Value.Balanced.resultCode (h : value.Balanced) :
    IsBalanced (resultCode value).toList := by
  unfold Fluent.resultCode
  split
  · exact isBalanced_quoted _
  · exact h.expressionCode

theorem Value.hasOperator_of_isOpen (h : value.Balanced) (hopen : value.IsOpen sources) :
    HasOperator (resultCode value).toList := by
  rcases hopen with ⟨parts, hlength, rfl⟩ | ⟨source, _, hsource, rfl⟩
  · exact hasOperator_sumCode hlength h
  · exact hsource

theorem Value.Built.isOpen (hsources : ∀ source ∈ sources, IsBalanced source.toList)
    (h : Built sources value) (hoperator : HasOperator (resultCode value).toList) :
    value.IsOpen sources := by
  cases h with
  | text value => exact absurd hoperator (selfContained_quoted value).2
  | number value => exact absurd hoperator (selfContained_quoted value.text).2
  | source hsource => exact Or.inr ⟨_, hsource, hoperator, rfl⟩
  | sum hlength hparts => exact Or.inl ⟨_, hlength, rfl⟩
  | selection locale default hselector hkeys harms =>
    have houtline := outline?_selectionCode locale default (hselector.balanced hsources) hkeys
      fun arm harm => (harms arm harm).balanced hsources
    exact absurd ((Script.hasOperator_iff_of_outline? houtline).mp hoperator) (by decide)
  | @formatted name formatter argument options locale hformatter hargument hnames hoptions =>
    have hoptions := isBalanced_optionsCode hnames fun option hoption =>
      (hoptions option hoption).balanced hsources
    have hargument := (hargument.balanced hsources).argumentCode
    have hvalues := formatter?_eq hformatter
    have houtline := outline?_formatted hvalues locale hoptions hargument
    have hcode : resultCode (formattedValue name formatter locale argument options) =
        "new Intl." ++ formatter ++ "([" ++ quoted locale ++ "], " ++ optionsCode options ++
          ").format(" ++ argument.argumentCode ++ ")" := by
      rw [formattedValue]
      split <;> rfl
    rw [hcode, Script.hasOperator_iff_of_outline? houtline] at hoperator
    rcases hvalues with rfl | rfl <;> exact absurd hoperator (by decide)

/-- The code that stands for a call has an operator just when its value is open. -/
theorem Value.Built.hasOperator_iff (hsources : ∀ source ∈ sources, IsBalanced source.toList)
    (h : Built sources value) : HasOperator (resultCode value).toList ↔ value.IsOpen sources :=
  ⟨h.isOpen hsources, Value.hasOperator_of_isOpen (h.balanced hsources)⟩

end

end TemplateMessages.Fluent
