import TemplateMessages.Fluent.Resource
import TemplateMessages.Proofs.Fluent.PlainNames
import TemplateMessages.Proofs.Table

set_option autoImplicit false

/-!
# Plain names in Fluent resources

A resource that was read is plain. The readers of patterns call each other on shorter texts, or on the
same text where that is the next thing to read; the induction is on the measure by which they end.
-/

namespace TemplateMessages.Fluent

open TemplateMessages.Text (Rest Shorter)

theorem plainPattern_trimLast {elements : List Element} (h : PlainPattern elements) :
    PlainPattern (trimLast elements) := by
  fun_induction trimLast elements with
  | case1 => exact h
  | case2 value =>
    intro element helement
    rw [List.mem_singleton.mp helement]
    exact .text _
  | case3 element elements _ ih =>
    intro other hother
    rcases List.mem_cons.mp hother with rfl | htail
    · exact h other List.mem_cons_self
    · exact ih (fun later hlater => h later (.tail _ hlater)) other htail

/-- The expressions in the pieces are plain. -/
def PlainPieces (pieces : List Piece) : Prop :=
  ∀ expression, Piece.placeable expression ∈ pieces → expression.Plain

theorem plainPieces_nil : PlainPieces [] := by
  intro expression h
  cases h

theorem plainPattern_patternOf {pieces : List Piece} (common : Option Nat) (h : PlainPieces pieces) :
    PlainPattern? (patternOf common pieces) := by
  intro value hvalue
  unfold patternOf at hvalue
  split at hvalue
  · cases hvalue
  · obtain rfl := Option.some.inj hvalue
    apply plainPattern_trimLast
    intro element helement
    obtain ⟨piece, hpiece, rfl⟩ := List.mem_map.mp helement
    cases piece with
    | text chars indent newLine blank => exact .text _
    | placeable expression =>
      have hmem := (List.dropWhile_sublist _).subset (List.mem_reverse.mp hpiece)
      exact .placeable (h expression (List.mem_reverse.mp hmem))

theorem plainPieces_append {pieces more : List Piece} (h : PlainPieces pieces)
    (hmore : PlainPieces more) : PlainPieces (pieces ++ more) := by
  intro expression hmem
  rcases List.mem_append.mp hmem with hfront | hback
  · exact h expression hfront
  · exact hmore expression hback

theorem plainPieces_pieceOf (start : RunStart) (indent : Nat) (common : Option Nat) (run : Run) :
    PlainPieces (pieceOf start indent common run).2 := by
  intro expression hmem
  unfold pieceOf at hmem
  dsimp only at hmem
  split at hmem
  · cases hmem
  · dsimp only at hmem
    split at hmem
    · cases List.mem_singleton.mp hmem
    · cases hmem

/-- What the readers of patterns give for texts of a measure below `bound`. -/
structure ReadsPlain (bound : Nat) : Prop where
  pattern : ∀ text, 8 * text.length + 7 < bound → Reads PlainPattern? (readPattern text)
  pieces : ∀ start common pieces text, 8 * text.length + 6 < bound → PlainPieces pieces →
    Reads PlainPattern? (readPieces start common pieces text)
  placeable : ∀ text, 8 * text.length + 5 < bound → Reads Expression.Plain (readPlaceable text)
  expression : ∀ text, 8 * text.length + 4 < bound → Reads Expression.Plain (readExpression text)
  variants : ∀ hasDefault variants text, 8 * text.length + 3 < bound →
    (∀ variant ∈ variants, variant.Plain) →
    Reads (fun all => ∀ variant ∈ all, variant.Plain) (readVariants hasDefault variants text)
  inline : ∀ onlyLiteral text, 8 * text.length + 1 < bound →
    Reads Inline.Plain (readInline onlyLiteral text)
  arguments : ∀ text, 8 * text.length + 3 < bound →
    Reads (fun arguments => ∀ given, arguments = some given → given.Plain) (readArguments text)
  argumentList : ∀ positional named text, 8 * text.length + 2 < bound →
    (Arguments.mk positional named).Plain →
    Reads Arguments.Plain (readArgumentList positional named text)

section

variable {text : List Char}

theorem plain_readPattern (ih : ReadsPlain (8 * text.length + 7)) :
    Reads PlainPattern? (readPattern text) := by
  rw [readPattern]
  obtain ⟨line, h⟩ := skipSpaces text
  dsimp only
  split
  · rename_i next h' _
    obtain ⟨start, h''⟩ := skipBlankLines next
    dsimp only
    split
    · exact reads_error _
    · rename_i heq
      exact reads_ok (ih.pieces _ _ _ _ (by omega) plainPieces_nil _ _ heq)
  · split
    · exact reads_error _
    · rename_i heq
      exact reads_ok (ih.pieces _ _ _ _ (by omega) plainPieces_nil _ _ heq)

theorem plain_readPieces (ih : ReadsPlain (8 * text.length + 6)) (start : RunStart)
    (common : Option Nat) {pieces : List Piece} (hpieces : PlainPieces pieces) :
    Reads PlainPattern? (readPieces start common pieces text) := by
  rw [readPieces.eq_def]
  cases text with
  | nil => exact reads_ok (plainPattern_patternOf common hpieces)
  | cons c cs =>
    have hlength : (c :: cs).length = cs.length + 1 := List.length_cons
    dsimp only
    split
    · split
      · exact reads_error _
      · rename_i expression rest h hplaceable
        have hexpression := ih.placeable _ (by omega) _ _ hplaceable
        split
        · exact reads_error _
        · rename_i hread
          refine reads_ok (ih.pieces _ _ _ _ (by omega) ?_ _ _ hread)
          apply plainPieces_append hpieces
          intro other hother
          cases List.mem_singleton.mp hother
          exact hexpression
    · rename_i hopen
      generalize (if start = .newLine then ((c :: cs).takeWhile isSpace).length else 0) = indent
      split
      · exact reads_ok (plainPattern_patternOf common hpieces)
      · split
        · exact reads_error _
        · rename_i run rest _ hrun
          have hrest := length_lt_of_readLine hrun hopen
          have hmore := plainPieces_append hpieces (plainPieces_pieceOf start indent common run)
          split
          · exact reads_error _
          · rename_i hread
            exact reads_ok (ih.pieces _ _ _ _ (by omega) hmore _ _ hread)

theorem plain_readPlaceable (ih : ReadsPlain (8 * text.length + 5)) :
    Reads Expression.Plain (readPlaceable text) := by
  rw [readPlaceable]
  obtain ⟨start, h⟩ := skipBlank text
  dsimp only
  split
  · exact reads_error _
  · rename_i expression rest h' hread
    obtain ⟨line, h''⟩ := skipSpaces rest
    dsimp only
    split
    · exact reads_error _
    · exact reads_ok (ih.expression _ (by omega) _ _ hread)

theorem plain_readExpression (ih : ReadsPlain (8 * text.length + 4)) :
    Reads Expression.Plain (readExpression text) := by
  rw [readExpression]
  split
  · exact reads_error _
  · rename_i value rest h hread
    have hvalue := ih.inline _ _ (by omega) _ _ hread
    obtain ⟨start, h'⟩ := skipBlank rest
    dsimp only
    split
    · rename_i variants harrow _
      split
      · exact reads_error _
      · obtain ⟨line, h''⟩ := skipSpaces variants
        dsimp only
        split
        · exact reads_error _
        · rename_i next hbreak _
          obtain ⟨first, hfirst⟩ := skipBlank next
          dsimp only
          split
          · exact reads_error _
          · rename_i heq
            have hnone (variant : Variant) (h : variant ∈ []) : variant.Plain := by cases h
            exact reads_ok (.select hvalue (ih.variants _ _ _ (by omega) hnone _ _ heq))
    · split
      · exact reads_error _
      · exact reads_ok (.inline hvalue)

theorem plain_readVariants (ih : ReadsPlain (8 * text.length + 3)) (hasDefault : Bool)
    {variants : List Variant} (hvariants : ∀ variant ∈ variants, variant.Plain) :
    Reads (fun all => ∀ variant ∈ all, variant.Plain) (readVariants hasDefault variants text) := by
  rw [readVariants]
  obtain ⟨isDefault, start, h⟩ := skipOptional '*' text
  dsimp only
  split
  · exact reads_error _
  · split
    · rename_i afterBracket hbracket _
      split
      · exact reads_error _
      · rename_i key afterKey h' hkey
        split
        · exact reads_error _
        · exact reads_error _
        · rename_i value rest h'' hpattern
          obtain ⟨next, hnext⟩ := skipBlank rest
          dsimp only
          split
          · exact reads_error _
          · rename_i hread
            have hplain := ih.pattern _ (by omega) _ _ hpattern value rfl
            refine reads_ok (ih.variants _ _ _ (by omega) ?_ _ _ hread)
            intro variant hvariant
            rcases List.mem_append.mp hvariant with hfront | hback
            · exact hvariants variant hfront
            · rw [List.mem_singleton.mp hback]
              exact .mk isDefault (isPlain_of_readVariantKey _ _ _ hkey) hplain
    · split
      · exact reads_ok hvariants
      · exact reads_error _

theorem plain_readArguments (ih : ReadsPlain (8 * text.length + 3)) :
    Reads (fun arguments => ∀ given, arguments = some given → given.Plain) (readArguments text) := by
  rw [readArguments]
  obtain ⟨start, h⟩ := skipBlank text
  dsimp only
  split
  · rename_i inside hopen _
    obtain ⟨first, h'⟩ := skipBlank inside
    dsimp only
    split
    · exact reads_error _
    · rename_i hread
      have hempty : (Arguments.mk [] []).Plain := by
        constructor <;> simp
      have harguments := ih.argumentList _ _ _ (by omega) hempty _ _ hread
      apply reads_ok
      rintro given ⟨⟩
      exact harguments
  · apply reads_ok
    rintro given ⟨⟩

theorem isPlain_of_argumentName? {value : Inline} {name : String} (h : value.Plain)
    (hname : argumentName? value = some name) : IsPlain name := by
  unfold argumentName? at hname
  split at hname
  · obtain rfl := Option.some.inj hname
    cases h with
    | message attr hplain _ => exact hplain
  · cases hname

theorem Arguments.Plain.append_positional {positional : List Inline}
    {named : List (String × Inline)} {value : Inline} (h : (Arguments.mk positional named).Plain)
    (hvalue : value.Plain) : (Arguments.mk (positional ++ [value]) named).Plain := by
  obtain ⟨hpositional, hnames, hnamed⟩ := h
  refine .mk ?_ hnames hnamed
  intro other hother
  rcases List.mem_append.mp hother with hfront | hback
  · exact hpositional other hfront
  · rw [List.mem_singleton.mp hback]
    exact hvalue

theorem Arguments.Plain.append_named {positional : List Inline} {named : List (String × Inline)}
    {name : String} {value : Inline} (h : (Arguments.mk positional named).Plain)
    (hname : IsPlain name) (hvalue : value.Plain) :
    (Arguments.mk positional (named ++ [(name, value)])).Plain := by
  obtain ⟨hpositional, hnames, hnamed⟩ := h
  refine .mk hpositional ?_ ?_
  · intro entry hentry
    rcases List.mem_append.mp hentry with hfront | hback
    · exact hnames entry hfront
    · rw [List.mem_singleton.mp hback]
      exact hname
  · intro entry hentry
    rcases List.mem_append.mp hentry with hfront | hback
    · exact hnamed entry hfront
    · rw [List.mem_singleton.mp hback]
      exact hvalue

theorem plain_readArgumentList (ih : ReadsPlain (8 * text.length + 2)) {positional : List Inline}
    {named : List (String × Inline)} (h : (Arguments.mk positional named).Plain) :
    Reads Arguments.Plain (readArgumentList positional named text) := by
  -- Every further argument is read from a shorter text, where `ih` says that it is plain.
  rw [readArgumentList.eq_def]
  cases text with
  | nil => exact reads_error _
  | cons c cs =>
    have hlength : (c :: cs).length = cs.length + 1 := List.length_cons
    dsimp only
    split
    · exact reads_ok h
    · split
      · exact reads_error _
      · rename_i value rest hshorter hread
        have hvalue := ih.inline _ _ (by omega) _ _ hread
        have hvalues := h.append_positional hvalue
        cases hname : argumentName? value with
        | none =>
          dsimp only
          split
          · exact reads_error _
          · obtain ⟨next, hnext⟩ := skipComma (Rest.whole rest).val
            have hwhole : (Rest.whole rest).val = rest := rfl
            dsimp only
            split
            · exact reads_error _
            · rename_i hrest
              rw [hwhole] at hnext
              exact reads_ok (ih.argumentList _ _ _ (by omega) hvalues _ _ hrest)
        | some name =>
          obtain ⟨afterValue, h'⟩ := skipBlank rest
          dsimp only
          split
          · rename_i afterColon hcolon heq _
            obtain rfl := Option.some.inj heq
            split
            · exact reads_error _
            · obtain ⟨start, h''⟩ := skipBlank afterColon
              dsimp only
              split
              · exact reads_error _
              · rename_i literal afterLiteral hliteral hread'
                obtain ⟨next, hnext⟩ := skipComma afterLiteral
                dsimp only
                split
                · exact reads_error _
                · rename_i hrest
                  have hliteral := ih.inline _ _ (by omega) _ _ hread'
                  have hall := h.append_named (isPlain_of_argumentName? hvalue hname) hliteral
                  exact reads_ok (ih.argumentList _ _ _ (by omega) hall _ _ hrest)
          · split
            · exact reads_error _
            · obtain ⟨next, hnext⟩ := skipComma afterValue
              dsimp only
              split
              · exact reads_error _
              · rename_i hrest
                exact reads_ok (ih.argumentList _ _ _ (by omega) hvalues _ _ hrest)

theorem plain_readInline (ih : ReadsPlain (8 * text.length + 1)) (onlyLiteral : Bool) :
    Reads Inline.Plain (readInline onlyLiteral text) := by
  rw [readInline.eq_def]
  cases text with
  | nil => exact reads_error _
  | cons c cs =>
    have hlength : (c :: cs).length = cs.length + 1 := List.length_cons
    dsimp only
    split
    · split
      · exact reads_error _
      · split
        · exact reads_error _
        · exact reads_ok (.string _)
    · split
      · exact (isPlain_of_readNumber _).map fun _ _ _ => .number _
      · split
        · split
          · exact (isPlain_of_readNumber _).map fun _ _ _ => .number _
          · rename_i id afterId h hid
            split
            · exact reads_error _
            · rename_i attr afterAttr h' hattr
              split
              · exact reads_error _
              · rename_i arguments rest harguments
                exact reads_ok (.term attr (isIdentifier_of_readIdentifier _ _ _ hid)
                  (ih.arguments _ (by omega) _ _ harguments))
        · split
          · split
            · exact reads_error _
            · exact reads_ok (.variable _)
          · split
            · split
              · exact reads_error _
              · rename_i id afterId h hid
                split
                · exact reads_error _
                · rename_i arguments rest harguments
                  split
                  · exact reads_ok (.function id (ih.arguments _ (by omega) _ _ harguments _ rfl))
                  · exact reads_error _
                · split
                  · exact reads_error _
                  · exact reads_ok (.message _ (isPlain_of_readIdentifier _ _ _ hid)
                      (isIdentifier_of_readIdentifier _ _ _ hid))
            · split
              · split
                · exact reads_error _
                · rename_i hread
                  exact reads_ok (.placeable (ih.placeable _ (by omega) _ _ hread))
              · exact reads_error _

end

/-- Each reader calls the others on texts of a smaller measure. -/
theorem readsPlain (bound : Nat) : ReadsPlain bound := by
  induction bound using Nat.strong_induction_on with
  | h bound ih =>
    constructor
    · intro text hlt
      exact plain_readPattern (ih _ hlt)
    · intro start common pieces text hlt hpieces
      exact plain_readPieces (ih _ hlt) start common hpieces
    · intro text hlt
      exact plain_readPlaceable (ih _ hlt)
    · intro text hlt
      exact plain_readExpression (ih _ hlt)
    · intro hasDefault variants text hlt hvariants
      exact plain_readVariants (ih _ hlt) hasDefault hvariants
    · intro onlyLiteral text hlt
      exact plain_readInline (ih _ hlt) onlyLiteral
    · intro text hlt
      exact plain_readArguments (ih _ hlt)
    · intro positional named text hlt h
      exact plain_readArgumentList (ih _ hlt) h

theorem reads_true {α β : Type} (reading : Except Stop (α × β)) : Reads (fun _ => True) reading :=
  fun _ _ _ => trivial

theorem plain_readAssignment (text : List Char) :
    Reads (fun assignment => PlainPattern? assignment.2) (readAssignment text) := by
  unfold readAssignment
  refine Reads.bind (reads_true (readIdentifier text)) ?_
  rintro id ⟨afterId, h⟩ -
  dsimp only
  obtain ⟨line, h'⟩ := skipSpaces afterId
  refine Reads.bind (reads_true (expect '=' line)) ?_
  rintro _ ⟨afterEquals, h''⟩ -
  refine Reads.bind (P := PlainPattern?) ?_ ?_
  · exact (readsPlain _).pattern afterEquals (Nat.lt_succ_self _)
  · intro pattern rest hpattern
    exact reads_ok hpattern

theorem plain_readAttribute? {text : List Char} {attr : String × Pattern} {rest : Shorter text}
    (h : readAttribute? text = some (attr, rest)) : PlainPattern attr.2 := by
  unfold readAttribute? at h
  obtain ⟨line, hline⟩ := skipSpaces text
  dsimp only at h
  split at h
  · split at h
    · rename_i hread
      cases h
      exact plain_readAssignment _ _ _ hread _ rfl
    · cases h
  · cases h

theorem plain_readAttributes (text : List Char) : PlainAttributes (readAttributes text).1 := by
  induction hlength : text.length using Nat.strong_induction_on generalizing text with
  | h length ih =>
    rw [readAttributes]
    split
    · intro attr hattr
      cases hattr
    · rename_i attr rest h hread
      have hrest := ih rest.length (by omega) rest rfl
      intro other hother
      rcases List.mem_cons.mp hother with rfl | htail
      · exact plain_readAttribute? hread
      · exact hrest other htail

theorem plain_readFields (text : List Char) :
    Reads (fun fields => PlainPattern? fields.2.1 ∧ PlainAttributes fields.2.2)
      (readFields text) := by
  unfold readFields
  refine Reads.bind (plain_readAssignment text) ?_
  rintro ⟨id, value⟩ ⟨rest, h⟩ hvalue
  dsimp only
  obtain ⟨lines, h'⟩ := skipBlankLines rest
  exact reads_ok ⟨hvalue, plain_readAttributes lines⟩

def Entry.Plain : Entry → Prop
  | comment => True
  | message _ fields => PlainPattern? fields.value ∧ PlainAttributes fields.attributes
  | term _ fields => PlainPattern fields.value ∧ PlainAttributes fields.attributes

theorem plain_readEntry (c : Char) (cs : List Char) : Reads Entry.Plain (readEntry c cs) := by
  unfold readEntry
  split
  · split
    · exact reads_error _
    · exact reads_ok trivial
  · split
    · split
      · exact reads_error _
      · rename_i hread
        obtain ⟨hvalue, hattributes⟩ := plain_readFields _ _ _ hread
        exact reads_ok ⟨hvalue _ rfl, hattributes⟩
      · exact reads_error _
    · split
      · exact reads_error _
      · rename_i hread
        split
        · exact reads_error _
        · exact reads_ok (plain_readFields _ _ _ hread)

theorem Catalog.Plain.add {catalog : Catalog} {entry : Entry} (h : catalog.Plain)
    (hentry : entry.Plain) : (catalog.add entry).Plain := by
  cases entry with
  | comment => exact h
  | message id message =>
    refine ⟨?_, ?_, h.termValue, h.termAttributes⟩
    · intro other hother
      rcases Table.mem_put hother with rfl | hold
      · exact hentry.1
      · exact h.value other hold
    · intro other hother
      rcases Table.mem_put hother with rfl | hold
      · exact hentry.2
      · exact h.attributes other hold
  | term id term =>
    refine ⟨h.value, h.attributes, ?_, ?_⟩
    · intro other hother
      rcases Table.mem_put hother with rfl | hold
      · exact hentry.1
      · exact h.termValue other hold
    · intro other hother
      rcases Table.mem_put hother with rfl | hold
      · exact hentry.2
      · exact h.termAttributes other hold

/-- What holds of a catalog still holds of it with all entries of a text, when every entry that is
read keeps it. -/
theorem readEntries_keeps {P : Catalog → Prop}
    (hadd : ∀ catalog c cs entry rest, readEntry c cs = .ok (entry, rest) → P catalog →
      P (catalog.add entry))
    (total : Nat) {catalog : Catalog} (h : P catalog) (text : List Char) :
    P (readEntries total catalog text).1 := by
  induction hlength : text.length using Nat.strong_induction_on generalizing text catalog with
  | h length ih =>
    cases text with
    | nil =>
      rw [readEntries]
      exact h
    | cons c cs =>
      rw [readEntries]
      split
      · rename_i entry rest hread
        obtain ⟨next, hnext⟩ := behindBlankLines rest
        exact ih next.length (by omega) (hadd catalog c cs entry rest hread h) next rfl
      · rename_i stop _
        obtain ⟨next, hnext⟩ := behindBlankLines (recover c cs stop.rest)
        exact ih next.length (by omega) h next rfl

/-- A catalog that was read has plain names. -/
theorem plain_parse (source : List Char) : (parse source).1.Plain := by
  apply readEntries_keeps
  · intro catalog c cs entry rest hread hcatalog
    exact hcatalog.add (plain_readEntry c cs _ _ hread)
  · constructor <;> simp

end TemplateMessages.Fluent
