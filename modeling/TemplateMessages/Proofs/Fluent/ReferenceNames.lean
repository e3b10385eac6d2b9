import Mathlib.Data.List.Basic
import TemplateMessages.Fluent.Expansion
import TemplateMessages.Proofs.Fluent.PlainResources

set_option autoImplicit false

/-!
# Names of references

In a catalog that was read, different patterns have different names: an identifier holds no point
and starts with a letter, so a name tells a message from a term and an id from an attribute.
-/

namespace TemplateMessages.Fluent

/-- The ids of the catalog are identifiers. -/
structure Catalog.Identified (catalog : Catalog) : Prop where
  message : ∀ entry ∈ catalog.messages, IsIdentifier entry.1
  term : ∀ entry ∈ catalog.terms, IsIdentifier entry.1

theorem isIdentifier_of_readAssignment (text : List Char) :
    Reads (fun assignment => IsIdentifier assignment.1) (readAssignment text) := by
  unfold readAssignment
  refine Reads.bind (isIdentifier_of_readIdentifier text) ?_
  rintro id ⟨afterId, h⟩ hid
  dsimp only
  obtain ⟨line, h'⟩ := skipSpaces afterId
  refine Reads.bind (reads_true (expect '=' line)) ?_
  rintro _ ⟨afterEquals, h''⟩ -
  exact Reads.bind (reads_true _) fun pattern rest _ => reads_ok hid

theorem isIdentifier_of_readFields (text : List Char) :
    Reads (fun fields => IsIdentifier fields.1) (readFields text) := by
  unfold readFields
  refine Reads.bind (isIdentifier_of_readAssignment text) ?_
  rintro ⟨id, value⟩ ⟨rest, h⟩ hid
  dsimp only
  obtain ⟨lines, h'⟩ := skipBlankLines rest
  exact reads_ok hid

def Entry.Identified : Entry → Prop
  | comment => True
  | message id _ => IsIdentifier id
  | term id _ => IsIdentifier id

theorem identified_readEntry (c : Char) (cs : List Char) :
    Reads Entry.Identified (readEntry c cs) := by
  unfold readEntry
  split
  · split
    · exact reads_error _
    · exact reads_ok trivial
  · split
    · split
      · exact reads_error _
      · rename_i hread
        exact reads_ok (isIdentifier_of_readFields _ _ _ hread)
      · exact reads_error _
    · split
      · exact reads_error _
      · rename_i hread
        split
        · exact reads_error _
        · exact reads_ok (isIdentifier_of_readFields _ _ _ hread)

theorem Catalog.Identified.add {catalog : Catalog} {entry : Entry} (h : catalog.Identified)
    (hentry : entry.Identified) : (catalog.add entry).Identified := by
  cases entry with
  | comment => exact h
  | message id message =>
    refine ⟨fun other hother => ?_, h.term⟩
    rcases Table.mem_put hother with rfl | hold
    · exact hentry
    · exact h.message other hold
  | term id term =>
    refine ⟨h.message, fun other hother => ?_⟩
    rcases Table.mem_put hother with rfl | hold
    · exact hentry
    · exact h.term other hold

theorem identified_parse (source : List Char) : (parse source).1.Identified := by
  apply readEntries_keeps
  · intro catalog c cs entry rest hread hcatalog
    exact hcatalog.add (identified_readEntry c cs _ _ hread)
  · constructor <;> simp

def Reference.id : Reference → String
  | message id _ => id
  | term id _ => id

theorem Catalog.Identified.id {catalog : Catalog} (h : catalog.Identified) {reference : Reference}
    {pattern : Pattern} (hpattern : catalog.pattern reference = .ok pattern) :
    IsIdentifier reference.id := by
  cases reference with
  | message id attr =>
    unfold Catalog.pattern at hpattern
    dsimp only at hpattern
    split at hpattern
    · cases hpattern
    · rename_i hget
      exact h.message _ (Table.mem_of_get?_eq hget)
  | term id attr =>
    unfold Catalog.pattern at hpattern
    dsimp only at hpattern
    split at hpattern
    · cases hpattern
    · rename_i hget
      exact h.term _ (Table.mem_of_get?_eq hget)

/-- An id, and behind a point that of its attribute. -/
def qualified (id : String) (attr : Option String) : List Char :=
  id.toList ++ (attr.elim [] fun attr => '.' :: attr.toList)

theorem toList_name (reference : Reference) :
    reference.name.toList =
      match reference with
      | .message id attr => qualified id attr
      | .term id attr => '-' :: qualified id attr := by
  cases reference with
  | message id attr => cases attr <;> simp [Reference.name, qualified]
  | term id attr => cases attr <;> simp [Reference.name, qualified]

theorem takeWhile_qualified {id : String} (h : '.' ∉ id.toList) (attr : Option String) :
    (qualified id attr).takeWhile (· != '.') = id.toList := by
  have hid : ∀ c ∈ id.toList, (c != '.') = true := fun c hc => by
    rw [bne_iff_ne]
    rintro rfl
    exact h hc
  rw [qualified, List.takeWhile_append_of_pos hid]
  cases attr <;> simp

theorem qualified_inj {id other : String} {attr further : Option String}
    (hid : '.' ∉ id.toList) (hother : '.' ∉ other.toList)
    (h : qualified id attr = qualified other further) : id = other ∧ attr = further := by
  have hids : id.toList = other.toList := by
    rw [← takeWhile_qualified hid attr, h, takeWhile_qualified hother]
  obtain rfl := String.toList_inj.mp hids
  have hattrs := List.append_cancel_left h
  refine ⟨rfl, ?_⟩
  cases attr with
  | none =>
    cases further with
    | none => rfl
    | some further => cases hattrs
  | some attr =>
    cases further with
    | none => cases hattrs
    | some further => exact congrArg some (String.toList_inj.mp (List.cons.inj hattrs).2)

theorem head?_qualified_ne {id : String} (h : id.toList.head? ≠ some '-')
    (attr : Option String) : (qualified id attr).head? ≠ some '-' := by
  unfold qualified
  cases hid : id.toList with
  | nil => cases attr <;> simp
  | cons c cs =>
    rw [hid] at h
    exact h

theorem name_inj {reference other : Reference} (h : IsIdentifier reference.id)
    (h' : IsIdentifier other.id) (hname : reference.name = other.name) : reference = other := by
  have hchars := congrArg String.toList hname
  rw [toList_name, toList_name] at hchars
  cases reference with
  | message id attr =>
    cases other with
    | message id' attr' =>
      obtain ⟨rfl, rfl⟩ := qualified_inj h.1 h'.1 hchars
      rfl
    | term id' attr' =>
      refine absurd ?_ (head?_qualified_ne h.2 attr)
      exact congrArg List.head? hchars
  | term id attr =>
    cases other with
    | message id' attr' =>
      refine absurd ?_ (head?_qualified_ne h'.2 attr')
      exact congrArg List.head? hchars.symm
    | term id' attr' =>
      obtain ⟨rfl, rfl⟩ := qualified_inj h.1 h'.1 (List.cons.inj hchars).2
      rfl

end TemplateMessages.Fluent
