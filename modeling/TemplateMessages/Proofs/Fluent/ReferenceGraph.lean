import Mathlib.Logic.Relation
import TemplateMessages.Proofs.Fluent.Course

set_option autoImplicit false

/-!
# The graph of references

The patterns of a catalog refer to one another. An expansion follows no reference that its pattern
does not have, and what can fail inside a pattern is neither a param nor a cycle. Inside a term
no param is asked for.
-/

namespace TemplateMessages.Fluent

open TemplateMessages.Translation (TranslationError)

mutual

/-- The references that an expansion can follow. Arguments of a term without a name, and those of a
function behind the first, are never expanded. -/
def inlineReferences : Inline → List Reference
  | .string _ => []
  | .number _ => []
  | .variable _ => []
  | .message id attr => [.message id attr]
  | .term id attr none => [.term id attr]
  | .term id attr (some (.mk _ named)) => .term id attr :: namedReferences named
  | .function _ (.mk positional named) =>
    (match positional with
      | [] => []
      | first :: _ => inlineReferences first) ++ namedReferences named
  | .placeable expression => expressionReferences expression

def namedReferences : List (String × Inline) → List Reference
  | [] => []
  | (_, value) :: named => inlineReferences value ++ namedReferences named

def expressionReferences : Expression → List Reference
  | .inline value => inlineReferences value
  | .select selector variants => inlineReferences selector ++ variantsReferences variants

def variantsReferences : List Variant → List Reference
  | [] => []
  | .mk _ _ value :: variants => patternReferences value ++ variantsReferences variants

def patternReferences : List Element → List Reference
  | [] => []
  | .text _ :: elements => patternReferences elements
  | .placeable expression :: elements =>
    expressionReferences expression ++ patternReferences elements

end

/-- The first pattern has the second reference in it. -/
def Catalog.RefersTo (catalog : Catalog) (reference other : Reference) : Prop :=
  ∃ pattern, catalog.pattern reference = .ok pattern ∧ other ∈ patternReferences pattern

def Reference.IsMessage : Reference → Prop
  | message _ _ => True
  | term _ _ => False

def IsAbsence : TranslationError → Prop
  | .unknownMessage _ => True
  | .unknownTerm _ => True
  | .unknownAttribute _ => True
  | .noValue _ => True
  | _ => False

theorem isAbsence_of_pattern {catalog : Catalog} {reference : Reference} {error : TranslationError}
    (h : catalog.pattern reference = .error error) : IsAbsence error := by
  unfold Catalog.pattern at h
  cases reference with
  | message id attr =>
    dsimp only at h
    split at h
    · cases h
      exact trivial
    · split at h
      · split at h <;> cases h
        exact trivial
      · split at h <;> cases h
        exact trivial
  | term id attr =>
    dsimp only at h
    split at h
    · cases h
      exact trivial
    · split at h
      · split at h <;> cases h
        exact trivial
      · cases h

/-- No pattern that can be reached from this one can be reached from itself. -/
def Catalog.Acyclic (catalog : Catalog) (reference : Reference) : Prop :=
  ∀ reached, Relation.ReflTransGen catalog.RefersTo reference reached →
    ¬Relation.TransGen catalog.RefersTo reached reached

def IsLocal : TranslationError → Prop
  | .unknownTerm _ => True
  | .unknownFunction _ => True
  | .missingArgument _ => True
  | .noDefaultVariant _ => True
  | .invalidLocale _ => True
  | _ => False

namespace Course

variable {α β : Type}

/-- The course of what is inside the term with these arguments, or inside a message. It follows these
references only, those of terms with arguments, asks for params only where there are no arguments,
and fails with local errors only. -/
def Keeps (arguments : Option (Table Value)) (references : List Reference) : Course α → Prop
  | .done _ => True
  | .fail error => IsLocal error
  | .placeable next => next.Keeps arguments references
  | .param _ next => arguments = none ∧ ∀ value, (next value).Keeps arguments references
  | .follow reference given next =>
    (reference ∈ references ∧ (given = none → reference.IsMessage)) ∧
      ∀ value, (next value).Keeps arguments references

variable {arguments : Option (Table Value)} {references others : List Reference}

theorem Keeps.mono {course : Course α} (h : course.Keeps arguments references)
    (hsubset : references ⊆ others) : course.Keeps arguments others := by
  induction course with
  | done result => exact trivial
  | fail error => exact h
  | placeable next ih => exact ih h
  | param name next ih => exact ⟨h.1, fun value => ih value (h.2 value)⟩
  | follow reference given next ih =>
    exact ⟨⟨hsubset h.1.1, h.1.2⟩, fun value => ih value (h.2 value)⟩

theorem Keeps.bind {course : Course α} {next : α → Course β} (h : course.Keeps arguments references)
    (hnext : ∀ result, (next result).Keeps arguments references) :
    (course >>= next).Keeps arguments references := by
  change (course.bind next).Keeps arguments references
  induction course with
  | done result => exact hnext result
  | fail error => exact h
  | placeable rest ih => exact ih h
  | param name rest ih => exact ⟨h.1, fun value => ih value (h.2 value)⟩
  | follow reference given rest ih => exact ⟨h.1, fun value => ih value (h.2 value)⟩

theorem keeps_ofExcept {computed : Except TranslationError α}
    (h : ∀ error, computed = .error error → IsLocal error) :
    (ofExcept computed).Keeps arguments references := by
  cases computed with
  | ok result => exact trivial
  | error error => exact h error rfl

end Course

section

variable {scope : Scope} {references : List Reference} {arguments : Option (Table Value)}

theorem isLocal_of_chosen? {selector : Value} {variants : List Variant} {default : Nat}
    {error : TranslationError} (h : scope.chosen? selector variants default = .error error) :
    IsLocal error := by
  unfold Scope.chosen? at h
  split at h
  · rename_i number _
    cases hcategory : scope.category number with
    | ok category =>
      rw [hcategory] at h
      cases h
    | error other =>
      rw [hcategory] at h
      cases h
      unfold Scope.category at hcategory
      split at hcategory
      · cases hcategory
      · cases hcategory
        exact trivial
  · split at h <;> cases h

theorem keeps_variableCourse (arguments : Option (Table Value)) (name : String) :
    (variableCourse arguments name).Keeps arguments references := by
  cases arguments with
  | some arguments => exact trivial
  | none => exact ⟨rfl, fun _ => trivial⟩

theorem keeps_withTerm {α : Type} (id : String) {course : Course α}
    (h : course.Keeps arguments references) :
    (withTerm scope id course).Keeps arguments references := by
  unfold withTerm
  split
  · exact trivial
  · exact h

mutual

theorem keeps_inlineCourse (arguments : Option (Table Value)) : (inline : Inline) →
    (inlineCourse scope arguments inline).Keeps arguments (inlineReferences inline)
  | .string raw => by
    rw [inlineCourse]
    exact trivial
  | .number text => by
    rw [inlineCourse]
    exact trivial
  | .variable name => by
    rw [inlineCourse]
    exact keeps_variableCourse arguments name
  | .message id attr => by
    rw [inlineCourse, inlineReferences]
    exact ⟨⟨List.mem_singleton_self _, fun _ => trivial⟩, fun _ => trivial⟩
  | .term id attr none => by
    rw [inlineCourse, inlineReferences]
    exact keeps_withTerm id ⟨⟨List.mem_singleton_self _, fun h => by cases h⟩, fun _ => trivial⟩
  | .term id attr (some (.mk _ named)) => by
    have hnamed := keeps_namedCourse arguments named
    rw [inlineCourse, inlineReferences]
    refine keeps_withTerm id ((hnamed.mono (List.subset_cons_self _ _)).bind fun values => ?_)
    exact ⟨⟨List.mem_cons_self, fun h => by cases h⟩, fun _ => trivial⟩
  | .function name (.mk positional named) => by
    have hnamed := keeps_namedCourse arguments named
    rw [inlineCourse.eq_def, inlineReferences.eq_def]
    dsimp only
    cases formatter? name with
    | none => exact trivial
    | some formatter =>
      cases positional with
      | nil => exact trivial
      | cons first others =>
        have hfirst := keeps_inlineCourse arguments first
        exact (hfirst.mono (List.subset_append_left _ _)).bind fun argument =>
          (hnamed.mono (List.subset_append_right _ _)).bind fun options => trivial
  | .placeable expression => by
    rw [inlineCourse, inlineReferences]
    exact keeps_expressionCourse arguments expression

theorem keeps_namedCourse (arguments : Option (Table Value)) : (named : List (String × Inline)) →
    (namedCourse scope arguments named).Keeps arguments (namedReferences named)
  | [] => by
    rw [namedCourse]
    exact trivial
  | (name, value) :: named => by
    have hvalue := keeps_inlineCourse arguments value
    have hnamed := keeps_namedCourse arguments named
    rw [namedCourse, namedReferences]
    exact (hvalue.mono (List.subset_append_left _ _)).bind fun result =>
      (hnamed.mono (List.subset_append_right _ _)).bind fun results => trivial

theorem keeps_expressionCourse (arguments : Option (Table Value)) : (expression : Expression) →
    (expressionCourse scope arguments expression).Keeps arguments (expressionReferences expression)
  | .inline value => by
    rw [expressionCourse, expressionReferences]
    exact keeps_inlineCourse arguments value
  | .select selector variants => by
    have hselector := keeps_inlineCourse arguments selector
    have hvariants := keeps_variantsCourse arguments variants
    have hvariant (index : Nat) := keeps_variantCourse arguments index variants
    rw [expressionCourse, expressionReferences]
    refine (hselector.mono (List.subset_append_left _ _)).bind fun value => ?_
    split
    · exact trivial
    · refine (Course.keeps_ofExcept fun error h => isLocal_of_chosen? h).bind fun chosen => ?_
      split
      · exact (hvariant _).mono (List.subset_append_right _ _)
      · exact (hvariants.mono (List.subset_append_right _ _)).bind fun arms => trivial

theorem keeps_variantCourse (arguments : Option (Table Value)) :
    (index : Nat) → (variants : List Variant) →
      (variantCourse scope arguments index variants).Keeps arguments (variantsReferences variants)
  | 0, [] => by
    rw [variantCourse]
    exact trivial
  | _ + 1, [] => by
    rw [variantCourse]
    exact trivial
  | 0, .mk _ _ value :: variants => by
    have hvalue := keeps_elementsCourse arguments (scope.isolating && 1 < value.length) value
    rw [variantCourse, variantsReferences]
    exact (hvalue.mono (List.subset_append_left _ _)).bind fun parts => trivial
  | index + 1, .mk _ _ value :: variants => by
    have hvariants := keeps_variantCourse arguments index variants
    rw [variantCourse, variantsReferences]
    exact hvariants.mono (List.subset_append_right _ _)

theorem keeps_variantsCourse (arguments : Option (Table Value)) : (variants : List Variant) →
    (variantsCourse scope arguments variants).Keeps arguments (variantsReferences variants)
  | [] => by
    rw [variantsCourse]
    exact trivial
  | .mk _ _ value :: variants => by
    have hvalue := keeps_elementsCourse arguments (scope.isolating && 1 < value.length) value
    have hvariants := keeps_variantsCourse arguments variants
    rw [variantsCourse, variantsReferences]
    exact (hvalue.mono (List.subset_append_left _ _)).bind fun parts =>
      (hvariants.mono (List.subset_append_right _ _)).bind fun values => trivial

theorem keeps_elementsCourse (arguments : Option (Table Value)) (isolate : Bool) :
    (elements : List Element) →
      (elementsCourse scope arguments isolate elements).Keeps arguments (patternReferences elements)
  | [] => by
    rw [elementsCourse]
    exact trivial
  | .text value :: elements => by
    have hrest := keeps_elementsCourse arguments isolate elements
    rw [elementsCourse, patternReferences]
    exact hrest.bind fun parts => trivial
  | .placeable expression :: elements => by
    have hvalue := keeps_expressionCourse arguments expression
    have hrest := keeps_elementsCourse arguments isolate elements
    rw [elementsCourse, patternReferences]
    have hboth : Course.Keeps arguments
        (expressionReferences expression ++ patternReferences elements)
        (do
          let value ← expressionCourse scope arguments expression
          let parts ← elementsCourse scope arguments isolate elements
          if isolate then return .text isolateStart :: value :: .text isolateEnd :: parts
          else return value :: parts) := by
      refine (hvalue.mono (List.subset_append_left _ _)).bind fun result =>
        (hrest.mono (List.subset_append_right _ _)).bind fun parts => ?_
      cases isolate <;> exact trivial
    exact hboth

end

theorem keeps_patternCourse (scope : Scope) (arguments : Option (Table Value)) (pattern : Pattern) :
    (patternCourse scope arguments pattern).Keeps arguments (patternReferences pattern) := by
  have hparts (isolate : Bool) :
      (elementsCourse scope arguments isolate pattern).Keeps arguments (patternReferences pattern) :=
    keeps_elementsCourse arguments isolate pattern
  exact (hparts _).bind fun parts => trivial

end

end TemplateMessages.Fluent
