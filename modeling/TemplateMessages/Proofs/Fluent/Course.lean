import TemplateMessages.Fluent.Expansion

set_option autoImplicit false

/-!
# The course of an expansion

What an expression does while it is expanded, apart from the params of the call and the patterns it
refers to: it counts placeables, reads params, follows references, and ends with a value or an error.
A course is a tree of these steps. Expanding is running the course, so what holds of every run is
shown by induction on a course, without another look at the syntax.
-/

namespace TemplateMessages.Fluent

open TemplateMessages.Translation (TranslationError)

inductive Course (α : Type) where
  | done (result : α)
  | fail (error : TranslationError)
  | placeable (next : Course α)
  | param (name : String) (next : Value → Course α)
  | follow (reference : Reference) (arguments : Option (Table Value)) (next : Value → Course α)

namespace Course

variable {α β : Type}

def bind (course : Course α) (behind : α → Course β) : Course β :=
  match course with
  | .done result => behind result
  | .fail error => .fail error
  | .placeable next => .placeable (next.bind behind)
  | .param name next => .param name fun value => (next value).bind behind
  | .follow reference arguments next =>
    .follow reference arguments fun value => (next value).bind behind

instance : Monad Course where
  pure := done
  bind := bind

def ofExcept : Except TranslationError α → Course α
  | .ok result => .done result
  | .error error => .fail error

/-- A course with the params of a call, and with a function that expands references. -/
def run (params : Table Value) (follow : Reference → Option (Table Value) → Expanding Value) :
    Course α → Expanding α
  | .done result => pure result
  | .fail error => throw error
  | .placeable next => countPlaceable >>= fun _ => next.run params follow
  | .param name next =>
    match params.get? name with
    | some value => (next value).run params follow
    | none => throw (.unknownVariable name)
  | .follow reference arguments next =>
    follow reference arguments >>= fun value => (next value).run params follow

end Course

/-- Inside a term, whose arguments are given, no param is read. -/
def variableCourse (arguments : Option (Table Value)) (name : String) : Course Value :=
  match arguments with
  | some arguments => .done ((arguments.get? name).getD (.text ("\x7b$" ++ name ++ "\x7d")))
  | none => .param name .done

section

variable (scope : Scope)

/-- Go on when the catalog has the term. -/
def withTerm {α : Type} (id : String) (course : Course α) : Course α :=
  if (scope.catalog.terms.get? id).isNone then .fail (.unknownTerm id) else course

mutual

def inlineCourse (arguments : Option (Table Value)) : Inline → Course Value
  | .string raw => .done (.text (String.ofList (unescape raw.toList)))
  | .number text => .done (numberValue text)
  | .variable name => variableCourse arguments name
  | .message id attr => .follow (.message id attr) none .done
  | .term id attr none => withTerm scope id (.follow (.term id attr) (some []) .done)
  | .term id attr (some (.mk _ named)) =>
    withTerm scope id do
      let named ← namedCourse arguments named
      .follow (.term id attr) (some (Table.ofList named)) .done
  | .function name (.mk positional named) =>
    match formatter? name with
    | none => .fail (.unknownFunction name)
    | some formatter =>
      match positional with
      | [] => .fail (.missingArgument name)
      | first :: _ => do
        let argument ← inlineCourse arguments first
        let options ← namedCourse arguments named
        return formattedValue name formatter scope.locale argument options
  | .placeable expression => expressionCourse arguments expression

def namedCourse (arguments : Option (Table Value)) :
    List (String × Inline) → Course (List (String × Value))
  | [] => .done []
  | (name, value) :: named => do
    let value ← inlineCourse arguments value
    let named ← namedCourse arguments named
    return (name, value) :: named

def expressionCourse (arguments : Option (Table Value)) : Expression → Course Value
  | .inline value => inlineCourse arguments value
  | .select selector variants => do
    let selector ← inlineCourse arguments selector
    match variants.findIdx? (·.isDefault) with
    | none => .fail (.noDefaultVariant scope.key)
    | some default =>
      match ← .ofExcept (scope.chosen? selector variants default) with
      | some index => variantCourse arguments index variants
      | none =>
        let arms ← variantsCourse arguments variants
        return .code (selectionCode scope.locale selector variants default arms)

def variantCourse (arguments : Option (Table Value)) : Nat → List Variant → Course Value
  | _, [] => .done (.text "")
  | 0, .mk _ _ value :: _ => do
    return Value.concat (← elementsCourse arguments (scope.isolating && 1 < value.length) value)
  | index + 1, _ :: variants => variantCourse arguments index variants

def variantsCourse (arguments : Option (Table Value)) : List Variant → Course (List Value)
  | [] => .done []
  | .mk _ _ value :: variants => do
    let parts ← elementsCourse arguments (scope.isolating && 1 < value.length) value
    let values ← variantsCourse arguments variants
    return Value.concat parts :: values

def elementsCourse (arguments : Option (Table Value)) (isolate : Bool) :
    List Element → Course (List Value)
  | [] => .done []
  | .text value :: elements => do
    let parts ← elementsCourse arguments isolate elements
    return .text value :: parts
  | .placeable expression :: elements =>
    .placeable do
      let value ← expressionCourse arguments expression
      let parts ← elementsCourse arguments isolate elements
      if isolate then return .text isolateStart :: value :: .text isolateEnd :: parts
      else return value :: parts

end

/-- The course of a pattern with the arguments of the term that it belongs to. -/
def patternCourse (arguments : Option (Table Value)) (pattern : Pattern) : Course Value := do
  return Value.concat
    (← elementsCourse scope arguments (scope.isolating && 1 < pattern.length) pattern)

end

section

variable {α β : Type} {scope : Scope} {params : Table Value}
  {follow : Reference → Option (Table Value) → Expanding Value}

@[simp] theorem Course.run_bind (course : Course α) (next : α → Course β) :
    (course >>= next).run params follow =
      course.run params follow >>= fun result => (next result).run params follow := by
  change (course.bind next).run params follow = _
  induction course with
  | done result => rfl
  | fail error => rfl
  | placeable rest ih => simp only [bind, run, ih, bind_assoc]
  | param name rest ih =>
    simp only [bind, run]
    cases params.get? name with
    | none => rfl
    | some value => exact ih value
  | follow reference arguments rest ih => simp only [bind, run, ih, bind_assoc]

@[simp] theorem Course.run_pure (result : α) :
    (pure result : Course α).run params follow = pure result :=
  rfl

@[simp] theorem Course.run_ofExcept (computed : Except TranslationError α) :
    (Course.ofExcept computed).run params follow = liftM computed := by
  cases computed <;> rfl

@[simp] theorem run_variableCourse (arguments : Option (Table Value)) (name : String) :
    (variableCourse arguments name).run params follow =
      liftM (variableValue { scope with params := params } arguments name) := by
  cases arguments with
  | some arguments => rfl
  | none =>
    rw [variableCourse, variableValue, Course.run]
    cases params.get? name <;> rfl

@[simp] theorem run_withTerm (id : String) (course : Course α) :
    (withTerm scope id course).run params follow =
      if (scope.catalog.terms.get? id).isNone then throw (.unknownTerm id)
      else course.run params follow := by
  unfold withTerm
  split <;> rfl

mutual

theorem expandInline_eq_run (arguments : Option (Table Value)) : (inline : Inline) →
    expandInline { scope with params := params } follow arguments inline =
      (inlineCourse scope arguments inline).run params follow
  | .string raw => by
    rw [expandInline, inlineCourse, Course.run]
  | .number text => by
    rw [expandInline, inlineCourse, Course.run]
  | .variable name => by
    rw [expandInline, inlineCourse, run_variableCourse]
  | .message id attr => by
    rw [expandInline, inlineCourse, Course.run]
    exact (bind_pure _).symm
  | .term id attr none => by
    rw [expandInline, inlineCourse, run_withTerm, Course.run]
    split
    · rfl
    · exact (bind_pure _).symm
  | .term id attr (some (.mk positional named)) => by
    rw [expandInline, inlineCourse, run_withTerm, Course.run_bind,
      ← expandNamed_eq_run arguments named]
    split
    · rfl
    · simp only [Course.run, bind_pure]
  | .function name (.mk positional named) => by
    rw [expandInline.eq_def, inlineCourse.eq_def]
    dsimp only
    cases formatter? name with
    | none => rfl
    | some formatter =>
      cases positional with
      | nil => rfl
      | cons first others =>
        simp [← expandInline_eq_run arguments first, ← expandNamed_eq_run arguments named]
  | .placeable expression => by
    rw [expandInline, inlineCourse, expandExpression_eq_run arguments expression]

theorem expandNamed_eq_run (arguments : Option (Table Value)) :
    (named : List (String × Inline)) →
      expandNamed { scope with params := params } follow arguments named =
        (namedCourse scope arguments named).run params follow
  | [] => by
    rw [expandNamed, namedCourse, Course.run]
  | (name, value) :: named => by
    rw [expandNamed, namedCourse]
    simp [expandInline_eq_run arguments value, expandNamed_eq_run arguments named]

theorem expandExpression_eq_run (arguments : Option (Table Value)) : (expression : Expression) →
    expandExpression { scope with params := params } follow arguments expression =
      (expressionCourse scope arguments expression).run params follow
  | .inline value => by
    rw [expandExpression, expressionCourse, expandInline_eq_run arguments value]
  | .select selector variants => by
    rw [expandExpression, expressionCourse, Course.run_bind, expandInline_eq_run arguments selector]
    congr 1
    funext value
    cases variants.findIdx? (·.isDefault) with
    | none => rfl
    | some default =>
      dsimp only
      rw [Course.run_bind, Course.run_ofExcept]
      congr 1
      funext chosen
      cases chosen with
      | some index => exact expandVariant_eq_run arguments index variants
      | none =>
        simp [expandVariants_eq_run arguments variants]

theorem expandVariant_eq_run (arguments : Option (Table Value)) :
    (index : Nat) → (variants : List Variant) →
      expandVariant { scope with params := params } follow arguments index variants =
        (variantCourse scope arguments index variants).run params follow
  | 0, [] => by
    rw [expandVariant, variantCourse, Course.run]
  | _ + 1, [] => by
    rw [expandVariant, variantCourse, Course.run]
  | 0, .mk _ _ value :: _ => by
    rw [expandVariant, variantCourse]
    simp [expandElements_eq_run arguments _ value]
  | index + 1, _ :: variants => by
    rw [expandVariant, variantCourse, expandVariant_eq_run arguments index variants]

theorem expandVariants_eq_run (arguments : Option (Table Value)) : (variants : List Variant) →
    expandVariants { scope with params := params } follow arguments variants =
      (variantsCourse scope arguments variants).run params follow
  | [] => by
    rw [expandVariants, variantsCourse, Course.run]
  | .mk _ _ value :: variants => by
    rw [expandVariants, variantsCourse]
    simp [expandElements_eq_run arguments _ value, expandVariants_eq_run arguments variants]

theorem expandElements_eq_run (arguments : Option (Table Value)) (isolate : Bool) :
    (elements : List Element) →
      expandElements { scope with params := params } follow arguments isolate elements =
        (elementsCourse scope arguments isolate elements).run params follow
  | [] => by
    rw [expandElements, elementsCourse, Course.run]
  | .text value :: elements => by
    rw [expandElements, elementsCourse]
    simp [expandElements_eq_run arguments isolate elements]
  | .placeable expression :: elements => by
    rw [expandElements, elementsCourse, Course.run]
    simp only [Course.run_bind, expandExpression_eq_run arguments expression,
      expandElements_eq_run arguments isolate elements]
    cases isolate <;> rfl

end

end

end TemplateMessages.Fluent
