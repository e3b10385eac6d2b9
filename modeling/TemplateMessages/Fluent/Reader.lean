import TemplateMessages.Fluent.Line

set_option autoImplicit false

/-!
# Reading Fluent patterns

Patterns hold placeables, and the variants of a selector hold patterns again. The rest that each
reader gives is shorter than its text, so reading ends.
-/

namespace TemplateMessages.Fluent

open TemplateMessages.Text (Rest Shorter)

/-- The name of an argument that a message reference turns out to be. -/
def argumentName? : Inline → Option String
  | .message id none => some id
  | _ => none

def selectorFault? : Inline → Option Fault
  | .message _ none => some .messageReferenceAsSelector
  | .message _ (some _) => some .messageAttributeAsSelector
  | .term _ none _ => some .termReferenceAsSelector
  | .term _ (some _) _ => none
  | .placeable _ => some .expectedSimpleSelector
  | _ => none

def isTermAttribute : Inline → Bool
  | .term _ (some _) _ => true
  | _ => false

def readVariantKey (text : List Char) : Reading VariantKey text :=
  let ⟨start, h⟩ := skipBlank text
  let key : Reading VariantKey start :=
    match start with
    | [] => (readIdentifier []).map fun (name, rest) => (.name name, rest)
    | c :: cs =>
      if c.isDigit ∨ c = '-' then
        (readNumber (c :: cs)).map fun (number, rest) => (.number number, rest)
      else (readIdentifier (c :: cs)).map fun (name, rest) => (.name name, rest)
  match key with
  | .error stop => .error stop
  | .ok (key, ⟨rest, h'⟩) =>
    let ⟨close, h''⟩ := skipBlank rest
    match expect ']' close with
    | .error stop => .error stop
    | .ok (_, after) => .ok (key, ((after.within h'').inside h').within h)

def skipComma (text : List Char) : Rest text :=
  let ⟨comma, h⟩ := skipBlank text
  let (_, ⟨next, h'⟩) := skipOptional ',' comma
  ((skipBlank next).within h').within h

mutual

def readPattern (text : List Char) : Following (Option Pattern) text :=
  let ⟨line, h⟩ := skipSpaces text
  match lineBreak? line with
  | some ⟨next, h'⟩ =>
    let ⟨start, h''⟩ := skipBlankLines next
    match readPieces .newLine none [] start with
    | .error stop => .error stop
    | .ok (pattern, rest) =>
      .ok (pattern, (((rest.within h'').inside h').within h).toRest)
  | none =>
    match readPieces .firstLine none [] line with
    | .error stop => .error stop
    | .ok (pattern, rest) => .ok (pattern, rest.within h)
termination_by 8 * text.length + 7
decreasing_by all_goals omega

def readPieces (start : RunStart) (common : Option Nat) (pieces : List Piece) (text : List Char) :
    Following (Option Pattern) text :=
  match text with
  | [] => .ok (patternOf common pieces, .whole [])
  | c :: cs =>
    if hopen : c = '{' then
      match readPlaceable cs with
      | .error stop => .error stop
      | .ok (expression, ⟨rest, h⟩) =>
        let common := if start = .newLine then some 0 else common
        match readPieces .insideLine common (pieces ++ [.placeable expression]) rest with
        | .error stop => .error stop
        | .ok (pattern, after) => .ok (pattern, ((after.inside h).past c).toRest)
    else
      let indent := if start = .newLine then ((c :: cs).takeWhile isSpace).length else 0
      let line := (c :: cs).drop indent
      if start = .newLine ∧ !lineContinues indent line then
        .ok (patternOf common pieces, if line.isEmpty then .empty (c :: cs) else .whole (c :: cs))
      else
        match hrun : readRun line with
        | .error stop => .error stop
        | .ok (run, ⟨rest, _⟩) =>
          have hrest : rest.length < (c :: cs).length := length_lt_of_readLine hrun hopen
          let (common, more) := pieceOf start indent common run
          match readPieces run.runEnd.next common (pieces ++ more) rest with
          | .error stop => .error stop
          | .ok (pattern, after) => .ok (pattern, (after.inside hrest).toRest)
termination_by 8 * text.length + 6
decreasing_by all_goals simp only [List.length_cons] at *; omega

def readPlaceable (text : List Char) : Reading Expression text :=
  let ⟨start, h⟩ := skipBlank text
  match readExpression start with
  | .error stop => .error stop
  | .ok (expression, ⟨rest, h'⟩) =>
    let ⟨line, h''⟩ := skipSpaces rest
    match expect '}' line with
    | .error stop => .error stop
    | .ok (_, after) => .ok (expression, ((after.within h'').inside h').within h)
termination_by 8 * text.length + 5
decreasing_by all_goals omega

def readExpression (text : List Char) : Reading Expression text :=
  match readInline false text with
  | .error stop => .error stop
  | .ok (value, ⟨rest, h⟩) =>
    let ⟨start, h'⟩ := skipBlank rest
    match behindArrow? start with
    | some ⟨variants, harrow⟩ =>
      match selectorFault? value with
      | some fault => .error ⟨fault, start⟩
      | none =>
        let ⟨line, h''⟩ := skipSpaces variants
        match lineBreak? line with
        | none => .error ⟨.expectedCharRange .lineBreak, line⟩
        | some ⟨next, hbreak⟩ =>
          let ⟨first, hfirst⟩ := skipBlank next
          match readVariants false [] first with
          | .error stop => .error stop
          | .ok (variants, after) =>
            let afterArrow := ((after.within hfirst).inside hbreak).within h''
            .ok (.select value variants, ((afterArrow.inside harrow).within h').inside h)
    | none =>
      if isTermAttribute value then .error ⟨.termAttributeAsPlaceable, start⟩
      else .ok (.inline value, Rest.inside ⟨start, h'⟩ h)
termination_by 8 * text.length + 4
decreasing_by all_goals omega

def readVariants (hasDefault : Bool) (variants : List Variant) (text : List Char) :
    Following (List Variant) text :=
  let (isDefault, ⟨start, h⟩) := skipOptional '*' text
  if isDefault && hasDefault then .error ⟨.multipleDefaultVariants, start⟩
  else
    let hasDefault := hasDefault || isDefault
    match behind? '[' start with
    | some ⟨afterBracket, hbracket⟩ =>
      match readVariantKey afterBracket with
      | .error stop => .error stop
      | .ok (key, ⟨afterKey, h'⟩) =>
        match readPattern afterKey with
        | .error stop => .error stop
        | .ok (none, ⟨rest, _⟩) => .error ⟨.missingValue, rest⟩
        | .ok (some value, ⟨rest, h''⟩) =>
          let ⟨next, hnext⟩ := skipBlank rest
          match readVariants hasDefault (variants ++ [.mk key isDefault value]) next with
          | .error stop => .error stop
          | .ok (all, after) =>
            let afterOpening := ((after.within hnext).within h'').inside h'
            .ok (all, ((afterOpening.inside hbracket).within h).toRest)
    | none =>
      if hasDefault then .ok (variants, ⟨start, h⟩)
      else .error ⟨.missingDefaultVariant, start⟩
termination_by 8 * text.length + 3
decreasing_by all_goals omega

/-- A literal, a reference, a call or a nested placeable. Where only a literal is allowed, a
reference to a message or a call still passes. -/
def readInline (onlyLiteral : Bool) (text : List Char) : Reading Inline text :=
  let fault : Fault := if onlyLiteral then .expectedLiteral else .expectedInlineExpression
  match text with
  | [] => .error ⟨fault, []⟩
  | c :: cs =>
    if c = '\x22' then
      match readStringText cs with
      | .error stop => .error stop
      | .ok (raw, ⟨rest, h⟩) =>
        match expect '\x22' rest with
        | .error stop => .error stop
        | .ok (_, after) => .ok (.string (String.ofList raw), (after.within h).past c)
    else if c.isDigit then (readNumber (c :: cs)).map fun (number, rest) => (.number number, rest)
    else if c = '-' ∧ !onlyLiteral then
      match readIdentifier cs with
      | .error _ => (readNumber (c :: cs)).map fun (number, rest) => (.number number, rest)
      | .ok (id, ⟨afterId, h⟩) =>
        match readAttributeAccess afterId with
        | .error stop => .error stop
        | .ok (attr, ⟨afterAttr, h'⟩) =>
          match readArguments afterAttr with
          | .error stop => .error stop
          | .ok (arguments, rest) =>
            .ok (.term id attr arguments, ((rest.within h').inside h).past c)
    else if c = '$' ∧ !onlyLiteral then
      match readIdentifier cs with
      | .error stop => .error stop
      | .ok (name, rest) => .ok (.variable name, rest.past c)
    else if c.isAlpha then
      match readIdentifier (c :: cs) with
      | .error stop => .error stop
      | .ok (id, ⟨afterId, h⟩) =>
        match readArguments afterId with
        | .error stop => .error stop
        | .ok (some arguments, rest) =>
          if isCallee id then .ok (.function id arguments, rest.inside h)
          else .error ⟨.forbiddenCallee, rest.val⟩
        | .ok (none, ⟨afterBlank, h'⟩) =>
          match readAttributeAccess afterBlank with
          | .error stop => .error stop
          | .ok (attr, rest) => .ok (.message id attr, (rest.within h').inside h)
    else if c = '{' ∧ !onlyLiteral then
      match readPlaceable cs with
      | .error stop => .error stop
      | .ok (expression, rest) => .ok (.placeable expression, rest.past c)
    else .error ⟨fault, c :: cs⟩
termination_by 8 * text.length + 1
decreasing_by all_goals simp only [List.length_cons] at *; omega

/-- The arguments of a call with their parentheses; nothing when there are none. The blanks in front
are skipped in both cases. -/
def readArguments (text : List Char) : Following (Option Arguments) text :=
  let ⟨start, h⟩ := skipBlank text
  match behind? '(' start with
  | some ⟨inside, hopen⟩ =>
    let ⟨first, h'⟩ := skipBlank inside
    match readArgumentList [] [] first with
    | .error stop => .error stop
    | .ok (arguments, rest) =>
      .ok (some arguments, (((rest.within h').inside hopen).within h).toRest)
  | none => .ok (none, ⟨start, h⟩)
termination_by 8 * text.length + 3
decreasing_by all_goals omega

def readArgumentList (positional : List Inline) (named : List (String × Inline))
    (text : List Char) : Reading Arguments text :=
  match text with
  | [] => .error ⟨.expectedToken ')', []⟩
  | c :: cs =>
    if c = ')' then .ok (.mk positional named, .tail c cs)
    else
      match readInline false (c :: cs) with
      | .error stop => .error stop
      | .ok (value, ⟨rest, h⟩) =>
        let ⟨afterValue, h'⟩ :=
          (match argumentName? value with
          | some _ => skipBlank rest
          | none => .whole rest : Rest rest)
        match argumentName? value, behind? ':' afterValue with
        | some name, some ⟨afterColon, hcolon⟩ =>
          if (named.find? (·.1 == name)).isSome then
            .error ⟨.duplicatedNamedArgument name, afterValue⟩
          else
            let ⟨start, h''⟩ := skipBlank afterColon
            match readInline true start with
            | .error stop => .error stop
            | .ok (literal, ⟨afterLiteral, hliteral⟩) =>
              let ⟨next, hnext⟩ := skipComma afterLiteral
              match readArgumentList positional (named ++ [(name, literal)]) next with
              | .error stop => .error stop
              | .ok (all, after) =>
                let afterName := ((after.within hnext).inside hliteral).within h''
                .ok (all, ((afterName.inside hcolon).within h').inside h)
        | _, _ =>
          if !named.isEmpty then .error ⟨.positionalAfterNamed, afterValue⟩
          else
            let ⟨next, hnext⟩ := skipComma afterValue
            match readArgumentList (positional ++ [value]) named next with
            | .error stop => .error stop
            | .ok (all, after) => .ok (all, ((after.within hnext).within h').inside h)
termination_by 8 * text.length + 2
decreasing_by all_goals omega

end

end TemplateMessages.Fluent
