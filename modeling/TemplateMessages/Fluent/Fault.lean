import TemplateMessages.Text.Shown

set_option autoImplicit false

/-!
# Faults of Fluent resources

Why an entry cannot be read, and the words for it.
-/

namespace TemplateMessages.Fluent

/-- What a reader expects to find one of. -/
inductive CharRange where
  | letter
  | digit
  | lineBreak
  deriving DecidableEq, Repr, Inhabited

def CharRange.text : CharRange → String
  | letter => "a-zA-Z"
  | digit => "0-9"
  | lineBreak => "\n | \r\n"

inductive Fault where
  | expectedToken (token : Char)
  | expectedCharRange (range : CharRange)
  | expectedMessageField (id : String)
  | expectedTermField (id : String)
  | forbiddenCallee
  | missingDefaultVariant
  | missingValue
  | multipleDefaultVariants
  | messageReferenceAsSelector
  | termReferenceAsSelector
  | messageAttributeAsSelector
  | termAttributeAsPlaceable
  | unterminatedString
  | positionalAfterNamed
  | duplicatedNamedArgument (name : String)
  | unknownEscape (byte : Nat)
  | invalidUnicodeEscape (text : String)
  | unbalancedClosingBrace
  | expectedInlineExpression
  | expectedSimpleSelector
  | expectedLiteral
  deriving DecidableEq, Repr, Inhabited

def Fault.message : Fault → String
  | expectedToken token => "ExpectedToken('" ++ token.toString ++ "')"
  | expectedCharRange range => "ExpectedCharRange \x7b range: " ++ Text.shown range.text ++ " \x7d"
  | expectedMessageField id => "ExpectedMessageField \x7b entry_id: " ++ Text.shown id ++ " \x7d"
  | expectedTermField id => "ExpectedTermField \x7b entry_id: " ++ Text.shown id ++ " \x7d"
  | forbiddenCallee => "ForbiddenCallee"
  | missingDefaultVariant => "MissingDefaultVariant"
  | missingValue => "MissingValue"
  | multipleDefaultVariants => "MultipleDefaultVariants"
  | messageReferenceAsSelector => "MessageReferenceAsSelector"
  | termReferenceAsSelector => "TermReferenceAsSelector"
  | messageAttributeAsSelector => "MessageAttributeAsSelector"
  | termAttributeAsPlaceable => "TermAttributeAsPlaceable"
  | unterminatedString => "UnterminatedStringLiteral"
  | positionalAfterNamed => "PositionalArgumentFollowsNamed"
  | duplicatedNamedArgument name => "DuplicatedNamedArgument(" ++ Text.shown name ++ ")"
  | unknownEscape byte => "UnknownEscapeSequence(" ++ Text.shown (toString byte) ++ ")"
  | invalidUnicodeEscape text => "InvalidUnicodeEscapeSequence(" ++ Text.shown text ++ ")"
  | unbalancedClosingBrace => "UnbalancedClosingBrace"
  | expectedInlineExpression => "ExpectedInlineExpression"
  | expectedSimpleSelector => "ExpectedSimpleExpressionAsSelector"
  | expectedLiteral => "ExpectedLiteral"

end TemplateMessages.Fluent
