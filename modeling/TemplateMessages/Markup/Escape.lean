import TemplateMessages.Expression.Nesting
import TemplateMessages.Text.Search

set_option autoImplicit false

/-!
# Quotes in markup

Quotes are written as character references where the markup around them would end.
-/

namespace TemplateMessages.Markup

open TemplateMessages.Expression (Quote)
open TemplateMessages.Text (replaceChar)

def doubleQuoteReference : String := "&quot;"

def singleQuoteReference : String := "&#39;"

/-- The text with both kinds of quotes as references, so that it can stand inside or outside of an
attribute value. -/
def escapeQuotes (text : String) : String :=
  String.ofList (replaceChar '\x27' singleQuoteReference
    (replaceChar '\x22' doubleQuoteReference text.toList))

def escapeQuote (quote : Option Quote) (code : String) : String :=
  match quote with
  | some .double => String.ofList (replaceChar '\x22' doubleQuoteReference code.toList)
  | some .single => String.ofList (replaceChar '\x27' singleQuoteReference code.toList)
  | _ => code

end TemplateMessages.Markup
