import TemplateMessages.Catalog.Messages

set_option autoImplicit false

/-!
# Locales of a translation
-/

namespace TemplateMessages.Translation

open TemplateMessages.Catalog (LocaleMessages)

structure Context where
  locale : String
  fallback : String
  overlay : LocaleMessages
  deriving Repr, Inhabited

/-- The locales to try in order: the one that the call asks for, or else the current one, and then
the fallback. -/
def Context.localeChain (context : Context) (asked : Option String) : List String :=
  let first := asked.getD context.locale
  if context.fallback = "" ∨ context.fallback = first then [first] else [first, context.fallback]

structure Replacement where
  code : String
  /-- What is around the call may become plain text, if it turns out to be constant. -/
  mayCollapse : Bool
  deriving DecidableEq, Repr, Inhabited

end TemplateMessages.Translation
