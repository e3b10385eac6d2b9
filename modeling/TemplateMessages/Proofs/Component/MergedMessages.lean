import TemplateMessages.Proofs.Catalog.Merging
import TemplateMessages.Proofs.Component.OnMissing

set_option autoImplicit false

/-!
# Message blocks as part of the catalog

A component with message blocks is transformed as one whose blocks hold no messages, by a catalog
into which the messages of its blocks have been merged.
-/

namespace TemplateMessages.Component

open TemplateMessages.Catalog (LocaleMessages messageOf? Overlays)
open TemplateMessages.Call (FunctionNames)
open TemplateMessages.Template
open TemplateMessages.Text
open TemplateMessages.Translation

variable {source : List Char} {options : Options}

end TemplateMessages.Component
