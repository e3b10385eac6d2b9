import TemplateMessages.Component.Layout
import TemplateMessages.Template.Transform

set_option autoImplicit false

/-!
# Transforming a component

The template of a component is transformed with the messages of its own message blocks in front of
those of the project. The message blocks are removed when the template has a call.
-/

namespace TemplateMessages.Component

open TemplateMessages.Catalog (LocaleMessages LoadError Skipped)
open TemplateMessages.Report (Issue)
open TemplateMessages.Template
open TemplateMessages.Text
open TemplateMessages.Translation

inductive BlockError where
  | unsupportedLanguage (language : String)
  | load (error : LoadError)
  | skipped (value : Skipped)
  deriving Repr, Inhabited

def BlockError.message : BlockError → String
  | unsupportedLanguage language => "unsupported block language `" ++ language ++ "`"
  | load error => error.message
  | skipped value => value.message

def blockMessages (source : List Char) (block : Block) : LocaleMessages × List BlockError :=
  let language := (block.attribute? "lang").getD "json"
  if language ≠ "json" then ([], [.unsupportedLanguage language])
  else
    match Catalog.parseBlockMessages (block.content.slice source) with
    | .ok (messages, skipped) => (messages, skipped.map .skipped)
    | .error error => ([], [.load error])

def blockIssues (source : List Char) (lines : LineIndex) (file : String) (block : Block)
    (errors : List BlockError) : List Issue :=
  let position := sourcePosition source lines file block.span.start
  errors.map fun error => .invalidBlock position block.name error.message

def throughLineBreak (source : List Char) (span : Span) : Span :=
  match dropBytes span.stop source with
  | '\n' :: _ => ⟨span.start, span.stop + 1⟩
  | '\r' :: '\n' :: _ => ⟨span.start, span.stop + 2⟩
  | _ => span

/-- A whole component. Without a template it stays as it is. -/
def transformComponent (source : List Char) (options : Options) (translator : Translator) :
    Except TransformError Output :=
  match locateBlocks source with
  | .error location => .error (.unterminatedTemplate location)
  | .ok layout =>
    match layout.template? with
    | none => .ok ⟨String.ofList source, [], 0⟩
    | some template => do
      let lines := LineIndex.ofText source
      let blocks := (layout.named options.blockName).map fun block =>
        (block, blockMessages source block)
      let overlay :=
        blocks.foldl (fun overlay (_, messages, _) => Catalog.merge overlay messages) []
      let blockIssues := blocks.flatMap fun (block, _, errors) =>
        blockIssues source lines options.file block errors
      let context : Context := ⟨options.locale, options.fallback, overlay⟩
      let (outcome, issues) ←
        transformRegion source lines template.span options translator context
      let removals :=
        if options.removeBlock && outcome.recognized != 0 then
          blocks.map fun (block, _) => Edit.delete (throughLineBreak source block.span)
        else []
      let code := Edit.applyAll (outcome.edits ++ removals) source
      return ⟨String.ofList code, blockIssues ++ issues, outcome.translated⟩

end TemplateMessages.Component
