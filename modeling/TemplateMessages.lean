import TemplateMessages.Call.Arguments
import TemplateMessages.Call.Candidate
import TemplateMessages.Catalog.Messages
import TemplateMessages.Catalog.Template
import TemplateMessages.Catalog.Translation
import TemplateMessages.Command.Arguments
import TemplateMessages.Command.Outcome
import TemplateMessages.Command.Reach
import TemplateMessages.Command.Run
import TemplateMessages.Command.Transform
import TemplateMessages.Component.Layout
import TemplateMessages.Component.Transform
import TemplateMessages.Expression.Entries
import TemplateMessages.Expression.Literal
import TemplateMessages.Expression.Nesting
import TemplateMessages.Expression.Quoted
import TemplateMessages.Expression.Reader
import TemplateMessages.Files.Path
import TemplateMessages.Files.Pattern
import TemplateMessages.Files.Search
import TemplateMessages.Files.Tree
import TemplateMessages.Fluent.Escape
import TemplateMessages.Fluent.Expansion
import TemplateMessages.Fluent.Fault
import TemplateMessages.Fluent.Line
import TemplateMessages.Fluent.Reader
import TemplateMessages.Fluent.Resource
import TemplateMessages.Fluent.Selection
import TemplateMessages.Fluent.Syntax
import TemplateMessages.Fluent.Token
import TemplateMessages.Fluent.Translation
import TemplateMessages.Fluent.Value
import TemplateMessages.Json.Expected
import TemplateMessages.Json.Reader
import TemplateMessages.Json.Skip
import TemplateMessages.Json.Value
import TemplateMessages.Main
import TemplateMessages.Markup.Attribute
import TemplateMessages.Markup.Escape
import TemplateMessages.Markup.Name
import TemplateMessages.Markup.Tag
import TemplateMessages.Markup.Token
import TemplateMessages.Number.Binary64
import TemplateMessages.Number.Decimal
import TemplateMessages.Plural.Languages
import TemplateMessages.Plural.Locale
import TemplateMessages.Plural.Rules
import TemplateMessages.Project.Config
import TemplateMessages.Project.Messages
import TemplateMessages.Project.Scan
import TemplateMessages.Project.Settings
import TemplateMessages.Proofs.Call.ArgumentParts
import TemplateMessages.Proofs.Call.CandidateForm
import TemplateMessages.Proofs.Call.CandidateSpans
import TemplateMessages.Proofs.Call.HeadParts
import TemplateMessages.Proofs.Call.MissedCalls
import TemplateMessages.Proofs.Call.Search
import TemplateMessages.Proofs.Catalog.Leaves
import TemplateMessages.Proofs.Catalog.Merging
import TemplateMessages.Proofs.Catalog.ReplacementCode
import TemplateMessages.Proofs.Catalog.RuntimeText
import TemplateMessages.Proofs.Command.InPlace
import TemplateMessages.Proofs.Command.Mirror
import TemplateMessages.Proofs.Command.Runs
import TemplateMessages.Proofs.Command.SelectedFiles
import TemplateMessages.Proofs.Command.Verbosity
import TemplateMessages.Proofs.Component.Accounting
import TemplateMessages.Proofs.Component.EntryPoints
import TemplateMessages.Proofs.Component.FirstMissing
import TemplateMessages.Proofs.Component.Frame
import TemplateMessages.Proofs.Component.IssuePositions
import TemplateMessages.Proofs.Component.MergedMessages
import TemplateMessages.Proofs.Component.MissingCalls
import TemplateMessages.Proofs.Component.OnMissing
import TemplateMessages.Proofs.Component.TemplateDepth
import TemplateMessages.Proofs.Component.TemplateEnd
import TemplateMessages.Proofs.Component.TemplateTags
import TemplateMessages.Proofs.Component.ValidSpans
import TemplateMessages.Proofs.Component.VisibleTags
import TemplateMessages.Proofs.Component.Walk
import TemplateMessages.Proofs.Component.WellFormedLayout
import TemplateMessages.Proofs.Expression.BalancedText
import TemplateMessages.Proofs.Expression.Cursor
import TemplateMessages.Proofs.Expression.CursorRuns
import TemplateMessages.Proofs.Expression.CursorSteps
import TemplateMessages.Proofs.Expression.EntryTexts
import TemplateMessages.Proofs.Expression.Feeding
import TemplateMessages.Proofs.Expression.Passing
import TemplateMessages.Proofs.Expression.Phrase
import TemplateMessages.Proofs.Expression.PhraseOf
import TemplateMessages.Proofs.Expression.PhraseReading
import TemplateMessages.Proofs.Expression.PlainName
import TemplateMessages.Proofs.Expression.QuotedReading
import TemplateMessages.Proofs.Expression.ReaderOutcome
import TemplateMessages.Proofs.Expression.ReaderResults
import TemplateMessages.Proofs.Expression.Splitting
import TemplateMessages.Proofs.Expression.Token
import TemplateMessages.Proofs.Files.Entries
import TemplateMessages.Proofs.Files.PathTexts
import TemplateMessages.Proofs.Files.Places
import TemplateMessages.Proofs.Fluent.AbsentReferences
import TemplateMessages.Proofs.Fluent.ConstantExpansion
import TemplateMessages.Proofs.Fluent.Course
import TemplateMessages.Proofs.Fluent.Cycles
import TemplateMessages.Proofs.Fluent.ExpandedValues
import TemplateMessages.Proofs.Fluent.Fallback
import TemplateMessages.Proofs.Fluent.MessageValue
import TemplateMessages.Proofs.Fluent.MissingMessages
import TemplateMessages.Proofs.Fluent.PatternText
import TemplateMessages.Proofs.Fluent.PlainNames
import TemplateMessages.Proofs.Fluent.PlainResources
import TemplateMessages.Proofs.Fluent.ReferenceGraph
import TemplateMessages.Proofs.Fluent.ReferenceNames
import TemplateMessages.Proofs.Fluent.Runs
import TemplateMessages.Proofs.Fluent.RuntimeText
import TemplateMessages.Proofs.Fluent.SelectionAgreement
import TemplateMessages.Proofs.Fluent.SelectorCode
import TemplateMessages.Proofs.Fluent.Specialization
import TemplateMessages.Proofs.Fluent.TermIsolation
import TemplateMessages.Proofs.Fluent.ValueCode
import TemplateMessages.Proofs.Lists
import TemplateMessages.Proofs.Markup.AttributeNames
import TemplateMessages.Proofs.Markup.AttributeReading
import TemplateMessages.Proofs.Markup.Enclosed
import TemplateMessages.Proofs.Markup.EnclosedScan
import TemplateMessages.Proofs.Markup.EndTags
import TemplateMessages.Proofs.Markup.Equations
import TemplateMessages.Proofs.Markup.Inheritance
import TemplateMessages.Proofs.Markup.LexedTags
import TemplateMessages.Proofs.Markup.Locality
import TemplateMessages.Proofs.Markup.Reads
import TemplateMessages.Proofs.Markup.References
import TemplateMessages.Proofs.Markup.Replay
import TemplateMessages.Proofs.Markup.TagReading
import TemplateMessages.Proofs.Markup.TagSpans
import TemplateMessages.Proofs.Markup.TextRuns
import TemplateMessages.Proofs.Markup.Tiling
import TemplateMessages.Proofs.Number.Text
import TemplateMessages.Proofs.Project.IgnoreAnchors
import TemplateMessages.Proofs.Project.ScannedFiles
import TemplateMessages.Proofs.Script.Constant
import TemplateMessages.Proofs.Script.ConstantReading
import TemplateMessages.Proofs.Script.Expression
import TemplateMessages.Proofs.Script.Misread
import TemplateMessages.Proofs.Script.Outline
import TemplateMessages.Proofs.Script.Reading
import TemplateMessages.Proofs.Script.StringLiteral
import TemplateMessages.Proofs.Script.StringValue
import TemplateMessages.Proofs.Script.Sum
import TemplateMessages.Proofs.Script.SumReading
import TemplateMessages.Proofs.Table
import TemplateMessages.Proofs.Template.Accounting
import TemplateMessages.Proofs.Template.AttributeEdits
import TemplateMessages.Proofs.Template.AttributeValues
import TemplateMessages.Proofs.Template.CollapsedAttribute
import TemplateMessages.Proofs.Template.Enclosed
import TemplateMessages.Proofs.Template.EnclosedSites
import TemplateMessages.Proofs.Template.Extent
import TemplateMessages.Proofs.Template.Inert
import TemplateMessages.Proofs.Template.Parts
import TemplateMessages.Proofs.Template.Renewal
import TemplateMessages.Proofs.Template.Replaceable
import TemplateMessages.Proofs.Template.Rescan
import TemplateMessages.Proofs.Template.SiteSpans
import TemplateMessages.Proofs.Template.SoleCall
import TemplateMessages.Proofs.Template.StoppingRun
import TemplateMessages.Proofs.Template.ValidSpans
import TemplateMessages.Proofs.Text.Characters
import TemplateMessages.Proofs.Text.Composition
import TemplateMessages.Proofs.Text.Locations
import TemplateMessages.Proofs.Text.Placement
import TemplateMessages.Proofs.Text.Rewriting
import TemplateMessages.Proofs.Text.Splicing
import TemplateMessages.Proofs.Text.Validity
import TemplateMessages.Proofs.Translation.MissingKeys
import TemplateMessages.Proofs.Translation.Operands
import TemplateMessages.Report.Display
import TemplateMessages.Report.Issue
import TemplateMessages.Table
import TemplateMessages.Template.Resolution
import TemplateMessages.Template.Site
import TemplateMessages.Template.Transform
import TemplateMessages.Text.Blank
import TemplateMessages.Text.Columns
import TemplateMessages.Text.Edit
import TemplateMessages.Text.Emoji
import TemplateMessages.Text.Invisible
import TemplateMessages.Text.Ligature
import TemplateMessages.Text.Lines
import TemplateMessages.Text.Rest
import TemplateMessages.Text.Search
import TemplateMessages.Text.Shown
import TemplateMessages.Text.Span
import TemplateMessages.Text.Width
import TemplateMessages.Text.Word
import TemplateMessages.Translation.Context
import TemplateMessages.Translation.Error
import TemplateMessages.Translation.Translator
