import TemplateMessages.Proofs.Call.HeadParts
import TemplateMessages.Proofs.Component.Accounting
import TemplateMessages.Proofs.Component.OnMissing
import TemplateMessages.Proofs.Text.Locations

set_option autoImplicit false

/-!
# Issues point at their calls

The issue for a call without a translation has the position of that call. Behind the column of the
position, the line that is shown with it goes on with the name of the function.
-/

namespace TemplateMessages.Component

open TemplateMessages.Call (Candidate FunctionNames IsName not_mem_of_isName)
open TemplateMessages.Report (Issue SourcePosition)
open TemplateMessages.Template
open TemplateMessages.Text
open TemplateMessages.Translation

structure PointsAt (source : List Char) (file : String) (call : Candidate)
    (position : SourcePosition) : Prop where
  position_eq : position = sourcePosition source (LineIndex.ofText source) file call.span.start
  named : call.name.toList <+: call.content.toList
  starts : call.name.toList <+: position.line.toList.drop (position.location.column - 1)

def Located (source : List Char) (file : String)
    (translate : Candidate → Except TranslationError Replacement) (calls : List Candidate)
    (issues : List Issue) : Prop :=
  ∀ position expression error, Issue.skippedTranslation position expression error ∈ issues →
    ∃ call ∈ calls, translate call = .error error ∧ call.content = expression ∧
      PointsAt source file call position

variable {source chars : List Char} {file : String} {names : FunctionNames} {region : Span}
  {call : Candidate} {options : Options} {translator : Translator} {output : Output}

theorem prefix_rdropWhile {p : Char → Bool} {front : List Char}
    (h : ∀ c ∈ front.getLast?, p c = false) (rest : List Char) :
    front <+: (front ++ rest).rdropWhile p := by
  induction rest using List.reverseRecOn with
  | nil =>
    have hsame : front.rdropWhile p = front := by
      refine List.rdropWhile_eq_self_iff.mpr fun hne => ?_
      rw [h _ (List.getLast?_eq_some_getLast hne)]
      exact Bool.false_ne_true
    exact ⟨[], by rw [List.append_nil, hsame]⟩
  | append_singleton rest c ih =>
    rw [← List.append_assoc, List.rdropWhile_concat]
    split
    · exact ih
    · exact ⟨rest ++ [c], (List.append_assoc ..).symm⟩

theorem name_prefix_line {name : List Char} (h : IsName name) (front rest : List Char) :
    lastLine front ++ name <+:
      (lastLine front ++ firstLine (name ++ rest)).rdropWhile (· = '\r') := by
  have hline : ∀ c ∈ name, decide (c ≠ '\n') = true := by
    rintro c hc
    refine decide_eq_true ?_
    rintro rfl
    exact not_mem_of_isName h (by decide) hc
  rw [firstLine, List.takeWhile_append_of_pos hline, ← List.append_assoc]
  refine prefix_rdropWhile (fun c hc => ?_) _
  rw [List.getLast?_append_of_ne_nil _ h.1] at hc
  rw [decide_eq_false_iff_not]
  rintro rfl
  exact not_mem_of_isName h (by decide) (List.mem_of_getLast? hc)

theorem pointsAt_of_mem_callsOf (hnames : ∀ entry ∈ names, IsName entry.1.toList)
    (hregion : Covers 0 source region chars) (h : call ∈ callsOf source region names)
    (file : String) :
    PointsAt source file call
      (sourcePosition source (LineIndex.ofText source) file call.span.start) := by
  obtain ⟨site, -, hcall⟩ := mem_callsOf.mp h
  have hround : ∀ entry ∈ names, '(' ∉ entry.1.toList := fun entry hentry =>
    not_mem_of_isName (hnames entry hentry) (by decide)
  have hcallIn := Call.callIn_of_mem_candidates hround hcall
  obtain ⟨gap, -, hcontent⟩ := hcallIn.written
  rw [List.append_assoc] at hcontent
  obtain ⟨⟨front, rest, hsource, hspan⟩, -⟩ := covers_of_mem_callsOf hregion h
  have hstart : call.span.start = byteLength front := by
    rw [hspan, Nat.zero_add]
  rw [hcontent, List.append_assoc, List.append_assoc call.name.toList] at hsource
  refine ⟨rfl, ⟨_, hcontent.symm⟩, ?_⟩
  have hname : IsName call.name.toList := hnames _ hcallIn.named
  obtain ⟨behind, hline⟩ :=
    name_prefix_line hname front (gap ++ '(' :: (call.arguments ++ [')']) ++ rest)
  have htext : (LineIndex.ofText source).lineText source (front.count '\n' + 1) =
      lastLine front ++ (call.name.toList ++ behind) := by
    rw [← hsource, LineIndex.lineText_eq_lines, ← hline, List.append_assoc]
  have hlocation : (LineIndex.ofText source).location source call.span.start =
      ⟨front.count '\n' + 1, (lastLine front).length + 1⟩ := by
    rw [hstart, ← hsource, LineIndex.location_eq]
  simp only [sourcePosition, hlocation, htext, String.toList_ofList, Nat.add_sub_cancel,
    List.drop_left]
  exact List.prefix_append _ _

theorem located_of_failedCalls (hnames : ∀ entry ∈ names, IsName entry.1.toList)
    (hregion : Covers 0 source region chars)
    {translate : Candidate → Except TranslationError Replacement} {issues : List Issue}
    (h : ∀ issue ∈ issues, isSkipped issue = true →
      issue ∈ (failedCalls translate (callsOf source region names)).map fun skipped =>
        (skippedIssue source (LineIndex.ofText source) file skipped).2) :
    Located source file translate (callsOf source region names) issues := by
  intro position expression error hissue
  obtain ⟨⟨call, error'⟩, hfailed, heq⟩ := List.mem_map.mp (h _ hissue rfl)
  obtain ⟨hcall, herror⟩ := mem_failedCalls.mp hfailed
  cases heq
  exact ⟨call, hcall, herror, rfl, pointsAt_of_mem_callsOf hnames hregion hcall file⟩

theorem located_transformTemplate (hnames : ∀ entry ∈ translator.functions, IsName entry.1.toList)
    (h : transformTemplate source options translator = .ok output) :
    Located source options.file (translator.translate ⟨options.locale, options.fallback, []⟩)
      (callsOf source ⟨0, byteLength source⟩ translator.functions) output.issues := by
  rw [transformTemplate_eq] at h
  cases hregion : transformRegion source (LineIndex.ofText source) ⟨0, byteLength source⟩ options
      translator ⟨options.locale, options.fallback, []⟩ with
  | error error =>
    rw [hregion] at h
    cases h
  | ok result =>
    obtain ⟨outcome, issues⟩ := result
    obtain ⟨rfl, hissues⟩ := outcome_of_transformRegion hregion
    rw [hregion] at h
    obtain rfl := Except.ok.inj h
    rw [skipped_resolveRegion] at hissues
    have hwhole : Covers 0 source ⟨0, byteLength source⟩ source := by
      simpa using Covers.whole 0 source
    exact located_of_failedCalls hnames hwhole fun issue hissue _ => hissues.mem_iff.mp hissue

theorem located_transformComponent
    (hnames : ∀ entry ∈ translator.functions, IsName entry.1.toList)
    (h : transformComponent source options translator = .ok output) :
    ∃ layout, locateBlocks source = .ok layout ∧
      Located source options.file (translator.translate (contextOf source options layout))
        (componentCalls source layout translator.functions) output.issues := by
  obtain ⟨layout, hlayout, -, -, hissues⟩ := output_accounted h
  refine ⟨layout, hlayout, ?_⟩
  have hmem : ∀ issue ∈ output.issues, isSkipped issue = true → issue ∈ (failedCalls
      (translator.translate (contextOf source options layout))
      (componentCalls source layout translator.functions)).map fun skipped =>
        (skippedIssue source (LineIndex.ofText source) options.file skipped).2 :=
    fun issue hissue hskipped => hissues.mem_iff.mp (List.mem_filter.mpr ⟨hissue, hskipped⟩)
  unfold componentCalls at hmem ⊢
  cases htemplate : layout.template? with
  | none =>
    rw [htemplate] at hmem
    intro position expression error hissue
    exact absurd (hmem _ hissue rfl) List.not_mem_nil
  | some template =>
    rw [htemplate] at hmem
    obtain ⟨chars, hregion⟩ := covers_template hlayout htemplate
    exact located_of_failedCalls hnames hregion hmem

/-- The location of a position counts the line breaks in front of it, which is the line that a
binary search comes to, and the characters behind the last of them; the text of the line is what
stands between two line breaks, without the carriage returns at its end. So where the functions are
called by names, each issue for a missing translation has the position of its call, and behind the
column its line goes on with the name of the function. -/
theorem skippedCalls_located (source : List Char) :
    (∀ front rest, front ++ rest = source →
      let lines := LineIndex.ofText source
      lines.location source (byteLength front) =
          ⟨front.count '\n' + 1, (lastLine front).length + 1⟩ ∧
        lines.lineText source (front.count '\n' + 1) =
          (lastLine front ++ firstLine rest).rdropWhile (· = '\r') ∧
        ∀ answer, lines.Finds (byteLength front) answer →
          LineIndex.lineOf answer = front.count '\n' + 1) ∧
    ∀ (options : Options) (translator : Translator) (output : Output),
      (∀ entry ∈ translator.functions, IsName entry.1.toList) →
      (transformTemplate source options translator = .ok output →
        Located source options.file (translator.translate ⟨options.locale, options.fallback, []⟩)
          (callsOf source ⟨0, byteLength source⟩ translator.functions) output.issues) ∧
      (transformComponent source options translator = .ok output →
        ∃ layout, locateBlocks source = .ok layout ∧
          Located source options.file (translator.translate (contextOf source options layout))
            (componentCalls source layout translator.functions) output.issues) := by
  constructor
  · rintro front rest rfl
    refine ⟨LineIndex.location_eq front rest, LineIndex.lineText_eq_lines front rest, ?_⟩
    intro answer hfinds
    rw [← hfinds.line_eq, LineIndex.location_eq]
  · intro options translator output hnames
    exact ⟨located_transformTemplate hnames, located_transformComponent hnames⟩

/-- A call on a second line, behind a letter of three bytes and in front of a carriage return. -/
def onSecondLine : List Char :=
  "<p>é\r\n日 \x7b\x7b t('x') \x7d\x7d\r\n</p>".toList

def withoutMessages : Translator :=
  ⟨.catalog [], [("t", .translate)]⟩

theorem skippedCalls_located_onSecondLine :
    (∀ entry ∈ withoutMessages.functions, IsName entry.1.toList) ∧
    ∃ output, transformTemplate onSecondLine ⟨"en", "", "i18n", true, .skip, "a"⟩ withoutMessages =
        .ok output ∧
      output.issues = [.skippedTranslation
        ⟨"a", ⟨2, 6⟩, "日 \x7b\x7b t('x') \x7d\x7d"⟩ "t('x')" (.unknownKey "x" "en")] ∧
      ∃ call, call.content = "t('x')" ∧ PointsAt onSecondLine "a" call
        ⟨"a", ⟨2, 6⟩, "日 \x7b\x7b t('x') \x7d\x7d"⟩ := by
  have hnames : ∀ entry ∈ withoutMessages.functions, IsName entry.1.toList :=
    List.forall_mem_singleton.mpr (Call.isName_of_isIdentifier (by decide))
  refine ⟨hnames, ?_⟩
  have hissues : (transformTemplate onSecondLine ⟨"en", "", "i18n", true, .skip, "a"⟩
      withoutMessages).toOption.map Output.issues = some [.skippedTranslation
        ⟨"a", ⟨2, 6⟩, "日 \x7b\x7b t('x') \x7d\x7d"⟩ "t('x')" (.unknownKey "x" "en")] := by
    decide +kernel
  cases hresult : transformTemplate onSecondLine ⟨"en", "", "i18n", true, .skip, "a"⟩
      withoutMessages with
  | error error =>
    rw [hresult] at hissues
    cases hissues
  | ok output =>
    rw [hresult] at hissues
    have hissues := Option.some.inj hissues
    obtain ⟨call, -, -, hcontent, hpoints⟩ :=
      ((skippedCalls_located onSecondLine).2 _ _ output hnames).1 hresult _ _ _
        (by rw [hissues]; exact List.mem_cons_self)
    exact ⟨output, rfl, hissues, call, hcontent, hpoints⟩

end TemplateMessages.Component
