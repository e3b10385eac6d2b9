import Mathlib
import TemplateMessages.Command.Run
import TemplateMessages.Proofs.Command.Runs
import TemplateMessages.Proofs.Table

set_option autoImplicit false

/-!
# Runs with and without the flag for details

Asking for details changes what a run writes to standard error. It also makes the problems with
message files issues of the run, and these can be the only ones that count as failures.
-/

namespace TemplateMessages.Command

open TemplateMessages.Files

def Form.asksForDetails : Form → Bool
  | .long name value => name == "verbose" && value.isNone
  | .short letters => letters.head? == some 'v'
  | .separator | .plain => false

/-- None of the arguments in front of the separator asks for details. -/
def IsQuiet (argv : List String) : Prop :=
  ∀ argument ∈ argv.takeWhile (Form.ofArgument · ≠ .separator),
    (Form.ofArgument argument).asksForDetails = false

instance (argv : List String) : Decidable (IsQuiet argv) :=
  inferInstanceAs (Decidable (∀ _ ∈ _, _))

namespace TransformArguments

/-- The same with or without details. -/
def withVerbose (verbose : Bool) (arguments : TransformArguments) : TransformArguments :=
  { arguments with verbose := verbose }

def stepWithVerbose (verbose : Bool) (step : TransformArguments × Pending) :
    TransformArguments × Pending :=
  (step.1.withVerbose verbose, step.2)

variable {argument : String} (verbose : Bool) (arguments : TransformArguments) (pending : Pending)

@[simp] theorem setValue_withVerbose (setting : Setting) (value : String) :
    (arguments.withVerbose verbose).setValue setting value =
      (arguments.setValue setting value).map (withVerbose verbose) := by
  cases setting <;> unfold setValue once withVerbose <;> dsimp only
  case locale => cases arguments.locale.isSome <;> rfl
  case fallback => cases arguments.fallback.isSome <;> rfl
  case outDirectory => cases arguments.outDirectory.isSome <;> cases value.isEmpty <;> rfl
  case messagesRoot => cases arguments.messagesRoot.isSome <;> cases value.isEmpty <;> rfl
  case format =>
    cases arguments.format.isSome <;>
      cases (Project.Config.formatChoices.get? value).isNone <;> rfl

@[simp] theorem settle_withVerbose : (arguments.withVerbose verbose).settle pending =
    (arguments.settle pending).map (withVerbose verbose) := by
  cases pending with
  | nothing => rfl
  | setting setting value =>
    cases value with
    | none => rfl
    | some value => exact setValue_withVerbose verbose arguments setting value
  | paths paths =>
    unfold settle
    dsimp only
    cases paths.any String.isEmpty <;> rfl

theorem setFlag_withVerbose {flag : Flag} (hflag : flag ≠ .verbose) :
    (arguments.withVerbose verbose).setFlag flag =
      (arguments.setFlag flag).map (withVerbose verbose) := by
  cases flag <;> unfold setFlag withVerbose <;> dsimp only
  case write => cases arguments.write <;> rfl
  case strict => cases arguments.strict <;> rfl
  case verbose => exact absurd rfl hflag

@[simp] theorem addPath_withVerbose (path : String) :
    (arguments.withVerbose verbose).addPath pending path =
      (arguments.addPath pending path).map (stepWithVerbose verbose) := by
  unfold addPath
  cases pending with
  | paths paths => rfl
  | nothing => rfl
  | setting setting value =>
    dsimp only
    rw [settle_withVerbose]
    cases arguments.settle (.setting setting value) <;> rfl

theorem setLetters_withVerbose {letters : List Char}
    (hletters : (Form.short letters).asksForDetails = false) :
    (arguments.withVerbose verbose).setLetters pending letters =
      (arguments.setLetters pending letters).map (stepWithVerbose verbose) := by
  cases letters with
  | nil => rfl
  | cons c cs =>
    have hne : c ≠ 'v' := by simpa [Form.asksForDetails] using hletters
    unfold setLetters
    rw [if_neg hne, if_neg hne, settle_withVerbose]
    by_cases hhelp : c = 'h'
    · rw [if_pos hhelp, if_pos hhelp]
      cases arguments.settle pending <;> rfl
    · rw [if_neg hhelp, if_neg hhelp]
      rfl

theorem setLong_withVerbose {name : String} {value : Option String}
    (hname : (Form.long name value).asksForDetails = false) :
    (arguments.withVerbose verbose).setLong pending name value =
      (arguments.setLong pending name value).map (stepWithVerbose verbose) := by
  unfold setLong
  rw [settle_withVerbose]
  cases settingNames.get? name with
  | some setting =>
    cases arguments.settle pending with
    | error usage => rfl
    | ok settled =>
      cases value with
      | none => rfl
      | some value =>
        dsimp only [Except.map, bind, Except.bind]
        rw [setValue_withVerbose]
        cases settled.setValue setting value <;> rfl
  | none =>
    cases hflag : flagNames.get? name with
    | some flag =>
      cases value with
      | some value => rfl
      | none =>
        have hne : flag ≠ .verbose := by
          rintro rfl
          have hmem := Table.mem_of_get?_eq hflag
          obtain rfl : name = "verbose" := by simpa [flagNames] using hmem
          exact Bool.false_ne_true hname.symm
        cases arguments.settle pending with
        | error usage => rfl
        | ok settled =>
          dsimp only [Except.map, bind, Except.bind]
          rw [setFlag_withVerbose verbose settled hne]
          cases settled.setFlag flag <;> rfl
    | none =>
      dsimp only
      by_cases hhelp : name = "help"
      · rw [if_pos hhelp, if_pos hhelp]
        cases value <;> cases arguments.settle pending <;> rfl
      · rw [if_neg hhelp, if_neg hhelp]
        rfl

theorem take_withVerbose (hquiet : (Form.ofArgument argument).asksForDetails = false) :
    (arguments.withVerbose verbose).take pending argument =
      (arguments.take pending argument).map (stepWithVerbose verbose) := by
  have hpath := addPath_withVerbose verbose arguments pending argument
  unfold take
  cases hform : Form.ofArgument argument with
  | long name value =>
    rw [hform] at hquiet
    exact setLong_withVerbose verbose arguments pending hquiet
  | short letters =>
    rw [hform] at hquiet
    exact setLetters_withVerbose verbose arguments pending hquiet
  | separator | plain =>
    cases pending with
    | setting setting value =>
      cases value with
      | none => rfl
      | some value => exact hpath
    | nothing | paths => exact hpath

theorem takeAll_withVerbose {argv : List String} (onlyPaths : Bool)
    (hquiet : onlyPaths = false → IsQuiet argv) :
    (arguments.withVerbose verbose).takeAll pending onlyPaths argv =
      (arguments.takeAll pending onlyPaths argv).map (withVerbose verbose) := by
  induction argv generalizing arguments pending onlyPaths with
  | nil => exact settle_withVerbose verbose arguments pending
  | cons argument argv ih =>
    unfold takeAll
    cases onlyPaths with
    | true =>
      rw [if_pos rfl, if_pos rfl, addPath_withVerbose]
      cases arguments.addPath pending argument with
      | error usage => rfl
      | ok step => exact ih step.1 step.2 true nofun
    | false =>
      have hquiet := hquiet rfl
      rw [if_neg Bool.false_ne_true, if_neg Bool.false_ne_true]
      by_cases hform : Form.ofArgument argument = .separator
      · rw [if_pos hform, if_pos hform]
        exact ih arguments pending true nofun
      · have hfront : (argument :: argv).takeWhile (Form.ofArgument · ≠ .separator) =
            argument :: argv.takeWhile (Form.ofArgument · ≠ .separator) :=
          List.takeWhile_cons_of_pos (by simpa using hform)
        unfold IsQuiet at hquiet
        rw [hfront] at hquiet
        rw [if_neg hform, if_neg hform,
          take_withVerbose verbose arguments pending (hquiet argument List.mem_cons_self)]
        cases arguments.take pending argument with
        | error usage => rfl
        | ok step =>
          exact ih step.1 step.2 false fun _ other hother =>
            hquiet other (List.mem_cons_of_mem argument hother)

end TransformArguments

def Request.withVerbose : Request → Request
  | .transform arguments => .transform (arguments.withVerbose true)
  | request => request

theorem parse_verbose {argv : List String} (hquiet : IsQuiet argv) :
    Request.parse ("transform" :: "--verbose" :: argv) =
      (Request.parse ("transform" :: argv)).map Request.withVerbose := by
  have hflag : TransformArguments.takeAll .empty .nothing false ("--verbose" :: argv) =
      (TransformArguments.empty.withVerbose true).takeAll .nothing false argv := rfl
  unfold Request.parse
  dsimp only
  rw [if_pos rfl, if_pos rfl]
  unfold TransformArguments.parse
  rw [hflag, TransformArguments.takeAll_withVerbose _ _ _ _ fun _ => hquiet]
  cases TransformArguments.takeAll .empty .nothing false argv with
  | error usage => rfl
  | ok arguments =>
    dsimp only [Except.map, bind, Except.bind]
    unfold TransformArguments.withVerbose
    dsimp only
    cases arguments.write && arguments.outDirectory.isSome <;> rfl

theorem verbose_of_parse {argv : List String} {arguments : TransformArguments}
    (hquiet : IsQuiet argv)
    (h : Request.parse ("transform" :: argv) = .ok (.transform arguments)) :
    arguments.verbose = false := by
  obtain ⟨rest, hrest, htake, _⟩ := exists_takeAll_of_parse h
  obtain rfl := (List.cons.inj hrest).2
  have hsame := TransformArguments.takeAll_withVerbose false .empty .nothing false fun _ => hquiet
  change TransformArguments.takeAll .empty .nothing false argv = _ at hsame
  rw [htake] at hsame
  exact congrArg TransformArguments.verbose (Except.ok.inj hsame)

variable {tree : Tree} {working : Path} {arguments : TransformArguments}

/-- The files of a run are all transformed without an issue, but there are problems with message
files, and issues count as failures. -/
def OnlyLoadIssues (tree : Tree) (working : Path) (arguments : TransformArguments) : Prop :=
  arguments.strict = true ∧ ∃ selection target, prepare tree working arguments = .ok selection ∧
    targetOf working arguments selection.files.length = .ok target ∧
    selection.files ≠ [] ∧ selection.loadIssues ≠ [] ∧
    ∀ file ∈ ((selection.plan working target).transformFiles tree selection.files).1,
      ∃ output, file.result = .ok output ∧ output.issues = []

theorem reportedIssues_quiet (hquiet : arguments.verbose = false)
    (loadIssues : List Report.Issue) (results : List Plan.FileResult) :
    reportedIssues arguments loadIssues results = (outputsOf results).flatMap (·.issues) := by
  unfold reportedIssues
  rw [hquiet]
  rfl

theorem all_clean_iff {results : List Plan.FileResult} :
    (¬ ∃ file ∈ results, file.Failed) ∧ (outputsOf results).flatMap (·.issues) = [] ↔
      ∀ file ∈ results, ∃ output, file.result = .ok output ∧ output.issues = [] := by
  unfold outputsOf Plan.FileResult.Failed
  rw [List.flatMap_eq_nil_iff]
  constructor
  · rintro ⟨hfailed, hissues⟩ file hfile
    cases hresult : file.result with
    | error failure => exact absurd ⟨file, hfile, by rw [hresult]; rfl⟩ hfailed
    | ok output =>
      have hmem : output ∈ results.filterMap (·.result.toOption) :=
        List.mem_filterMap.mpr ⟨file, hfile, by rw [hresult]; rfl⟩
      exact ⟨output, rfl, hissues output hmem⟩
  · intro hclean
    constructor
    · rintro ⟨file, hfile, hfailed⟩
      obtain ⟨output, hresult, _⟩ := hclean file hfile
      rw [hresult] at hfailed
      cases hfailed
    · intro output houtput
      obtain ⟨file, hfile, hresult⟩ := List.mem_filterMap.mp houtput
      obtain ⟨output', hresult', hissues⟩ := hclean file hfile
      rw [hresult'] at hresult
      obtain rfl := Option.some.inj hresult
      exact hissues

theorem reportedIssues_verbose (loadIssues : List Report.Issue) (results : List Plan.FileResult) :
    reportedIssues (arguments.withVerbose true) loadIssues results =
      loadIssues ++ (outputsOf results).flatMap (·.issues) := rfl

theorem transform_withVerbose_of_early (verbose : Bool)
    (hearly : ∀ selection target, prepare tree working arguments = .ok selection →
      targetOf working arguments selection.files.length = .ok target → selection.files = []) :
    (transform tree working (arguments.withVerbose verbose)).output =
        (transform tree working arguments).output ∧
      (transform tree working (arguments.withVerbose verbose)).tree =
        (transform tree working arguments).tree ∧
      (transform tree working (arguments.withVerbose verbose)).status =
        (transform tree working arguments).status := by
  cases hprepare : prepare tree working arguments with
  | error error =>
    have hdetails : prepare tree working (arguments.withVerbose verbose) = .error error := hprepare
    rw [transform_of_error hprepare, transform_of_error hdetails]
    exact ⟨rfl, rfl, rfl⟩
  | ok selection =>
    have hdetails : prepare tree working (arguments.withVerbose verbose) = .ok selection := hprepare
    by_cases hne : selection.files = []
    · obtain ⟨hstatus, houtput, htree⟩ := transform_of_isEmpty hprepare hne
      obtain ⟨hstatus', houtput', htree'⟩ := transform_of_isEmpty hdetails hne
      exact ⟨houtput'.trans houtput.symm, htree'.trans htree.symm, hstatus'.trans hstatus.symm⟩
    · cases htarget : targetOf working arguments selection.files.length with
      | error error =>
        obtain ⟨hstatus, houtput, htree⟩ := transform_of_targetOf_error hprepare hne htarget
        obtain ⟨hstatus', houtput', htree'⟩ := transform_of_targetOf_error hdetails hne htarget
        exact ⟨houtput'.trans houtput.symm, htree'.trans htree.symm, hstatus'.trans hstatus.symm⟩
      | ok target => exact absurd (hearly selection target hprepare htarget) hne

theorem Status.eq_of_failure_iff {first second : Status} (hfirst : first ≠ .error)
    (hsecond : second ≠ .error) (h : first = .failure ↔ second = .failure) : first = second := by
  cases first <;> cases second <;> simp_all

theorem onlyLoadIssues_iff {selection : Selection} {target : Target}
    (hprepare : prepare tree working arguments = .ok selection)
    (htarget : targetOf working arguments selection.files.length = .ok target)
    (hne : selection.files ≠ []) :
    OnlyLoadIssues tree working arguments ↔ arguments.strict = true ∧ selection.loadIssues ≠ [] ∧
      (¬ ∃ file ∈ ((selection.plan working target).transformFiles tree selection.files).1,
        file.Failed) ∧
      (outputsOf ((selection.plan working target).transformFiles tree selection.files).1).flatMap
        (·.issues) = [] := by
  rw [all_clean_iff]
  constructor
  · rintro ⟨hstrict, selection', target', hprepare', htarget', _, hload, hclean⟩
    obtain rfl := Except.ok.inj (hprepare.symm.trans hprepare')
    obtain rfl := Except.ok.inj (htarget.symm.trans htarget')
    exact ⟨hstrict, hload, hclean⟩
  · rintro ⟨hstrict, hload, hclean⟩
    exact ⟨hstrict, selection, target, hprepare, htarget, hne, hload, hclean⟩

theorem status_withVerbose {selection : Selection} {target : Target}
    (hquiet : arguments.verbose = false)
    (hprepare : prepare tree working arguments = .ok selection)
    (htarget : targetOf working arguments selection.files.length = .ok target)
    (hne : selection.files ≠ []) :
    (OnlyLoadIssues tree working arguments →
        (transform tree working arguments).status = .success ∧
        (transform tree working (arguments.withVerbose true)).status = .failure) ∧
      (¬ OnlyLoadIssues tree working arguments →
        (transform tree working (arguments.withVerbose true)).status =
          (transform tree working arguments).status) := by
  have hdetails : prepare tree working (arguments.withVerbose true) = .ok selection := hprepare
  obtain ⟨hnoError, hfailure⟩ := status_transform hprepare hne htarget
  obtain ⟨hnoError', hfailure'⟩ := status_transform hdetails hne htarget
  rw [reportedIssues_quiet hquiet] at hfailure
  rw [reportedIssues_verbose, Ne, List.append_eq_nil_iff, not_and_or] at hfailure'
  rw [onlyLoadIssues_iff hprepare htarget hne]
  have hstrict : (arguments.withVerbose true).strict = arguments.strict := rfl
  rw [hstrict] at hfailure'
  constructor
  · rintro ⟨hstrict, hload, hnone, hissues⟩
    refine ⟨Status.eq_of_failure_iff hnoError nofun ?_, hfailure'.mpr ?_⟩
    · rw [hfailure]
      simp [hnone, hissues]
    · exact Or.inr ⟨hstrict, Or.inl hload⟩
  · intro hnot
    refine Status.eq_of_failure_iff hnoError' hnoError ?_
    rw [hfailure, hfailure']
    constructor
    · rintro (hfailed | ⟨hstrict, hload | hissues⟩)
      · exact Or.inl hfailed
      · by_contra hneither
        rw [not_or, not_and, Decidable.not_not] at hneither
        exact hnot ⟨hstrict, hload, hneither.1, hneither.2 hstrict⟩
      · exact Or.inr ⟨hstrict, hissues⟩
    · rintro (hfailed | ⟨hstrict, hissues⟩)
      · exact Or.inl hfailed
      · exact Or.inr ⟨hstrict, Or.inr hissues⟩

/-- Asking for details changes nothing but what is written to standard error, and the exit status
of the runs that have only the problems with message files to report and count issues as
failures. The flag in front of a command line changes nothing else in how it is read. -/
theorem transform_verbose (tree : Tree) (working : Path) :
    (∀ argv, IsQuiet argv →
      Request.parse ("transform" :: "--verbose" :: argv) =
        (Request.parse ("transform" :: argv)).map Request.withVerbose ∧
      ∀ arguments, Request.parse ("transform" :: argv) = .ok (.transform arguments) →
        arguments.verbose = false) ∧
    ∀ arguments, arguments.verbose = false →
      (transform tree working (arguments.withVerbose true)).output =
          (transform tree working arguments).output ∧
      (transform tree working (arguments.withVerbose true)).tree =
          (transform tree working arguments).tree ∧
      (OnlyLoadIssues tree working arguments →
        (transform tree working arguments).status = .success ∧
        (transform tree working (arguments.withVerbose true)).status = .failure) ∧
      (¬ OnlyLoadIssues tree working arguments →
        (transform tree working (arguments.withVerbose true)).status =
          (transform tree working arguments).status) := by
  refine ⟨fun argv hquiet => ⟨parse_verbose hquiet, fun _ => verbose_of_parse hquiet⟩, ?_⟩
  intro arguments hquiet
  by_cases hearly : ∀ selection target, prepare tree working arguments = .ok selection →
      targetOf working arguments selection.files.length = .ok target → selection.files = []
  · obtain ⟨houtput, htree, hstatus⟩ := transform_withVerbose_of_early true hearly
    refine ⟨houtput, htree, ?_, fun _ => hstatus⟩
    rintro ⟨_, selection, target, hprepare, htarget, hne, _⟩
    exact absurd (hearly selection target hprepare htarget) hne
  · push Not at hearly
    obtain ⟨selection, target, hprepare, htarget, hne⟩ := hearly
    have hdetails : prepare tree working (arguments.withVerbose true) = .ok selection := hprepare
    obtain ⟨messages, hrun⟩ := transform_of_targetOf hprepare hne htarget
    obtain ⟨messages', hrun'⟩ := transform_of_targetOf hdetails hne htarget
    refine ⟨?_, ?_, status_withVerbose hquiet hprepare htarget hne⟩
    · rw [hrun, hrun']
      rfl
    · rw [hrun, hrun']
      rfl

/-- A project whose only message file cannot be read as messages. -/
def unreadMessages : Tree where
  files := [
    (["w", "locales", "en.json"], .text "[]"),
    (["w", "a.vue"], .text "<template>Hi</template>")]
  directories := []

def strictArguments : TransformArguments :=
  { TransformArguments.empty with paths := ["a.vue"], strict := true }

def unreadMessagesSelection : Selection where
  files := [⟨["", "w", "a.vue"]⟩]
  warnings := []
  loadIssues :=
    [.messagesNotLoaded "/w/./locales/en.json" "expected a JSON object at the top level"]
  translator := ⟨.catalog [], [("t", .translate)]⟩
  settings := ⟨{ Project.Config.default with onMissing := .error }, ⟨["", "w"]⟩⟩

theorem transform_verbose_unreadMessages :
    IsQuiet ["a.vue", "--strict"] ∧
    Request.parse ["transform", "--verbose", "a.vue", "--strict"] =
      .ok (.transform (strictArguments.withVerbose true)) ∧
    OnlyLoadIssues unreadMessages ⟨["", "w"]⟩ strictArguments ∧
    (transform unreadMessages ⟨["", "w"]⟩ (strictArguments.withVerbose true)).output =
      (transform unreadMessages ⟨["", "w"]⟩ strictArguments).output ∧
    (transform unreadMessages ⟨["", "w"]⟩ (strictArguments.withVerbose true)).status =
      .failure := by
  have hquiet : IsQuiet ["a.vue", "--strict"] := by decide
  obtain ⟨hparse, hruns⟩ := transform_verbose unreadMessages ⟨["", "w"]⟩
  obtain ⟨houtput, _, hstatus, _⟩ := hruns strictArguments rfl
  have honly : OnlyLoadIssues unreadMessages ⟨["", "w"]⟩ strictArguments := by
    have hprepare : prepare unreadMessages ⟨["", "w"]⟩ strictArguments =
        .ok unreadMessagesSelection := by
      cbv
    have htarget : targetOf ⟨["", "w"]⟩ strictArguments unreadMessagesSelection.files.length =
        .ok .output := rfl
    refine (onlyLoadIssues_iff hprepare htarget (by decide)).mpr ⟨rfl, by decide, ?_, ?_⟩
    · decide +kernel
    · decide +kernel
  exact ⟨hquiet, (hparse _ hquiet).1, honly, houtput, (hstatus honly).2⟩

theorem not_status_verbose :
    ¬ ∀ (tree : Tree) (working : Path) (argv : List String) (arguments : TransformArguments),
      IsQuiet argv → Request.parse ("transform" :: argv) = .ok (.transform arguments) →
      (transform tree working (arguments.withVerbose true)).status =
          (transform tree working arguments).status ∧
        (transform tree working (arguments.withVerbose true)).output =
          (transform tree working arguments).output ∧
        (transform tree working (arguments.withVerbose true)).tree =
          (transform tree working arguments).tree := by
  intro h
  obtain ⟨hstatus, _⟩ := h unreadMessages ⟨["", "w"]⟩ ["a.vue", "--strict"] strictArguments
    (by decide) rfl
  revert hstatus
  decide +kernel

end TemplateMessages.Command
