import TemplateMessages.Proofs.Template.Accounting
import TemplateMessages.Proofs.Text.Composition

set_option autoImplicit false

/-!
# The parts of a text run

A text run is cut into its expressions and the text around them. The transformation rewrites it part
by part: an expression becomes the text that it is constant for, or stays an expression with its
calls replaced, and the text around it stays.
-/

namespace TemplateMessages.Template

open TemplateMessages.Call (Candidate FunctionNames)
open TemplateMessages.Markup
open TemplateMessages.Text
open TemplateMessages.Translation

inductive Part where
  | text (chars : List Char)
  | expression (inner : List Char)
  deriving DecidableEq

def Part.chars : Part → List Char
  | text chars => chars
  | expression inner => '{' :: '{' :: inner ++ ['}', '}']

def partChars (parts : List Part) : List Char :=
  parts.flatMap Part.chars

/-- The interpolations of a text and the characters around them. -/
def partsOf (text : List Char) : List Part :=
  match h : readInterpolation? text with
  | some (inner, rest) =>
    have : rest.length < text.length := by
      rw [← append_of_readInterpolation? h]
      simp only [List.length_append, List.length_cons]
      omega
    .expression inner :: partsOf rest
  | none =>
    match text with
    | [] => []
    | c :: cs => .text [c] :: partsOf cs
termination_by text.length

/-- The expressions of a text that starts at `position`, each with what stands between its
braces. -/
def located (position : Nat) : List Part → List (Interpolation × List Char)
  | [] => []
  | .text chars :: parts => located (position + byteLength chars) parts
  | .expression inner :: parts =>
    let start := position + 2
    let stop := start + byteLength inner
    (⟨⟨position, stop + 2⟩, ⟨start, stop⟩⟩, inner) :: located (stop + 2) parts

@[simp] theorem partChars_nil : partChars [] = [] :=
  rfl

@[simp] theorem partChars_cons (part : Part) (parts : List Part) :
    partChars (part :: parts) = part.chars ++ partChars parts :=
  rfl

@[simp] theorem byteLength_expression (inner : List Char) :
    byteLength (Part.expression inner).chars = 2 + byteLength inner + 2 := by
  have hbraces : '{'.utf8Size = 1 ∧ '}'.utf8Size = 1 := by decide
  simp only [Part.chars, List.cons_append, byteLength, byteLength_append, hbraces.1, hbraces.2]
  omega

theorem partsOf_expression {text inner rest : List Char}
    (h : readInterpolation? text = some (inner, rest)) :
    partsOf text = .expression inner :: partsOf rest := by
  rw [partsOf]
  split
  · rename_i heq
    rw [h] at heq
    cases heq
    rfl
  · rename_i heq
    rw [h] at heq
    cases heq

theorem partsOf_cons {c : Char} {cs : List Char} (h : readInterpolation? (c :: cs) = none) :
    partsOf (c :: cs) = .text [c] :: partsOf cs := by
  rw [partsOf]
  split
  · rename_i heq
    rw [h] at heq
    cases heq
  · rfl

@[simp] theorem partsOf_nil : partsOf [] = [] := by
  rw [partsOf]
  rfl

theorem interpolationsFrom_eq (position : Nat) (text : List Char) :
    interpolationsFrom position text = (located position (partsOf text)).map (·.1) := by
  fun_induction interpolationsFrom position text with
  | case1 position text inner rest h _ start stop ih =>
    rw [partsOf_expression h, located, List.map_cons, ih]
  | case2 position h =>
    rw [partsOf_nil]
    rfl
  | case3 position c cs h ih =>
    rw [partsOf_cons h, ih]
    rfl

theorem covers_of_mem_located {position : Nat} {parts : List Part}
    {found : Interpolation × List Char} (h : found ∈ located position parts) :
    Covers position (partChars parts) found.1.inner found.2 := by
  induction parts generalizing position with
  | nil => cases h
  | cons part parts ih =>
    cases part with
    | text chars => exact (ih h).behind
    | expression inner =>
      rcases List.mem_cons.mp h with rfl | hlater
      · have inside := Covers.head (position + 2) inner (['}', '}'] ++ partChars parts)
        have whole := Covers.behind_cons '{' (Covers.behind_cons '{' inside)
        simpa [Part.chars] using whole
      · have later := ih hlater
        rw [show position + 2 + byteLength inner + 2 =
          position + byteLength (Part.expression inner).chars by
            rw [byteLength_expression]
            omega] at later
        exact later.behind

def expressionSite (position : Nat) (inner : List Char) : Site :=
  let start := position + 2
  let stop := start + byteLength inner
  .interpolation ⟨⟨position, stop + 2⟩, ⟨start, stop⟩⟩

section
variable (source : List Char) (names : FunctionNames)
  (translate : Candidate → Except TranslationError Replacement)

/-- The constant text that an expression is once its calls are replaced, when it has calls and all of
them may become text. -/
def collapsed? (site : Site) : Option String :=
  let calls := site.calls source names
  let edits := callEdits translate calls
  if edits.isEmpty then none
  else if calls.all fun call => mayCollapse (call, translate call) then
    constantText? source site.inner edits
  else none

def rewrittenExpression (site : Site) : List Char :=
  Edit.applyAll
    ((callEdits translate (site.calls source names)).map (Edit.movedBack site.inner.start))
    (site.inner.slice source)

def Part.rewritten (position : Nat) : Part → Part
  | text chars => text chars
  | expression inner =>
    let site := expressionSite position inner
    match collapsed? source names translate site with
    | some constant => text (escapeQuotes constant).toList
    | none => expression (rewrittenExpression source names translate site)

def rewrittenParts (position : Nat) : List Part → List Part
  | [] => []
  | part :: parts =>
    part.rewritten source names translate position ::
      rewrittenParts (position + byteLength part.chars) parts

def runEdits (run : Span) : List Edit :=
  (textSites source run).flatMap fun site => (resolve source names translate site).edits

/-- A text run with its edits carried out. -/
def rewrittenRun (run : Span) : List Char :=
  Edit.applyAll ((runEdits source names translate run).map (Edit.movedBack run.start))
    (run.slice source)

end

variable {source chars : List Char} {names : FunctionNames}
  {translate : Candidate → Except TranslationError Replacement}

variable (source names translate) in
theorem edits_resolve_eq (site : Site) :
    (resolve source names translate site).edits =
      site.edits (callEdits translate (site.calls source names))
        (collapsed? source names translate site) := by
  rw [resolve_eq]
  unfold collapsed?
  dsimp only
  split
  · rename_i hempty
    rw [List.isEmpty_iff.mp hempty]
    cases site <;> rfl
  · rfl

theorem edits_expressionSite (position : Nat) (inner : List Char) :
    (resolve source names translate (expressionSite position inner)).edits =
      match collapsed? source names translate (expressionSite position inner) with
      | some text => [⟨(expressionSite position inner).whole, escapeQuotes text⟩]
      | none => callEdits translate ((expressionSite position inner).calls source names) := by
  rw [edits_resolve_eq]
  cases collapsed? source names translate (expressionSite position inner) <;> rfl

variable (names translate) in
theorem rewritten_callEdits {site : Site} {inner : List Char}
    (hinner : Covers 0 source site.inner inner) (placed : Edit → Edit)
    (hspan : ∀ edit, (placed edit).span = edit.span) :
    ∃ output, Rewritten site.inner.start inner
      ((callEdits translate (site.calls source names)).map placed) output := by
  refine ⟨_, rewritten_splice_of_ascending ?_ ?_⟩
  · intro edit hedit
    obtain ⟨found, hfound, rfl⟩ := List.mem_map.mp hedit
    obtain ⟨call, hcall, replacement, -, rfl⟩ := mem_callEdits.mp hfound
    unfold Site.calls at hcall
    rw [hinner.slice_eq] at hcall
    rw [hspan]
    exact ⟨_, Call.covers_of_mem_candidates hcall⟩
  · rw [List.pairwise_map]
    refine (callEdits_ascending Call.candidates_ascending).imp fun hle => ?_
    rwa [hspan, hspan]

variable (names translate) in
theorem rewritten_expression {site : Site} {inner : List Char}
    (hinner : Covers 0 source site.inner inner) :
    Rewritten site.inner.start inner (callEdits translate (site.calls source names))
      (rewrittenExpression source names translate site) := by
  obtain ⟨output, hrewritten⟩ := rewritten_callEdits names translate hinner id fun _ => rfl
  rw [List.map_id] at hrewritten
  unfold rewrittenExpression
  rw [hinner.slice_eq, hrewritten.applyAll_movedBack]
  exact hrewritten

variable (names translate) in
theorem rewritten_part {position : Nat} {inner : List Char}
    (h : Covers 0 source ⟨position, position + byteLength (Part.expression inner).chars⟩
      (Part.expression inner).chars) :
    Rewritten position (Part.expression inner).chars
      (resolve source names translate (expressionSite position inner)).edits
      ((Part.expression inner).rewritten source names translate position).chars := by
  have hinside : Covers 0 source (expressionSite position inner).inner inner :=
    h.trans (Covers.behind_cons '{' (Covers.behind_cons '{' (Covers.head (position + 2) inner _)))
  rw [edits_expressionSite, Part.rewritten]
  cases collapsed? source names translate (expressionSite position inner) with
  | some text =>
    have hwhole := Rewritten.whole position (Part.expression inner).chars (escapeQuotes text)
    rw [byteLength_expression, ← Nat.add_assoc, ← Nat.add_assoc] at hwhole
    exact hwhole
  | none =>
    have hexpression := rewritten_expression names translate hinside
    -- the braces stay, and what is between them is rewritten where it stands
    have hclosed := hexpression.append (.kept _ ['}', '}'])
    rw [List.append_nil] at hclosed
    exact hclosed.behind ['{', '{']

variable (names translate) in
theorem rewritten_parts {position : Nat} {text : List Char}
    (h : Covers 0 source ⟨position, position + byteLength text⟩ text) :
    Rewritten position text
      ((interpolationsFrom position text).flatMap fun expression =>
        (resolve source names translate (.interpolation expression)).edits)
      (partChars (rewrittenParts source names translate position (partsOf text))) := by
  fun_induction interpolationsFrom position text with
  | case1 position text inner rest hread _ start stop ih =>
    have hsplit : (Part.expression inner).chars ++ rest = text := by
      simpa [Part.chars] using append_of_readInterpolation? hread
    have hnext : stop + 2 = position + byteLength (Part.expression inner).chars := by
      simp
      omega
    rw [partsOf_expression hread, rewrittenParts, partChars_cons, List.flatMap_cons, ← hsplit]
    rw [← hsplit] at h
    obtain ⟨hfirst, hrest⟩ := h.split
    have hlater : Rewritten (position + byteLength (Part.expression inner).chars) rest
        ((interpolationsFrom (stop + 2) rest).flatMap fun expression =>
          (resolve source names translate (.interpolation expression)).edits)
        (partChars (rewrittenParts source names translate
          (position + byteLength (Part.expression inner).chars) (partsOf rest))) := by
      rw [← hnext] at hrest ⊢
      exact ih hrest
    exact (rewritten_part names translate hfirst).append hlater
  | case2 position =>
    simpa using .kept position []
  | case3 position c cs hread ih =>
    have hrest := h.trans (Covers.behind_cons c (Covers.whole (position + c.utf8Size) cs))
    rw [partsOf_cons hread, rewrittenParts, partChars_cons]
    exact (ih hrest).behind [c]

variable (names translate) in
theorem rewrittenRun_eq {run : Span} (hrun : Covers 0 source run chars) :
    Rewritten run.start chars (runEdits source names translate run)
        (rewrittenRun source names translate run) ∧
      rewrittenRun source names translate run =
        partChars (rewrittenParts source names translate run.start (partsOf chars)) := by
  have hedits : runEdits source names translate run =
      (interpolationsFrom run.start chars).flatMap fun expression =>
        (resolve source names translate (.interpolation expression)).edits := by
    rw [runEdits, textSites, hrun.slice_eq, List.flatMap_map]
  have hparts : Covers 0 source ⟨run.start, run.start + byteLength chars⟩ chars := by
    rw [← hrun.stop_eq]
    exact hrun
  have hrewritten := rewritten_parts names translate hparts
  rw [← hedits] at hrewritten
  have heq : rewrittenRun source names translate run =
      partChars (rewrittenParts source names translate run.start (partsOf chars)) := by
    rw [rewrittenRun, hrun.slice_eq, hrewritten.applyAll_movedBack]
  exact ⟨heq ▸ hrewritten, heq⟩

end TemplateMessages.Template
