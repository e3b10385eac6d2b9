import TemplateMessages.Proofs.Expression.CursorSteps

set_option autoImplicit false

/-!
# Runs of the routines

Every routine that is started while an expression is read comes to an end, with the cursor between two
characters all the way. A chain of calls from a routine to itself, of which one round of a loop is
one, has moved the cursor.
-/

namespace TemplateMessages.Expression

open TemplateMessages.Number (Binary64)
open TemplateMessages.Text

variable {source text rest : List Char} {owner : Start} {α : Type}

@[simp] theorem placeOf_append (front rest : List Char) :
    placeOf (front ++ rest) rest = byteLength front := by
  simp [placeOf]

@[simp] theorem placeOf_self (source : List Char) : placeOf source source = 0 :=
  Nat.sub_self _

theorem isBoundary_placeOf (h : rest <:+ source) : IsBoundary source (placeOf source rest) := by
  obtain ⟨front, rfl⟩ := h
  exact isBoundary_iff.mpr ⟨front, rest, rfl, (placeOf_append front rest).symm⟩

theorem dropBytes_placeOf (h : rest <:+ source) : dropBytes (placeOf source rest) source = rest := by
  obtain ⟨front, rfl⟩ := h
  simp

theorem placeOf_add {front : List Char} (h : front ++ rest <:+ source) :
    placeOf source (front ++ rest) + byteLength front = placeOf source rest := by
  obtain ⟨before, rfl⟩ := h
  rw [placeOf_append, ← List.append_assoc, placeOf_append, byteLength_append]

theorem slice_placeOf {between : List Char} (h : between ++ rest <:+ source) :
    Span.slice ⟨placeOf source (between ++ rest), placeOf source rest⟩ source = between := by
  rw [← placeOf_add h]
  obtain ⟨before, rfl⟩ := h
  refine Covers.slice_eq ⟨before, rest, List.append_assoc .., ?_⟩
  simp

theorem placeOf_le (h : rest <:+ text) (htext : text <:+ source) :
    placeOf source text ≤ placeOf source rest := by
  obtain ⟨front, rfl⟩ := h
  rw [← placeOf_add htext]
  exact Nat.le_add_right _ _

theorem placeOf_lt (h : rest <:+ text) (hlength : rest.length < text.length)
    (htext : text <:+ source) : placeOf source text < placeOf source rest := by
  obtain ⟨front, rfl⟩ := h
  have hne : front ≠ [] := by
    rintro rfl
    exact absurd hlength (Nat.lt_irrefl _)
  have hpositive := byteLength_pos hne
  have hadd := placeOf_add htext
  omega

/-- An outcome with the positions of its rests. -/
def located (source : List Char) :
    Except (List Char) (α × List Char) → Except Nat (α × Nat)
  | .ok (value, rest) => .ok (value, placeOf source rest)
  | .error stop => .error (placeOf source stop)

theorem Inside.trans {outcome : Except (List Char) (α × List Char)} (h : Inside rest outcome)
    (hrest : rest <:+ text) : Inside text outcome := by
  cases outcome with
  | ok found => exact List.IsSuffix.trans h hrest
  | error stop => exact List.IsSuffix.trans h hrest

/-- A routine that is started in front of a text stays in it, and runs to the result of its
reader. -/
def Settles (source : List Char) (start : Start) : Prop :=
  Inside start.2 (start.1.result start.2) ∧
    Runs source (program start.1) (placeOf source start.2)
      (located source (start.1.result start.2))

theorem Program.Follows.runs {p : Program α} {outcome : Except (List Char) (α × List Char)}
    (howner : owner.2 <:+ source)
    (hlower : ∀ callee : Start, Lower owner callee → callee.2 <:+ owner.2 → Settles source callee)
    (htext : text <:+ owner.2) (h : p.Follows source owner text outcome) :
    Inside owner.2 outcome ∧ Runs source p (placeOf source text) (located source outcome) := by
  -- On the program; the text stays a rest of the one that its owner started with.
  induction p generalizing text with
  | done value =>
    obtain rfl := h
    exact ⟨htext, .done _ _⟩
  | refuse =>
    obtain rfl := h
    exact ⟨htext, .refuse _⟩
  | refuseAt position =>
    obtain ⟨stop, hstop, rfl, rfl⟩ := h
    exact ⟨hstop, .refuseAt _ _⟩
  | look next ih =>
    obtain ⟨hinside, hruns⟩ := ih text htext h
    refine ⟨hinside, .look ?_⟩
    rwa [dropBytes_placeOf (htext.trans howner)]
  | here next ih =>
    obtain ⟨hinside, hruns⟩ := ih _ htext h
    exact ⟨hinside, .here hruns⟩
  | slice start next ih =>
    obtain ⟨between, hsuffix, rfl, hfollows⟩ := h
    obtain ⟨hinside, hruns⟩ := ih between htext hfollows
    refine ⟨hinside, .slice ?_⟩
    rwa [slice_placeOf (hsuffix.trans howner)]
  | advance count next ih =>
    obtain ⟨front, rest, rfl, rfl, hfollows⟩ := h
    obtain ⟨hinside, hruns⟩ := ih ((List.suffix_append front rest).trans htext) hfollows
    refine ⟨hinside, .advance ?_⟩
    rwa [placeOf_add (htext.trans howner)]
  | call routine next ih =>
    obtain ⟨hless, hfollows⟩ := h
    obtain ⟨hinside, hcalled⟩ := hlower (routine, text) hless htext
    have hfollows := hfollows hinside
    dsimp only at hinside hcalled
    cases hresult : routine.result text with
    | error stop =>
      rw [hresult] at hfollows hinside hcalled
      obtain rfl := hfollows
      exact ⟨hinside.trans htext, .refused hcalled⟩
    | ok found =>
      obtain ⟨value, rest⟩ := found
      rw [hresult] at hfollows hinside hcalled
      obtain ⟨hinsideNext, hruns⟩ := ih value (List.IsSuffix.trans hinside htext) hfollows
      exact ⟨hinsideNext, .called hcalled hruns⟩

def Start.measure (start : Start) : Nat :=
  7 * start.2.length + start.1.kind.rank

theorem Routine.Kind.rank_le (kind : Routine.Kind) : kind.rank ≤ 6 := by
  cases kind <;> decide

theorem Lower.measure_lt {caller callee : Start} (h : Lower caller callee)
    (hsuffix : callee.2 <:+ caller.2) : callee.measure < caller.measure := by
  have hlength := hsuffix.length_le
  have hrank := callee.1.kind.rank_le
  unfold Start.measure
  rcases h with hless | hless <;> omega

theorem settles (start : Start) (h : start.2 <:+ source) : Settles source start := by
  induction hmeasure : start.measure using Nat.strong_induction_on generalizing start with
  | _ bound ih =>
    subst hmeasure
    refine (follows_program start.1 start.2).runs h (fun callee hless hsuffix => ?_) List.suffix_rfl
    exact ih callee.measure (hless.measure_lt hsuffix) callee (hsuffix.trans h) rfl

theorem Program.Follows.next {p q : Program α} {cursor : Nat}
    {outcome : Except (List Char) (α × List Char)} (howner : owner.2 <:+ source)
    (htext : text <:+ owner.2) (h : p.Follows source owner text outcome)
    (hnext : Next source (p, placeOf source text) (q, cursor)) :
    ∃ rest, rest <:+ text ∧ cursor = placeOf source rest ∧ q.Follows source owner rest outcome := by
  cases hnext with
  | look next =>
    rw [dropBytes_placeOf (htext.trans howner)]
    exact ⟨text, List.suffix_rfl, rfl, h⟩
  | here next => exact ⟨text, List.suffix_rfl, rfl, h⟩
  | slice start next =>
    obtain ⟨between, hsuffix, rfl, hfollows⟩ := h
    rw [slice_placeOf (hsuffix.trans howner)]
    exact ⟨text, List.suffix_rfl, rfl, hfollows⟩
  | advance count =>
    obtain ⟨front, rest, rfl, rfl, hfollows⟩ := h
    exact ⟨rest, List.suffix_append _ _, placeOf_add (htext.trans howner), hfollows⟩
  | @call routine next _ behind value called =>
    obtain ⟨hinside, hruns⟩ := settles (routine, text) (htext.trans howner)
    have hfollows := h.2 hinside
    have hlocated := hruns.unique called
    dsimp only at hinside hlocated
    cases hresult : routine.result text with
    | error stop =>
      rw [hresult] at hlocated
      cases hlocated
    | ok found =>
      rw [hresult] at hfollows hinside hlocated
      obtain ⟨rfl, rfl⟩ := Prod.mk.inj (Except.ok.inj hlocated)
      exact ⟨found.2, hinside, rfl, hfollows⟩

theorem follows_of_passes {routine : Routine} {point : Program routine.Value × Nat}
    (htext : text <:+ source) (h : Passes source routine (placeOf source text) point) :
    ∃ rest, rest <:+ text ∧ point.2 = placeOf source rest ∧
      point.1.Follows source (routine, text) rest (routine.result text) := by
  induction h with
  | refl => exact ⟨text, List.suffix_rfl, rfl, follows_program routine text⟩
  | @tail before after _ hnext ih =>
    obtain ⟨rest, hrest, hcursor, hfollows⟩ := ih
    obtain ⟨p, cursor⟩ := before
    obtain rfl : cursor = placeOf source rest := hcursor
    obtain ⟨further, hfurther, hplace, hfollows⟩ := hfollows.next htext hrest hnext
    exact ⟨further, hfurther.trans hrest, hplace, hfollows⟩

theorem lower_of_calls {routine : Routine} {callee : Routine × Nat} (htext : text <:+ source)
    (h : Calls source (routine, placeOf source text) callee) :
    ∃ rest, rest <:+ text ∧ callee.2 = placeOf source rest ∧
      Lower (routine, text) (callee.1, rest) := by
  obtain ⟨next, hpasses⟩ := h
  obtain ⟨rest, hrest, hplace, hless, -⟩ := follows_of_passes htext hpasses
  exact ⟨rest, hrest, hplace, hless⟩

theorem Lower.trans {a b c : Start} (h : Lower a b) (h' : Lower b c) (hb : b.2 <:+ a.2)
    (hc : c.2 <:+ b.2) : Lower a c := by
  have hlength := hb.length_le
  have hlength' := hc.length_le
  unfold Lower at *
  omega

theorem lower_of_chain {routine : Routine} {callee : Routine × Nat} (htext : text <:+ source)
    (h : Relation.TransGen (Calls source) (routine, placeOf source text) callee) :
    ∃ rest, rest <:+ text ∧ callee.2 = placeOf source rest ∧
      Lower (routine, text) (callee.1, rest) := by
  induction h with
  | single hcalls => exact lower_of_calls htext hcalls
  | @tail between callee _ hcalls ih =>
    obtain ⟨rest, hrest, hplace, hless⟩ := ih
    obtain ⟨middle, cursor⟩ := between
    obtain rfl : cursor = placeOf source rest := hplace
    obtain ⟨further, hfurther, hplace, hlower⟩ := lower_of_calls (hrest.trans htext) hcalls
    exact ⟨further, hfurther.trans hrest, hplace, hless.trans hlower hrest hfurther⟩

theorem exists_rest_of_started {start : Routine × Nat} (h : Started source start) :
    ∃ rest, rest <:+ source ∧ start.2 = placeOf source rest := by
  rcases Relation.reflTransGen_iff_eq_or_transGen.mp h with rfl | hchain
  · exact ⟨source, List.suffix_rfl, (placeOf_self source).symm⟩
  · rw [← placeOf_self source] at hchain
    obtain ⟨rest, hrest, hplace, -⟩ := lower_of_chain List.suffix_rfl hchain
    exact ⟨rest, hrest, hplace⟩

theorem evaluateChars_eq_located (source : List Char) :
    evaluateChars source =
      ((located source (Routine.result .whole source)).map Prod.fst).mapError NotLiteral.mk := by
  rw [evaluateChars, Routine.result, result]
  cases readSum source with
  | error stop => rfl
  | ok found =>
    obtain ⟨value, rest, h⟩ := found
    dsimp only [Except.map, Except.bind]
    cases skipBlanks rest <;> rfl

/-- An expression is evaluated by one finite run of the routines, which has no other outcome. Each
routine that is started in it comes to an end and takes the cursor forward between two characters
only; a chain of calls that leads from a routine to itself, be it through others or round a loop, has
moved the cursor on; and where an expression is refused, that is at a position between two
characters. -/
theorem evaluate_consumes (expression : String) :
    (∃ outcome, Runs expression.toList (program .whole) 0 outcome ∧
      (∀ other, Runs expression.toList (program .whole) 0 other → other = outcome) ∧
      evaluate expression = (outcome.map Prod.fst).mapError NotLiteral.mk) ∧
    (∀ routine start, Started expression.toList (routine, start) →
      (∃ outcome, Runs expression.toList (program routine) start outcome) ∧
      ∀ point, Passes expression.toList routine start point →
        start ≤ point.2 ∧ point.2 ≤ byteLength expression.toList ∧
          IsBoundary expression.toList point.2) ∧
    (∀ caller callee, Started expression.toList caller →
      Relation.TransGen (Calls expression.toList) caller callee →
        caller.1.kind = callee.1.kind → caller.2 < callee.2) ∧
    ∀ error, evaluate expression = .error error →
      error.offset ≤ byteLength expression.toList ∧
        IsBoundary expression.toList error.offset := by
  obtain ⟨hinside, hruns⟩ := settles (.whole, expression.toList) List.suffix_rfl
  dsimp only at hinside hruns
  rw [placeOf_self] at hruns
  refine ⟨⟨_, hruns, fun other hother => hother.unique hruns, evaluateChars_eq_located _⟩,
    ?_, ?_, ?_⟩
  · intro routine start hstarted
    obtain ⟨text, htext, rfl⟩ := exists_rest_of_started hstarted
    refine ⟨⟨_, (settles (routine, text) htext).2⟩, fun point hpasses => ?_⟩
    obtain ⟨rest, hrest, hplace, -⟩ := follows_of_passes htext hpasses
    have hboundary := isBoundary_placeOf (hrest.trans htext)
    rw [hplace]
    exact ⟨placeOf_le hrest htext, hboundary.le, hboundary⟩
  · rintro ⟨routine, start⟩ ⟨again, behind⟩ hstarted hchain hsame
    obtain ⟨text, htext, rfl⟩ := exists_rest_of_started hstarted
    obtain ⟨rest, hrest, hplace, hless | hrank⟩ := lower_of_chain htext hchain
    · exact hplace ▸ placeOf_lt hrest hless htext
    · dsimp only at hsame hrank
      rw [hsame] at hrank
      exact absurd hrank (Nat.lt_irrefl _)
  · intro error herror
    rw [evaluate, evaluateChars_eq_located] at herror
    cases hresult : Routine.result .whole expression.toList with
    | ok found =>
      rw [hresult] at herror
      cases herror
    | error stop =>
      rw [hresult] at herror hinside
      obtain rfl := Except.error.inj herror
      have hboundary := isBoundary_placeOf hinside
      exact ⟨hboundary.le, hboundary⟩

/-- A sign in front of a letter of two bytes: the second term is read behind the sign, and refused
there. -/
theorem evaluate_consumes_sign :
    let source := "-é".toList
    Started source (.term, 0) ∧ Relation.TransGen (Calls source) (.term, 0) (.term, 1) ∧ 0 < 1 ∧
      evaluate "-é" = .error ⟨1⟩ ∧ 1 ≤ byteLength source ∧ IsBoundary source 1 := by
  intro source
  have hsum : Calls source (.whole, 0) (.sum, 0) := ⟨_, .refl⟩
  have hterm : Calls source (.sum, 0) (.term, 0) := ⟨_, .refl⟩
  have hblanks : Runs source (program .blanks) 0 (.ok ((), 0)) := .look (.done () 0)
  have hagain : Calls source (.term, 0) (.term, 1) :=
    ⟨_, .head (.call _ hblanks) (.head (.look _ _) (.head (.advance _ _ _) .refl))⟩
  have hstarted : Started source (.term, 0) := .head hsum (.head hterm .refl)
  have herror : evaluate "-é" = .error ⟨1⟩ := by with_unfolding_all rfl
  obtain ⟨-, -, hconsumes, hrefuses⟩ := evaluate_consumes "-é"
  exact ⟨hstarted, .single hagain, hconsumes _ _ hstarted (.single hagain) rfl, herror,
    hrefuses _ herror⟩

end TemplateMessages.Expression
