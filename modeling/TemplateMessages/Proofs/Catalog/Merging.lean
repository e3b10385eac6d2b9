import TemplateMessages.Catalog.Translation
import TemplateMessages.Proofs.Table

set_option autoImplicit false

/-!
# Merging catalogs

To look a key up in one table of messages and then in another is to look it up in the two merged,
and merging more messages into the front one is merging them into both. What is merged in wins in
its own locale only.
-/

namespace TemplateMessages.Catalog

open TemplateMessages.Translation

/-- The message of a key in one locale. -/
def messageOf? (messages : LocaleMessages) (locale key : String) : Option String :=
  (messages.get? locale).bind (·.get? key)

def mergeLocale (merged : LocaleMessages) (entry : String × Messages) : LocaleMessages :=
  merged.put entry.1 (((merged.get? entry.1).getD []).putAll entry.2)

variable {messages front back : LocaleMessages}

@[simp] theorem messageOf?_mergeLocale (merged : LocaleMessages) (entry : String × Messages)
    (locale key : String) : messageOf? (mergeLocale merged entry) locale key =
      if locale = entry.1 then (Table.get? entry.2.reverse key).or (messageOf? merged locale key)
      else messageOf? merged locale key := by
  rw [messageOf?, mergeLocale, Table.get?_put]
  split
  · rename_i hlocale
    rw [Option.bind_some, Table.get?_putAll, messageOf?, hlocale]
    cases merged.get? entry.1 <;> rfl
  · rfl

/-- A key has the message of the front table, or else that of the back one. -/
def Overlays (front back messages : LocaleMessages) : Prop :=
  ∀ locale key, messageOf? messages locale key =
    (messageOf? front locale key).or (messageOf? back locale key)

theorem Overlays.mergeLocale (h : Overlays front back messages) (entry : String × Messages) :
    Overlays (mergeLocale front entry) back (mergeLocale messages entry) := by
  intro locale key
  rw [messageOf?_mergeLocale, messageOf?_mergeLocale, h locale key]
  split
  · exact (Option.or_assoc ..).symm
  · rfl

theorem Overlays.merge (h : Overlays front back messages) (other : LocaleMessages) :
    Overlays (merge front other) back (merge messages other) := by
  induction other generalizing front messages with
  | nil => exact h
  | cons entry other ih => exact ih (h.mergeLocale entry)

theorem Overlays.lookup?_eq (h : Overlays front back messages) (locale fallback key : String)
    (asked : Option String) : lookup? back ⟨locale, fallback, front⟩ key asked =
      (Context.localeChain ⟨locale, fallback, front⟩ asked).findSome?
        (messageOf? messages · key) := by
  have hmessage : (messageOf? messages · key) = fun locale =>
      (messageOf? front locale key).or (messageOf? back locale key) :=
    funext fun locale => h locale key
  rw [hmessage]
  rfl

theorem Overlays.translate_eq (h : Overlays front back messages) (locale fallback : String)
    (candidate : Call.Candidate) : translate back ⟨locale, fallback, front⟩ candidate =
      translate messages ⟨locale, fallback, []⟩ candidate := by
  have hlookup (key : String) (asked : Option String) :
      lookup? back ⟨locale, fallback, front⟩ key asked =
        lookup? messages ⟨locale, fallback, []⟩ key asked :=
    h.lookup?_eq locale fallback key asked
  unfold translate
  simp only [hlookup]

structure Distinct (messages : LocaleMessages) : Prop where
  locales : Table.Distinct messages
  keys : ∀ entry ∈ messages, Table.Distinct entry.2

theorem distinct_nil : Distinct [] :=
  ⟨Table.distinct_nil, fun _ h => nomatch h⟩

theorem Distinct.put (h : Distinct messages) (locale : String) {entries : Messages}
    (hentries : Table.Distinct entries) : Distinct (messages.put locale entries) where
  locales := h.locales.put locale entries
  keys entry hentry := by
    rcases Table.mem_put hentry with rfl | hold
    · exact hentries
    · exact h.keys entry hold

mutual

theorem distinct_flatten (path : String) (value : Json) {found : Messages × List Skipped}
    (h : Table.Distinct found.1) : Table.Distinct (flatten path value found).1 := by
  cases value with
  | object members => exact distinct_flattenMembers path members h
  | string text => exact h.put path text
  | null => exact h
  | bool => exact h
  | integer => exact h
  | float => exact h
  | array => exact h

theorem distinct_flattenMembers (path : String) (members : List (String × Json))
    {found : Messages × List Skipped} (h : Table.Distinct found.1) :
    Table.Distinct (flattenMembers path members found).1 := by
  cases members with
  | nil => exact h
  | cons member members =>
    exact distinct_flattenMembers path members (distinct_flatten _ member.2 h)

end

end TemplateMessages.Catalog
