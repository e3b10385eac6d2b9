import Mathlib.Data.List.Forall2
import Mathlib.Data.List.Perm.Subperm
import TemplateMessages.Table

set_option autoImplicit false

/-!
# Entries of tables

What is put into a table is all that is ever in it. A table that is filled name by name has every
name once. Tables that are filled alike from related values stay related.
-/

namespace TemplateMessages.Table

variable {α : Type} {name : String} {value : α} {entry : String × α}

theorem mem_of_get? {table : Table α} (h : table.get? name = some value) :
    ∃ entry ∈ table, entry.2 = value := by
  obtain ⟨entry, hfind, rfl⟩ := Option.map_eq_some_iff.mp h
  exact ⟨entry, List.mem_of_find?_eq_some hfind, rfl⟩

theorem mem_of_get?_eq {table : Table α} (h : table.get? name = some value) :
    (name, value) ∈ table := by
  obtain ⟨entry, hfind, rfl⟩ := Option.map_eq_some_iff.mp h
  have hkey := List.find?_some hfind
  obtain rfl : entry.1 = name := eq_of_beq hkey
  exact List.mem_of_find?_eq_some hfind

theorem mem_put {table : Table α} (h : entry ∈ table.put name value) :
    entry = (name, value) ∨ entry ∈ table := by
  induction table with
  | nil => exact Or.inl (List.mem_singleton.mp h)
  | cons first entries ih =>
    rw [put] at h
    split at h
    · exact (List.mem_cons.mp h).imp id (List.mem_cons_of_mem first)
    · rcases List.mem_cons.mp h with rfl | htail
      · exact Or.inr List.mem_cons_self
      · exact (ih htail).imp id (List.mem_cons_of_mem first)

theorem mem_putAll {table other : Table α} (h : entry ∈ table.putAll other) :
    entry ∈ table ∨ entry ∈ other := by
  induction other generalizing table with
  | nil => exact Or.inl h
  | cons first entries ih =>
    rcases ih h with hput | htail
    · rcases mem_put hput with rfl | htable
      · exact Or.inr List.mem_cons_self
      · exact Or.inl htable
    · exact Or.inr (List.mem_cons_of_mem first htail)

theorem mem_ofList {entries : List (String × α)} (h : entry ∈ ofList entries) : entry ∈ entries :=
  (mem_putAll h).resolve_left List.not_mem_nil

theorem mem_keys_iff {table : Table α} :
    name ∈ table.map Prod.fst ↔ (table.get? name).isSome := by
  rw [get?, Option.isSome_map, List.find?_isSome, List.mem_map]
  simp only [beq_iff_eq]

@[simp] theorem get?_append (table other : Table α) (name : String) :
    get? (table ++ other) name = (get? table name).or (get? other name) := by
  rw [get?, List.find?_append]
  cases hfind : table.find? (·.1 == name) <;> simp [get?, hfind]

@[simp] theorem get?_singleton (entry : String × α) (name : String) :
    get? [entry] name = if name = entry.1 then some entry.2 else none := by
  by_cases h : name = entry.1
  · simp [get?, h]
  · simp [get?, h, Ne.symm h]

/-- Of several values under a name the last one counts. -/
@[simp] theorem get?_putAll (table other : Table α) (name : String) :
    (table.putAll other).get? name = (get? other.reverse name).or (table.get? name) := by
  induction other generalizing table with
  | nil => rfl
  | cons entry entries ih =>
    change (putAll (table.put entry.1 entry.2) entries).get? name = _
    rw [ih, get?_put, List.reverse_cons, get?_append, get?_singleton, Option.or_assoc]
    split <;> rfl

@[simp] theorem get?_ofList (entries : List (String × α)) (name : String) :
    (ofList entries).get? name = get? entries.reverse name := by
  rw [ofList, get?_putAll]
  exact Option.or_none

@[simp] theorem mem_keys_ofList {entries : List (String × α)} :
    name ∈ (ofList entries).map Prod.fst ↔ name ∈ entries.map Prod.fst := by
  rw [mem_keys_iff, get?_ofList, ← mem_keys_iff, List.map_reverse, List.mem_reverse]

def Distinct (table : Table α) : Prop :=
  (table.map Prod.fst).Nodup

theorem distinct_nil : Distinct ([] : Table α) :=
  List.nodup_nil

@[simp] theorem distinct_cons {table : Table α} :
    Distinct (entry :: table) ↔ table.get? entry.1 = none ∧ Distinct table := by
  rw [Distinct, List.map_cons, List.nodup_cons, mem_keys_iff, Option.not_isSome_iff_eq_none]
  rfl

@[simp] theorem get?_cons (table : Table α) (key : String) :
    get? (entry :: table) key = if key = entry.1 then some entry.2 else table.get? key := by
  rw [← List.singleton_append, get?_append, get?_singleton]
  split <;> rfl

theorem Distinct.put {table : Table α} (h : table.Distinct) (name : String) (value : α) :
    (table.put name value).Distinct := by
  induction table with
  | nil => exact List.nodup_cons.mpr ⟨List.not_mem_nil, List.nodup_nil⟩
  | cons first entries ih =>
    obtain ⟨hfirst, hentries⟩ := distinct_cons.mp h
    rw [Table.put]
    split
    · rename_i hname
      exact distinct_cons.mpr ⟨hname ▸ hfirst, hentries⟩
    · rename_i hname
      refine distinct_cons.mpr ⟨?_, ih hentries⟩
      simpa [if_neg hname] using hfirst

/-- Which of the values under a name counts makes no difference where there is only one. -/
theorem Distinct.get?_reverse {table : Table α} (h : table.Distinct) (key : String) :
    get? table.reverse key = table.get? key := by
  induction table with
  | nil => rfl
  | cons first entries ih =>
    obtain ⟨hfirst, hentries⟩ := distinct_cons.mp h
    rw [List.reverse_cons, get?_append, get?_singleton, get?_cons, ih hentries]
    split
    · rename_i hkey
      rw [hkey, hfirst]
      rfl
    · exact Option.or_none

theorem Distinct.get?_of_mem {table : Table α} (h : table.Distinct) (hmem : (name, value) ∈ table) :
    table.get? name = some value := by
  induction table with
  | nil => cases hmem
  | cons first entries ih =>
    obtain ⟨hfirst, hentries⟩ := distinct_cons.mp h
    rw [get?_cons]
    rcases List.mem_cons.mp hmem with rfl | htail
    · exact if_pos rfl
    · rw [if_neg, ih hentries htail]
      rintro rfl
      rw [ih hentries htail] at hfirst
      cases hfirst

theorem Distinct.putAll {table : Table α} (h : table.Distinct) (other : Table α) :
    (table.putAll other).Distinct := by
  induction other generalizing table with
  | nil => exact h
  | cons first entries ih => exact ih (h.put first.1 first.2)

/-- A table has all the entries that are put in just when their names are different. -/
theorem length_ofList_eq_iff {entries : List (String × α)} :
    (ofList entries).length = entries.length ↔ Distinct entries := by
  have hnodup : ((ofList entries).map Prod.fst).Nodup := distinct_nil.putAll entries
  constructor
  · intro hlength
    have hsubset : (ofList entries).map Prod.fst ⊆ entries.map Prod.fst := fun _ hname =>
      mem_keys_ofList.mp hname
    have hperm := (hnodup.subperm hsubset).perm_of_length_le (by simp [hlength])
    exact hperm.nodup_iff.mp hnodup
  · intro h
    have hperm := (List.perm_ext_iff_of_nodup hnodup h).mpr fun _ => mem_keys_ofList
    simpa using hperm.length_eq

section

variable {β : Type} {R : α → β → Prop} {table entries : Table α} {other more : Table β}

/-- The same names in the same order, and related values under them. -/
def Related (R : α → β → Prop) (table : Table α) (other : Table β) : Prop :=
  List.Forall₂ (fun a b => a.1 = b.1 ∧ R a.2 b.2) table other

theorem Related.get? (h : Related R table other) (key : String) :
    Option.Rel R (table.get? key) (other.get? key) := by
  induction h with
  | nil => exact .none
  | @cons a b table other hfirst _ ih =>
    unfold Table.get? at *
    rw [List.find?_cons, List.find?_cons, ← hfirst.1]
    cases a.1 == key with
    | true => exact .some hfirst.2
    | false => exact ih

theorem Related.keys_eq (h : Related R table other) :
    table.map Prod.fst = other.map Prod.fst := by
  induction h with
  | nil => rfl
  | cons hfirst _ ih => rw [List.map_cons, List.map_cons, hfirst.1, ih]

theorem Related.put (h : Related R table other) {a : α} {b : β} (hvalue : R a b) (key : String) :
    Related R (table.put key a) (other.put key b) := by
  induction h with
  | nil => exact .cons ⟨rfl, hvalue⟩ .nil
  | @cons first second table other hfirst hrest ih =>
    rw [Table.put, Table.put, ← hfirst.1]
    by_cases hkey : first.1 = key
    · rw [if_pos hkey, if_pos hkey]
      exact .cons ⟨rfl, hvalue⟩ hrest
    · rw [if_neg hkey, if_neg hkey]
      exact .cons hfirst ih

theorem Related.putAll (h : Related R table other) (hentries : Related R entries more) :
    Related R (table.putAll entries) (other.putAll more) := by
  induction hentries generalizing table other with
  | nil => exact h
  | @cons a b entries more hfirst _ ih =>
    have hput : Related R (table.put a.1 a.2) (other.put b.1 b.2) := by
      rw [← hfirst.1]
      exact h.put hfirst.2 a.1
    exact ih hput

theorem Related.ofList (h : Related R entries more) :
    Related R (Table.ofList entries) (Table.ofList more) :=
  Related.putAll .nil h

end

end TemplateMessages.Table
