import TemplateMessages.Catalog.Messages
import TemplateMessages.Proofs.Table

set_option autoImplicit false

/-!
# Leaves of a catalog

The leaves of a catalog are its values that are no objects. Each string among them is put under its
path, joined by points, and each other one is warned about. Where two strings come to one key the
first of them is lost, and the empty names that a path starts with are no part of its key.
-/

namespace TemplateMessages.Catalog

structure Leaf where
  path : List String
  value : Json

namespace Leaf

def under (name : String) (leaf : Leaf) : Leaf :=
  ⟨name :: leaf.path, leaf.value⟩

def text? : Leaf → Option String
  | ⟨_, .string text⟩ => some text
  | _ => none

end Leaf

mutual

def leaves : Json → List Leaf
  | .object members => memberLeaves members
  | value => [⟨[], value⟩]

def memberLeaves : List (String × Json) → List Leaf
  | [] => []
  | (name, value) :: members => (leaves value).map (Leaf.under name) ++ memberLeaves members

end

def stringLeaves (value : Json) : List Leaf :=
  (leaves value).filter (·.text?.isSome)

def otherLeaves (value : Json) : List Leaf :=
  (leaves value).filter (·.text?.isNone)

def dotted (path : List String) : String :=
  ".".intercalate path

def storedKey (path : List String) : String :=
  dotted (path.dropWhile String.isEmpty)

def entries (leaves : List Leaf) : List (String × String) :=
  leaves.filterMap fun leaf => leaf.text?.map (storedKey leaf.path, ·)

def Skipped.key? : Skipped → Option String
  | .notString key _ => some key
  | .localeNotObject _ => none

/-- Each leaf is told of: a string as the message of its path, or else by a warning, and any other
value by one warning of its own. -/
structure Accounted (value : Json) (messages : Messages) (skipped : List Skipped) : Prop where
  strings : ∀ leaf ∈ leaves value, ∀ text, leaf.text? = some text →
    messages.get? (dotted leaf.path) = some text ∨
      ∃ warning ∈ skipped, warning.key? = some (dotted leaf.path)
  others : List.Forall₂ (fun leaf warning => ∃ key, warning = Skipped.notString key leaf.value)
    (otherLeaves value) skipped
  count : messages.length + skipped.length = (leaves value).length

def warnings (leaves : List Leaf) : List Skipped :=
  (leaves.filter (·.text?.isNone)).map fun leaf => .notString (storedKey leaf.path) leaf.value

theorem foldl_memberKey_of_ne {key : String} (h : key ≠ "") (path : List String) :
    path.foldl memberKey key = dotted (key :: path) := by
  induction path generalizing key with
  | nil => exact String.intercalate_singleton.symm
  | cons name path ih =>
    have hkey : memberKey key name = key ++ "." ++ name := by
      rw [memberKey, if_neg (by simpa using h)]
    rw [List.foldl_cons, hkey, ih (by simp), dotted, dotted, String.intercalate_cons_append,
      String.intercalate_cons_cons]

theorem foldl_memberKey (path : List String) : path.foldl memberKey "" = storedKey path := by
  induction path with
  | nil => rfl
  | cons name path ih =>
    have hkey : memberKey "" name = name := rfl
    rw [List.foldl_cons, hkey, storedKey]
    by_cases hname : name = ""
    · rw [hname, ih, List.dropWhile_cons_of_pos (by rfl), storedKey]
    · rw [foldl_memberKey_of_ne hname, List.dropWhile_cons_of_neg (by simpa using hname)]

def addLeaf (key : String) (found : Messages × List Skipped) (leaf : Leaf) :
    Messages × List Skipped :=
  match leaf.value with
  | .string text => (found.1.put (leaf.path.foldl memberKey key) text, found.2)
  | other => (found.1, found.2 ++ [.notString (leaf.path.foldl memberKey key) other])

mutual

theorem flatten_eq_foldl (key : String) (value : Json) (found : Messages × List Skipped) :
    flatten key value found = (leaves value).foldl (addLeaf key) found := by
  cases value with
  | object members => exact flattenMembers_eq_foldl key members found
  | string text => rfl
  | null => rfl
  | bool => rfl
  | integer => rfl
  | float => rfl
  | array => rfl

theorem flattenMembers_eq_foldl (key : String) (members : List (String × Json))
    (found : Messages × List Skipped) :
    flattenMembers key members found = (memberLeaves members).foldl (addLeaf key) found := by
  cases members with
  | nil => rfl
  | cons member members =>
    obtain ⟨name, value⟩ := member
    rw [flattenMembers, flattenMembers_eq_foldl key members, flatten_eq_foldl, memberLeaves,
      List.foldl_append, List.foldl_map]
    rfl

end

theorem foldl_addLeaf (leaves : List Leaf) (found : Messages × List Skipped) :
    leaves.foldl (addLeaf "") found =
      (found.1.putAll (entries leaves), found.2 ++ warnings leaves) := by
  induction leaves generalizing found with
  | nil => simp [entries, warnings, Table.putAll]
  | cons leaf leaves ih =>
    rw [List.foldl_cons, ih]
    obtain ⟨path, value⟩ := leaf
    cases value <;>
      simp [addLeaf, entries, warnings, Leaf.text?, Table.putAll, foldl_memberKey]

theorem flatten_eq (value : Json) :
    flatten "" value ([], []) =
      (Table.ofList (entries (leaves value)), warnings (leaves value)) := by
  rw [flatten_eq_foldl, foldl_addLeaf]
  rfl

variable {value : Json} {text : List Char} {messages : Messages} {skipped : List Skipped}

theorem keys_entries (leaves : List Leaf) :
    (entries leaves).map Prod.fst = (leaves.filter (·.text?.isSome)).map (storedKey ·.path) := by
  induction leaves with
  | nil => rfl
  | cons leaf leaves ih =>
    rw [entries] at ih ⊢
    cases htext : leaf.text? <;> simp [htext, ih]

theorem mem_entries {leaves : List Leaf} {key text : String} :
    (key, text) ∈ entries leaves ↔
      ∃ leaf ∈ leaves, leaf.text? = some text ∧ storedKey leaf.path = key := by
  simp only [entries, List.mem_filterMap, Option.map_eq_some_iff, Prod.mk.injEq]
  exact exists_congr fun leaf => and_congr_right fun _ =>
    ⟨fun ⟨_, htext, hkey, heq⟩ => ⟨heq ▸ htext, hkey⟩, fun ⟨htext, hkey⟩ => ⟨_, htext, hkey, rfl⟩⟩

theorem length_entries_add (leaves : List Leaf) :
    (entries leaves).length + (warnings leaves).length = leaves.length := by
  induction leaves with
  | nil => rfl
  | cons leaf leaves ih =>
    simp only [entries, warnings] at ih ⊢
    cases htext : leaf.text? <;> simp [htext] at ih ⊢ <;> omega

theorem exists_warning_iff {leaves : List Leaf} {key : String} :
    (∃ warning ∈ warnings leaves, warning.key? = some key) ↔
      ∃ leaf ∈ leaves, leaf.text? = none ∧ storedKey leaf.path = key := by
  simp [warnings, Skipped.key?, and_assoc]

theorem forall₂_warnings (leaves : List Leaf) :
    List.Forall₂ (fun leaf warning => ∃ key, warning = Skipped.notString key leaf.value)
      (leaves.filter (·.text?.isNone)) (warnings leaves) := by
  rw [warnings, List.forall₂_map_right_iff, List.forall₂_same]
  exact fun leaf _ => ⟨_, rfl⟩

/-- Every leaf is told of just when the strings come to different keys, and the path of each string
is the key of a string with that text or of a value that is no string. -/
theorem accounted_iff :
    Accounted value (Table.ofList (entries (leaves value))) (warnings (leaves value)) ↔
      ((stringLeaves value).map (storedKey ·.path)).Nodup ∧
        ∀ leaf ∈ leaves value, ∀ text, leaf.text? = some text →
          ∃ other ∈ leaves value, storedKey other.path = dotted leaf.path ∧
            (other.text? = some text ∨ other.text? = none) := by
  have hcount : (Table.ofList (entries (leaves value))).length + (warnings (leaves value)).length =
      (leaves value).length ↔ ((stringLeaves value).map (storedKey ·.path)).Nodup := by
    rw [stringLeaves, ← keys_entries, ← length_entries_add (leaves value), Nat.add_right_cancel_iff]
    exact Table.length_ofList_eq_iff
  -- the count says that no key is put in twice, and only then does each string stay
  constructor
  · intro h
    refine ⟨hcount.mp h.count, fun leaf hleaf text htext => ?_⟩
    rcases h.strings leaf hleaf text htext with hget | hwarning
    · rw [Table.get?_ofList] at hget
      obtain ⟨other, hother, hsame, hkey⟩ :=
        mem_entries.mp (List.mem_reverse.mp (Table.mem_of_get?_eq hget))
      exact ⟨other, hother, hkey, .inl hsame⟩
    · obtain ⟨other, hother, hnone, hkey⟩ := exists_warning_iff.mp hwarning
      exact ⟨other, hother, hkey, .inr hnone⟩
  · rintro ⟨hnodup, hstrings⟩
    refine ⟨fun leaf hleaf text htext => ?_, forall₂_warnings _, hcount.mpr hnodup⟩
    obtain ⟨other, hother, hkey, hsame | hnone⟩ := hstrings leaf hleaf text htext
    · left
      have hdistinct : Table.Distinct (entries (leaves value)) := by
        rw [Table.Distinct, keys_entries]
        exact hnodup
      rw [Table.get?_ofList, hdistinct.get?_reverse]
      exact hdistinct.get?_of_mem (mem_entries.mpr ⟨other, hother, hsame, hkey⟩)
    · exact .inr (exists_warning_iff.mpr ⟨other, hother, hnone, hkey⟩)

/-- The path does not start with an empty name, unless that is all of it. -/
def PlainPath (path : List String) : Prop :=
  ∀ rest, path = "" :: rest → rest = []

theorem storedKey_of_plainPath {path : List String} (h : PlainPath path) :
    storedKey path = dotted path := by
  cases path with
  | nil => rfl
  | cons name rest =>
    by_cases hname : name = ""
    · obtain rfl := h rest (by rw [hname])
      rw [hname]
      rfl
    · rw [storedKey, List.dropWhile_cons_of_neg (by simpa using hname)]

theorem accounted_iff_of_plainPath (h : ∀ leaf ∈ stringLeaves value, PlainPath leaf.path) :
    Accounted value (Table.ofList (entries (leaves value))) (warnings (leaves value)) ↔
      ((stringLeaves value).map (dotted ·.path)).Nodup := by
  have hkeys : (stringLeaves value).map (storedKey ·.path) =
      (stringLeaves value).map (dotted ·.path) :=
    List.map_congr_left fun leaf hleaf => storedKey_of_plainPath (h leaf hleaf)
  rw [accounted_iff, hkeys]
  refine and_iff_left fun leaf hleaf text htext => ⟨leaf, hleaf, ?_, .inl htext⟩
  exact storedKey_of_plainPath (h leaf (List.mem_filter.mpr ⟨hleaf, by rw [htext]; rfl⟩))

/-- A catalog has the last string of each key and a warning about each other value. So every leaf is
told of just when the strings come to different keys, and the path of each string is the key of a
string with that text or of a value that is no string; where no path starts with an empty name, just
when the paths of the strings are different when they are joined by points. -/
theorem parseMessages_accounts (h : parseMessages text = .ok (messages, skipped)) :
    ∃ value, Json.parse text = .ok value ∧ value.isObject = true ∧
      (∀ key, messages.get? key = Table.get? (entries (leaves value)).reverse key) ∧
      skipped = warnings (leaves value) ∧
      (Accounted value messages skipped ↔
        ((stringLeaves value).map (storedKey ·.path)).Nodup ∧
          ∀ leaf ∈ leaves value, ∀ text, leaf.text? = some text →
            ∃ other ∈ leaves value, storedKey other.path = dotted leaf.path ∧
              (other.text? = some text ∨ other.text? = none)) ∧
      ((∀ leaf ∈ stringLeaves value, PlainPath leaf.path) →
        (Accounted value messages skipped ↔
          ((stringLeaves value).map (dotted ·.path)).Nodup)) := by
  unfold parseMessages at h
  split at h
  · cases h
  · rename_i value hparse
    split at h
    · rename_i hobject
      rw [flatten_eq, Except.ok.injEq, Prod.mk.injEq] at h
      obtain ⟨rfl, rfl⟩ := h
      exact ⟨value, hparse, hobject, fun key => Table.get?_ofList _ key, rfl, accounted_iff,
        accounted_iff_of_plainPath⟩
    · cases h

/-- A message under an empty name, and another one with the key that is left of its path. -/
def emptyName : List Char :=
  "\x7b\x22\x22: \x7b\x22a\x22: \x22x\x22\x7d, \x22a\x22: \x22y\x22\x7d".toList

theorem parseMessages_accounts_emptyName :
    ∃ value, parseMessages emptyName = .ok ([("a", "y")], []) ∧
      Json.parse emptyName = .ok value ∧
      (leaves value).map (fun leaf => (leaf.path, leaf.text?)) =
        [(["", "a"], some "x"), (["a"], some "y")] ∧
      ¬Accounted value [("a", "y")] [] := by
  have hparts : (parseMessages emptyName).toOption.map (fun found => (found.1, found.2.length)) =
      some ([("a", "y")], 0) := by
    decide +kernel
  have hleaves : (Json.parse emptyName).toOption.map
      (fun value => (leaves value).map fun leaf => (leaf.path, leaf.text?)) =
        some [(["", "a"], some "x"), (["a"], some "y")] := by
    decide +kernel
  cases hresult : parseMessages emptyName with
  | error error =>
    rw [hresult] at hparts
    cases hparts
  | ok found =>
    obtain ⟨messages, skipped⟩ := found
    rw [hresult] at hparts
    obtain ⟨rfl, hskipped⟩ := Prod.mk.inj (Option.some.inj hparts)
    obtain rfl := List.length_eq_zero_iff.mp hskipped
    obtain ⟨value, hparse, -, -, -, hiff, -⟩ := parseMessages_accounts hresult
    rw [hparse] at hleaves
    have hleaves : (leaves value).map (fun leaf => (leaf.path, leaf.text?)) =
        [(["", "a"], some "x"), (["a"], some "y")] :=
      Option.some.inj hleaves
    have hentries : entries (leaves value) = [("a", "x"), ("a", "y")] := by
      have hmapped : entries (leaves value) =
          ((leaves value).map fun leaf => (leaf.path, leaf.text?)).filterMap
            fun leaf => leaf.2.map (storedKey leaf.1, ·) := by
        rw [List.filterMap_map]
        rfl
      rw [hmapped, hleaves]
      decide +kernel
    refine ⟨value, rfl, hparse, hleaves, mt hiff.mp ?_⟩
    rintro ⟨hnodup, -⟩
    rw [stringLeaves, ← keys_entries, hentries] at hnodup
    exact absurd hnodup (by decide)

end TemplateMessages.Catalog
