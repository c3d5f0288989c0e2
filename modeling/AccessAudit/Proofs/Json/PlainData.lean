import AccessAudit.Settings.Reader
import Mathlib.Data.List.Basic

/-!
# JSON as plain data

Of several members of one name the last one counts, in a JSON object as well as in the table that
is left of it.  The members with other names do not matter, nor does the order of members with
different names.  A truth value, a string or a list of strings is left of that JSON value only.
-/

namespace AccessAudit

namespace Json

/-- A member counts unless a later one has its name. -/
theorem member?_cons (name : String) (entry : String × Json) (members : List (String × Json)) :
  member? name (.object (entry :: members))
    = (member? name (.object members)).or (if entry.1 = name then some entry.2 else none)
  := by
  simp only [member?, List.filter_cons, beq_iff_eq]
  split
  · rw [List.getLast?_cons]
    cases (members.filter fun entry => entry.1 == name).getLast? <;> rfl
  · rw [Option.or_none]

/-- An object without members of a name has none. -/
theorem member?_eq_none {name : String} {members : List (String × Json)}
    (h : ∀ entry ∈ members, entry.1 ≠ name) :
  member? name (.object members) = none
  := by
  have hfilter : (members.filter fun entry => entry.1 == name) = [] := by
    simpa [List.filter_eq_nil_iff] using h
  rw [member?, hfilter]
  rfl

theorem exists_eq_object_of_member? {name : String} {value member : Json}
    (h : member? name value = some member) :
  ∃ members, value = .object members
  := by
  cases value with
  | object members => exact ⟨members, rfl⟩
  | _ => cases h

/-- In an object with the given entries, in any order and with further ones of other names, a name
has the value that the entries give to it. -/
theorem member?_of_perm {name : String} {value? : Option Json}
    {entries others members : List (String × Json)} (hperm : members.Perm (entries ++ others))
    (hentries : (entries.filter fun entry => entry.1 == name) = value?.toList.map (name, ·))
    (hothers : ∀ entry ∈ others, entry.1 ≠ name) :
  member? name (.object members) = value?
  := by
  have hnone : (others.filter fun entry => entry.1 == name) = [] := by
    simpa [List.filter_eq_nil_iff] using hothers
  have hfilter := hperm.filter fun entry => entry.1 == name
  rw [List.filter_append, hnone, List.append_nil, hentries] at hfilter
  rw [member?]
  cases value? with
  | none => rw [List.perm_nil.mp hfilter]; rfl
  | some value => rw [List.perm_singleton.mp hfilter]; rfl

end Json

namespace Data

/-! ### Tables -/

/-- The first entry counts if it has the name. -/
theorem lookup_cons {α : Type} (name : String) (entry : String × α) (entries : List (String × α)) :
  List.lookup name (entry :: entries)
    = if entry.1 = name then some entry.2 else List.lookup name entries
  := by
  rw [List.lookup_cons]
  by_cases h : entry.1 = name
  · rw [if_pos h, beq_iff_eq.mpr h.symm]
  · rw [if_neg h, beq_eq_false_iff_ne.mpr (Ne.symm h)]

/-- A table has the value that was put last under a name. -/
@[simp]
theorem lookup_put {α : Type} (entries : List (String × α)) (name other : String) (value : α) :
  List.lookup name (put entries other value)
    = if other = name then some value else List.lookup name entries
  := by
  unfold put
  induction entries with
  | nil => exact lookup_cons name (other, value) []
  | cons entry entries ih =>
    rw [List.filter_cons, lookup_cons]
    by_cases hentry : entry.1 = other
    · -- The entry is taken out, and the new value stands for its name.
      rw [if_neg (by simp [hentry]), ih, hentry]
      split <;> rfl
    · rw [if_pos (by simp [hentry]), List.cons_append, lookup_cons, ih]
      by_cases hname : entry.1 = name
      · rw [if_pos hname, if_pos hname, if_neg fun h => hentry (hname.trans h.symm)]
      · rw [if_neg hname, if_neg hname]

/-- A table has under a name what the last member of the name stands for. -/
theorem lookup_ofMembers (name : String) (members : List (String × Json))
    (entries : List (String × Data)) :
  List.lookup name (ofMembers members entries)
    = ((Json.member? name (.object members)).map ofJson).or (List.lookup name entries)
  := by
  induction members generalizing entries with
  | nil => rfl
  | cons entry members ih =>
    obtain ⟨other, value⟩ := entry
    rw [ofMembers, ih, lookup_put, Json.member?_cons]
    cases Json.member? name (.object members) with
    | none =>
      by_cases h : other = name <;> simp [h]
    | some v => rfl

theorem fields?_ofJson_object (f : Format) (names : List String) (members : List (String × Json)) :
  f.fields? names (ofJson (.object members))
    = some (names.map fun name => (Json.member? name (.object members)).map ofJson)
  := by
  simp only [ofJson, Format.fields?, lookup_ofMembers, List.lookup_nil, Option.or_none]

/-! ### Values -/

@[simp]
theorem bool?_ofJson_eq_some_iff {value : Json} {b : Bool} :
  bool? (ofJson value) = some b ↔ value = .bool b
  := by
  cases value <;> simp [ofJson, bool?]

@[simp]
theorem string?_ofJson_eq_some_iff {value : Json} {text : String} :
  string? (ofJson value) = some text ↔ value = .string text
  := by
  cases value <;> simp [ofJson, string?]

/-- Strings are left of these strings only. -/
theorem mapM_string?_ofItems_eq_some_iff {items : List Json} {texts : List String} :
  (ofItems items).mapM string? = some texts ↔ items = texts.map .string
  := by
  induction items generalizing texts with
  | nil => cases texts <;> simp [ofItems]
  | cons item items ih =>
    rw [ofItems, List.mapM_cons]
    cases texts with
    | nil => simp [Option.bind_eq_some_iff]
    | cons text texts => simp [Option.bind_eq_some_iff, ih]

@[simp]
theorem strings?_ofJson_eq_some_iff {value : Json} {texts : List String} :
  strings? (ofJson value) = some texts ↔ value = .array (texts.map .string)
  := by
  cases value <;> simp [ofJson, strings?, mapM_string?_ofItems_eq_some_iff]

end Data

end AccessAudit
