import AccessAudit.Json.Reader

/-!
# Plain data

What is left of a settings file when its notation is forgotten: truth values, strings, lists and
tables.  Numbers and dates are told apart from the rest, but no setting has one as its value, so
nothing more is kept of them.
-/

namespace AccessAudit

/-- A value of a settings file. -/
inductive Data where
  | null
  | bool (value : Bool)
  | number
  | date
  | string (text : String)
  | list (items : List Data)
  | table (entries : List (String × Data))
  deriving Repr

namespace Data

/-- A truth value. -/
def bool? : Data → Option Bool
  | .bool value => some value
  | _ => none

/-- A string. -/
def string? : Data → Option String
  | .string text => some text
  | _ => none

/-- A list of strings. -/
def strings? : Data → Option (List String)
  | .list items => items.mapM string?
  | _ => none

/-- Entries with one more, in place of an earlier one of the same name. -/
def put {α : Type} (entries : List (String × α)) (name : String) (value : α) :
    List (String × α) :=
  entries.filter (fun entry => entry.1 != name) ++ [(name, value)]

mutual

/-- A JSON value as plain data; of several members of one name the last one counts. -/
def ofJson : Json → Data
  | .null => .null
  | .bool value => .bool value
  | .number _ => .number
  | .string text => .string text
  | .array items => .list (ofItems items)
  | .object members => .table (ofMembers members [])

/-- All items of an array. -/
def ofItems : List Json → List Data
  | [] => []
  | item :: items => ofJson item :: ofItems items

/-- All members of an object after the entries so far. -/
def ofMembers : List (String × Json) → List (String × Data) → List (String × Data)
  | [], entries => entries
  | (name, value) :: members, entries => ofMembers members (put entries name (ofJson value))

end

end Data

end AccessAudit
