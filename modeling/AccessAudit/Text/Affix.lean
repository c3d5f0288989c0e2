/-!
# Beginnings of a text

What is left of a text after a given beginning, and whether one text stands inside another.
-/

namespace AccessAudit.Text

/-- The rest of a list after the beginning `lead`. -/
def rest? {α : Type} [DecidableEq α] : List α → List α → Option (List α)
  | [], s => some s
  | _ :: _, [] => none
  | a :: lead, c :: s => if a = c then rest? lead s else none

@[simp]
theorem rest?_append {α : Type} [DecidableEq α] (lead s : List α) :
  rest? lead (lead ++ s) = some s
  := by
  induction lead with
  | nil => rfl
  | cons a lead ih => simp [rest?, ih]

/-- A text that has a rest after `lead` is `lead` followed by it. -/
theorem eq_append_of_rest? {α : Type} [DecidableEq α] {lead s r : List α}
    (h : rest? lead s = some r) :
  s = lead ++ r
  := by
  fun_induction rest? lead s with
  | case1 s => simpa using h
  | case2 => simp at h
  | case3 lead c s ih => simpa using ih h
  | case4 => simp at h

/-- The rest of a string after the beginning `lead`. -/
def after? (lead s : String) : Option String :=
  (rest? lead.toList s.toList).map String.ofList

/-- Whether `part` stands somewhere inside a list. -/
def occurs {α : Type} [DecidableEq α] (part : List α) : List α → Bool
  | [] => part.isEmpty
  | c :: s => (rest? part (c :: s)).isSome || occurs part s

end AccessAudit.Text
