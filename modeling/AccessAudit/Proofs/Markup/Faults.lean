import AccessAudit.Markup.Source

/-!
# Where wrong sources are reported

The tree of a wrong source is searched from a list of trees that are still to be seen, and trees
without faults are not entered.  What is found is the first faulty node in document order, and the
report of the source has its place and its wording.
-/

namespace AccessAudit.Markup

mutual

/-- The nodes of a tree in document order, each with what is below it. -/
def FaultyTree.preorder : FaultyTree → List FaultyTree
  | .node fault line column text children =>
    .node fault line column text children :: preorderAll children

/-- The nodes of several trees, one tree after the other. -/
def FaultyTree.preorderAll : List FaultyTree → List FaultyTree
  | [] => []
  | t :: ts => t.preorder ++ preorderAll ts

end

namespace FaultyTree

/-- Whether a node is faulty itself. -/
def isFaulty (t : FaultyTree) : Bool :=
  t.fault.isSome

@[simp]
theorem preorderAll_append (ts us : List FaultyTree) :
  preorderAll (ts ++ us) = preorderAll ts ++ preorderAll us
  := by
  induction ts with
  | nil => rw [List.nil_append, preorderAll, List.nil_append]
  | cons t ts ih => rw [List.cons_append, preorderAll, preorderAll, ih, List.append_assoc]

mutual

theorem hasFault_eq : (t : FaultyTree) → t.hasFault = t.preorder.any isFaulty
  | .node fault line column text children => by
    rw [hasFault, preorder, List.any_cons, anyFault_eq children]
    rfl

theorem anyFault_eq : (ts : List FaultyTree) → anyFault ts = (preorderAll ts).any isFaulty
  | [] => rfl
  | t :: ts => by
    rw [anyFault, preorderAll, List.any_append, hasFault_eq t, anyFault_eq ts]

end

/-- The search gives the first faulty node in document order of the trees that are to be seen. -/
theorem firstFaulty?_eq (pending : List FaultyTree) :
  firstFaulty? pending = (preorderAll pending).find? isFaulty
  := by
  fun_induction firstFaulty? pending with
  | case1 => rfl
  | case2 fault line column text children rest hfault =>
    have hroot : isFaulty (.node fault line column text children) = true := hfault
    rw [preorderAll, preorder, List.cons_append, List.find?_cons_of_pos hroot]
  | case3 fault line column text children rest hfault _ ih =>
    have hroot : ¬ isFaulty (.node fault line column text children) = true := hfault
    rw [ih, preorderAll, preorder, List.cons_append, List.find?_cons_of_neg hroot,
      preorderAll_append]
  | case4 fault line column text children rest hfault hnone ih =>
    -- No node below the first tree is faulty, so that nothing is missed by passing it over.
    rw [anyFault_eq, Bool.not_eq_true, List.any_eq_false] at hnone
    have hbelow : (preorderAll children).find? isFaulty = none := List.find?_eq_none.mpr hnone
    have hroot : ¬ isFaulty (.node fault line column text children) = true := hfault
    rw [ih, preorderAll, preorder, List.cons_append, List.find?_cons_of_neg hroot,
      List.find?_append, hbelow, Option.none_or]

/-- The tree at which a wrong source is reported is the first faulty node, or the whole tree if
there is no faulty node. -/
theorem culprit_eq (t : FaultyTree) :
  t.culprit = (t.preorder.find? isFaulty).getD t
  := by
  rw [culprit, firstFaulty?_eq, preorderAll, preorderAll, List.append_nil]

end FaultyTree

variable {parser : Parser} {d : Dialect} {path source : String}

/-- A wrong source is reported at the place and with the wording of the first faulty node, in document
order, of the tree that the parser gives. -/
theorem Page.read_of_faulty {t u : FaultyTree} (h : parser.parse d source = .error t)
    (hu : t.preorder.find? FaultyTree.isFaulty = some u) :
  Page.read parser d path source = .error ⟨path, u.line, u.column, u.message⟩
  := by
  rw [Page.read, h]
  simp only [SyntaxError.ofFaults, FaultyTree.culprit_eq, hu, Option.getD_some]

end AccessAudit.Markup
