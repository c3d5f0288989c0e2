import AccessAudit.Markup.Elements

/-!
# Elements in document order

The elements of a tree are collected from a list of trees that are still to be seen.  What comes out
is the list that a recursion over the tree gives: the element that a tree is, if it is one, and then
the elements of its children from first to last.
-/

namespace AccessAudit.Markup

mutual

/-- The elements of a tree, an element before those inside it. -/
def Tree.preorder : Tree → List Element
  | .node kind role first last text children =>
    (element? (.node kind role first last text children)).toList ++ preorderAll children

/-- The elements of several trees, one tree after the other. -/
def Tree.preorderAll : List Tree → List Element
  | [] => []
  | t :: ts => t.preorder ++ preorderAll ts

end

namespace Tree

theorem preorder_eq (t : Tree) :
  t.preorder = (element? t).toList ++ preorderAll t.children
  := by
  cases t
  rw [preorder, children]

@[simp]
theorem preorder_withRole (role : Role) (t : Tree) :
  (t.withRole role).preorder = t.preorder
  := by
  cases t
  rfl

@[simp]
theorem preorderAll_append (ts us : List Tree) :
  preorderAll (ts ++ us) = preorderAll ts ++ preorderAll us
  := by
  induction ts with
  | nil => rw [List.nil_append, preorderAll, List.nil_append]
  | cons t ts ih => rw [List.cons_append, preorderAll, preorderAll, ih, List.append_assoc]

end Tree

/-- Collecting adds the elements of the trees that are still to be seen to those found. -/
theorem collect_eq (found : List Element) (pending : List Tree) :
  collect found pending = found.reverse ++ Tree.preorderAll pending
  := by
  fun_induction collect found pending with
  | case1 found => rw [Tree.preorderAll, List.append_nil]
  | case2 found t rest ih =>
    have honce : (element? t).toList.reverse = (element? t).toList := by
      cases element? t <;> rfl
    rw [ih, Tree.preorderAll, Tree.preorderAll_append, Tree.preorder_eq, List.reverse_append, honce]
    simp only [List.append_assoc]

theorem Tree.elements_eq_preorder (t : Tree) :
  t.elements = t.preorder
  := by
  rw [elements, collect_eq, preorderAll, preorderAll]
  simp

end AccessAudit.Markup
