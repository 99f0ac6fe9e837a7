import Mathlib.Data.List.Forall2
import SearchQuery.Query.SyntaxTree

/-!
# Erasing the layout of a tree

A syntax tree stands for a filter: blanks and parentheses carry no meaning, a group
stands for what is inside it, and what is left of a condition or a combination tells
its filter.  The filter of a tree is unique, and the conditions of the tree are those
of the filter in the same order.
-/

namespace SearchQuery.Query

open Text

namespace SyntaxTree

/-- Blanks and parentheses. -/
def isLayout : SyntaxTree → Bool
  | leaf part => part.role == .blank || part.role == .paren
  | node _ _ => false

/-- The trees that carry meaning. -/
def meaningful (trees : List SyntaxTree) : List SyntaxTree :=
  trees.filter (!·.isLayout)

@[simp]
theorem meaningful_nil : meaningful [] = [] :=
  rfl

@[simp]
theorem meaningful_append (first second : List SyntaxTree) :
    meaningful (first ++ second) = meaningful first ++ meaningful second :=
  List.filter_append first second

@[simp]
theorem meaningful_cons_node (role : Role) (children rest : List SyntaxTree) :
    meaningful (node role children :: rest) = node role children :: meaningful rest :=
  rfl

theorem meaningful_cons_of_isLayout {tree : SyntaxTree} (layout : tree.isLayout = true)
    (rest : List SyntaxTree) : meaningful (tree :: rest) = meaningful rest :=
  List.filter_cons_of_neg (by simp [layout])

theorem meaningful_cons_of_not_isLayout {tree : SyntaxTree} (meant : tree.isLayout = false)
    (rest : List SyntaxTree) : meaningful (tree :: rest) = tree :: meaningful rest :=
  List.filter_cons_of_pos (by simp [meant])

/-- The tree stands for the filter once its blanks and parentheses are erased and
each group is replaced by the one expression in it. -/
inductive Erases : SyntaxTree → Filter → Prop
  | condition {children : List SyntaxTree} {name sign : Token Tag} {operand : Operand}
      {comparison : Comparison}
      (parts : meaningful children =
        [leaf (.token .field name), leaf (.token .comparison sign), leaf (.value operand)])
      (signTag : sign.tag = .comparison comparison) :
      Erases (node .condition children) (.leaf ⟨name.lexeme, comparison, operand⟩)
  | combination {children : List SyntaxTree} {left right : SyntaxTree} {word : Token Tag}
      {connective : Connective} {leftFilter rightFilter : Filter}
      (parts : meaningful children = [left, leaf (.token .connective word), right])
      (wordTag : word.tag = .connective connective) (erasesLeft : Erases left leftFilter)
      (erasesRight : Erases right rightFilter) :
      Erases (node .combination children) (.combine connective leftFilter rightFilter)
  | group {children : List SyntaxTree} {inner : SyntaxTree} {filter : Filter}
      (parts : meaningful children = [inner]) (erasesInner : Erases inner filter) :
      Erases (node .group children) filter

/-- A tree stands for one filter only. -/
theorem Erases.unique {tree : SyntaxTree} {first second : Filter}
    (erases : tree.Erases first) (other : tree.Erases second) : first = second := by
  induction erases generalizing second with
  | condition parts signTag =>
      cases other with
      | condition parts' signTag' =>
          rw [parts] at parts'
          simp only [List.cons.injEq, leaf.injEq, Leaf.token.injEq, Leaf.value.injEq,
            true_and, and_true] at parts'
          rcases parts' with ⟨rfl, rfl, rfl⟩
          rw [signTag] at signTag'
          cases signTag'
          rfl
  | combination parts wordTag erasesLeft erasesRight ihLeft ihRight =>
      cases other with
      | combination parts' wordTag' erasesLeft' erasesRight' =>
          rw [parts] at parts'
          simp only [List.cons.injEq, leaf.injEq, Leaf.token.injEq, true_and, and_true]
            at parts'
          rcases parts' with ⟨rfl, rfl, rfl⟩
          rw [wordTag] at wordTag'
          cases wordTag'
          rw [ihLeft erasesLeft', ihRight erasesRight']
  | group parts erasesInner ih =>
      cases other with
      | group parts' erasesInner' =>
          rw [parts] at parts'
          cases parts'
          exact ih erasesInner'

/-- A tree that stands for a filter carries meaning. -/
theorem Erases.not_isLayout {tree : SyntaxTree} {filter : Filter}
    (erases : tree.Erases filter) : tree.isLayout = false := by
  cases erases <;> rfl

/-- Blanks at the end of the root change nothing. -/
theorem Erases.append {tree : SyntaxTree} {filter : Filter} {blanks : List SyntaxTree}
    (erases : tree.Erases filter) (layout : meaningful blanks = []) :
    (tree.append blanks).Erases filter := by
  cases erases with
  | condition parts signTag =>
      exact .condition (by rw [meaningful_append, layout, List.append_nil, parts]) signTag
  | combination parts wordTag erasesLeft erasesRight =>
      exact .combination (by rw [meaningful_append, layout, List.append_nil, parts]) wordTag
        erasesLeft erasesRight
  | group parts erasesInner =>
      exact .group (by rw [meaningful_append, layout, List.append_nil, parts]) erasesInner

/-! ## The conditions of a tree -/

mutual

/-- The nodes for conditions from left to right. -/
def conditionNodes : SyntaxTree → List SyntaxTree
  | leaf _ => []
  | node role children =>
      (if role = .condition then [node role children] else []) ++ conditionNodesOf children

/-- The nodes for conditions in several trees from left to right. -/
def conditionNodesOf : List SyntaxTree → List SyntaxTree
  | [] => []
  | child :: rest => child.conditionNodes ++ conditionNodesOf rest

end

@[simp]
theorem conditionNodes_leaf (part : Leaf) : (leaf part).conditionNodes = [] := by
  simp [conditionNodes]

/-- Layout holds no conditions. -/
theorem conditionNodesOf_meaningful (trees : List SyntaxTree) :
    conditionNodesOf (meaningful trees) = conditionNodesOf trees := by
  induction trees with
  | nil => rfl
  | cons tree rest ih =>
      cases layout : tree.isLayout with
      | false =>
          rw [meaningful_cons_of_not_isLayout layout, conditionNodesOf, ih, conditionNodesOf]
      | true =>
          cases tree with
          | node role children => cases layout
          | leaf part =>
              rw [meaningful_cons_of_isLayout layout, ih, conditionNodesOf,
                conditionNodes_leaf, List.nil_append]

/-- The conditions of the tree are those of the filter, in the same order. -/
theorem Erases.conditionNodes {tree : SyntaxTree} {filter : Filter}
    (erases : tree.Erases filter) :
    List.Forall₂ (fun part condition => Erases part (.leaf condition))
      tree.conditionNodes filter.conditions := by
  induction erases with
  | @condition children name sign operand comparison parts signTag =>
      have none : conditionNodesOf children = [] := by
        rw [← conditionNodesOf_meaningful, parts]
        simp [conditionNodesOf]
      rw [SyntaxTree.conditionNodes, none]
      exact .cons (.condition parts signTag) .nil
  | @combination children left right word connective leftFilter rightFilter parts wordTag
      erasesLeft erasesRight ihLeft ihRight =>
      have both : conditionNodesOf children = left.conditionNodes ++ right.conditionNodes := by
        rw [← conditionNodesOf_meaningful, parts]
        simp [conditionNodesOf]
      rw [SyntaxTree.conditionNodes, both]
      exact List.rel_append ihLeft ihRight
  | @group children inner filter parts erasesInner ih =>
      have one : conditionNodesOf children = inner.conditionNodes := by
        rw [← conditionNodesOf_meaningful, parts]
        simp [conditionNodesOf]
      rw [SyntaxTree.conditionNodes, one]
      exact ih

end SyntaxTree

end SearchQuery.Query
