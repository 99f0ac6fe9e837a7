import SearchQuery.Command.Check
import SearchQuery.Proofs.Tree.Leaves

/-!
# No text of a query is lost

The tree that is shown for a query, whether it was read or stands in for a query
that cannot be read, holds every token of the tolerant scan in one leaf.  So each
part of the tree has as its text the slice of the query at its span, and the leaves
put together are the query.

The role of a leaf depends on its tag alone, except that a fault which is borne as a
value is a value.  Its style depends on more: in a tree that was read, a literal
without a value is shown as malformed, while the flat tree shows it as a value.
-/

namespace SearchQuery.Query

open Text
open Command (leafStyle paintTree)

namespace SyntaxTree

/-- The first tree is the second one or stands somewhere in it. -/
inductive IsPartOf (part : SyntaxTree) : SyntaxTree → Prop
  | whole : IsPartOf part part
  | child {role : Role} {children : List SyntaxTree} {child : SyntaxTree}
      (mem : child ∈ children) (inner : IsPartOf part child) :
      IsPartOf part (.node role children)

/-- The leaves of a child stand together among the leaves of its siblings. -/
theorem exists_leavesOf_eq_of_mem {child : SyntaxTree} {children : List SyntaxTree}
    (mem : child ∈ children) :
    ∃ before behind, leavesOf children = before ++ child.leaves ++ behind := by
  induction children with
  | nil => cases mem
  | cons first rest ih =>
      rcases List.mem_cons.1 mem with rfl | later
      · exact ⟨[], leavesOf rest, by simp⟩
      · rcases ih later with ⟨before, behind, split⟩
        exact ⟨first.leaves ++ before, behind, by simp [split]⟩

/-- The leaves of a part stand together among the leaves of the tree. -/
theorem IsPartOf.exists_leaves_eq {part tree : SyntaxTree} (isPart : IsPartOf part tree) :
    ∃ before behind, tree.leaves = before ++ part.leaves ++ behind := by
  induction isPart with
  | whole => exact ⟨[], [], by simp⟩
  | child mem inner ih =>
      rcases ih with ⟨innerBefore, innerBehind, innerSplit⟩
      rcases exists_leavesOf_eq_of_mem mem with ⟨before, behind, split⟩
      refine ⟨before ++ innerBefore, innerBehind ++ behind, ?_⟩
      rw [leaves_node, split, innerSplit]
      simp only [List.append_assoc]

/-- The tree holds all of the query: every token once and in order, side by side from
the first byte to the last, and each part of the tree is the slice at its span. -/
structure IsLossless (query : String) (tree : SyntaxTree) : Prop where
  sources : tree.leaves.map Leaf.source? =
    ((scanLenient query).tokens.filter (·.tag != .eof)).map some
  tiles : Tiles 0 (tree.leaves.filterMap Leaf.span?) (width query.toList)
  slices : ∀ part, IsPartOf part tree → ∀ span, part.span? = some span →
    slice? query.toList span = some part.text.toList
  text_eq : tree.text = query
  painted : paintTree false tree = query

end SyntaxTree

/-! ## Leaves and their tokens -/

/-- The tolerant scan without the mark at the end gives the tokens of the lexemes. -/
theorem tokens_scanLenient_filter (query : String) :
    (scanLenient query).tokens.filter (·.tag != .eof) =
      (lexemes query).map Lexeme.token := by
  have kept : ((lexemes query).map Lexeme.token).filter (·.tag != .eof) =
      (lexemes query).map Lexeme.token := by
    rw [List.filter_eq_self]
    intro token mem
    rcases List.mem_map.1 mem with ⟨lexeme, found, rfl⟩
    simpa using tag_ne_eof_of_mem found
  rw [scanLenient, List.filter_append, kept]
  simp [endMark, Token.mark, Token.ofText]

section Sources

variable {leaves : List Leaf} {tokens : List (Token Tag)}

/-- Leaves have the spans of their tokens. -/
theorem filterMap_span?_of_sources (sources : leaves.map Leaf.source? = tokens.map some) :
    leaves.filterMap Leaf.span? = tokens.map Token.span := by
  have spans : leaves.map Leaf.span? = tokens.map fun token => some token.span := by
    have mapped := congrArg (List.map (Option.map Token.span)) sources
    simpa [List.map_map, Function.comp_def, ← Leaf.span?_eq] using mapped
  calc
    leaves.filterMap Leaf.span? = (leaves.map Leaf.span?).filterMap id := by
      rw [List.filterMap_map, Function.id_comp]
    _ = tokens.map Token.span := by
      rw [spans, List.filterMap_map, Function.id_comp]
      exact congrFun List.filterMap_eq_map tokens

/-- Leaves have the text of their tokens. -/
theorem flatMap_text_of_sources (sources : leaves.map Leaf.source? = tokens.map some) :
    leaves.flatMap (fun leaf => leaf.text.toList) = Token.textOf tokens := by
  induction tokens generalizing leaves with
  | nil =>
      rw [List.map_nil, List.map_eq_nil_iff] at sources
      rw [sources]
      rfl
  | cons token tokens ih =>
      rcases List.map_eq_cons_iff.1 sources with ⟨leaf, rest, rfl, held, others⟩
      rw [List.flatMap_cons, Token.textOf_cons, Leaf.text_of_source? held, ih others]

end Sources

namespace SyntaxTree

theorem toList_text (tree : SyntaxTree) :
    tree.text.toList = tree.leaves.flatMap fun leaf => leaf.text.toList := by
  rw [text, String.toList_join, List.flatMap_map]

/-- Without colours a tree is painted as its text. -/
theorem paintTree_false (tree : SyntaxTree) : paintTree false tree = tree.text := by
  rw [paintTree, text]
  congr 1

/-- The span of a part is covered by the tokens of the part. -/
theorem slice?_of_part {before inner behind : List (Token Tag)} {span : Span}
    {part : SyntaxTree} (placed : Token.Placed 0 (before ++ inner ++ behind))
    (sources : part.leaves.map Leaf.source? = inner.map some)
    (found : part.span? = some span) :
    slice? (Token.textOf (before ++ inner ++ behind)) span = some part.text.toList := by
  have text_eq : part.text.toList = Token.textOf inner := by
    rw [toList_text, flatMap_text_of_sources sources]
  have placedInner : Token.Placed (width (Token.textOf before)) inner := by
    have placedFront := (Token.placed_append_iff.1 placed).1
    simpa using (Token.placed_append_iff.1 placedFront).2
  have span_eq : span =
      ⟨width (Token.textOf before),
        width (Token.textOf before) + width (Token.textOf inner)⟩ := by
    rw [span?, filterMap_span?_of_sources sources] at found
    cases inner with
    | nil => cases found
    | cons token inner =>
        rcases placedInner with ⟨nonempty, own, rest⟩
        have merged := Token.Placed.foldl_merge token.span (by rwa [own])
          (by rw [own]; exact Nat.le_add_right _ _)
        rw [List.map_cons] at found
        rw [← Option.some.inj found, merged, own, Token.textOf_cons, width_append,
          Nat.add_assoc]
  rw [text_eq, span_eq, Token.textOf_append, Token.textOf_append]
  exact slice?_append _ _ _

/-- A tree whose leaves hold the tokens of the query holds all of the query. -/
theorem isLossless_of_sources {query : String} {tree : SyntaxTree}
    (sources : tree.leaves.map Leaf.source? = ((lexemes query).map Lexeme.token).map some) :
    IsLossless query tree := by
  have placed := placed_lexemes query
  have covered := textOf_lexemes query
  have text_eq : tree.text = query := by
    rw [← String.toList_inj, toList_text, flatMap_text_of_sources sources]
    exact covered
  constructor
  · rw [tokens_scanLenient_filter, sources]
  · rw [filterMap_span?_of_sources sources]
    have tiles := placed.tiles
    rwa [covered, Nat.zero_add] at tiles
  · intro part isPart span found
    rcases isPart.exists_leaves_eq with ⟨before, behind, split⟩
    rw [split, List.map_append, List.map_append] at sources
    rcases List.map_eq_append_iff.1 sources.symm with
      ⟨front, tokensBehind, tokens_eq, front_eq, -⟩
    rcases List.map_eq_append_iff.1 front_eq with ⟨tokensBefore, inner, rfl, -, inner_eq⟩
    have slice := slice?_of_part (tokens_eq ▸ placed) inner_eq.symm found
    rwa [← tokens_eq, covered] at slice
  · exact text_eq
  · rw [paintTree_false, text_eq]

/-- On success the tree is the one that is read. -/
theorem readLossy_of_ok {query : String} {tree : SyntaxTree} (found : read query = .ok tree) :
    readLossy query = (tree, none) := by
  rw [readLossy, found]

/-- On failure the flat tree stands in. -/
theorem readLossy_of_error {query : String} {error : TreeError}
    (failed : read query = .error error) : readLossy query = (flat query, some error) := by
  rw [readLossy, failed]

end SyntaxTree

/-! ## Roles and styles -/

namespace Leaf

theorem role_ofRead (token : Token Tag) :
    (ofRead token).role = if token.tag = .error then .value else .ofTag token.tag := by
  unfold ofRead TreeReader.operand?
  cases tag_eq : token.tag with
  | literal kind => rfl
  | error => rfl
  | _ => simp [ofToken, role, tag_eq]

theorem leafStyle_ofRead (token : Token Tag) :
    leafStyle (ofRead token) =
      if lacksValue token then [.underlined, .red] else leafStyle (ofToken token) := by
  unfold ofRead TreeReader.operand? lacksValue
  cases tag_eq : token.tag with
  | literal kind =>
      cases spells : Literal.read? kind token.lexeme with
      | none => simp [leafStyle, isValid, spells, Literal.isValid]
      | some literal =>
          have valid := Literal.isValid_of_read? spells
          simp [leafStyle, isValid, role, ofToken, tag_eq, Role.ofTag, spells, valid]
  | error => simp [leafStyle, isValid, ofToken, tag_eq, Literal.isValid]
  | _ => simp

end Leaf

namespace SyntaxTree

/-- What holds of the leaf of every token holds of all leaves of a tree that has one leaf for
every lexeme. -/
theorem forall_leaves_of_map {query : String} {tree : SyntaxTree} {leafOf : Token Tag → Leaf}
    (leaves_eq : tree.leaves = (lexemes query).map fun lexeme => leafOf lexeme.token)
    (source : ∀ token, (leafOf token).source? = some token)
    {Holds : Leaf → Token Tag → Prop} (all : ∀ token, Holds (leafOf token) token) :
    ∀ leaf ∈ tree.leaves, ∀ token, leaf.source? = some token → Holds leaf token := by
  intro leaf mem token held
  rw [leaves_eq] at mem
  rcases List.mem_map.1 mem with ⟨lexeme, -, rfl⟩
  rw [source] at held
  cases held
  exact all lexeme.token

/-- A literal without a value is shown as a value when its tag alone decides. -/
theorem leafStyle_ofToken_of_lacksValue {token : Token Tag} (lacks : lacksValue token = true) :
    leafStyle (.ofToken token) = [.green] := by
  unfold lacksValue at lacks
  cases tag_eq : token.tag with
  | literal kind => simp [leafStyle, Leaf.isValid, Leaf.role, Leaf.ofToken, tag_eq, Role.ofTag]
  | _ => simp [tag_eq] at lacks

/-- The tree that is shown for a query holds all of it.  The role of a leaf is the one
of its tag, but a fault that is borne in a tree that was read is a value.  The style of
a leaf is the one of its token by itself, but a literal without a value is shown as
malformed in a tree that was read, and as a value in the flat tree. -/
theorem isLossless_readLossy (query : String) :
    IsLossless query (readLossy query).1 ∧
      (∀ leaf ∈ (readLossy query).1.leaves, ∀ token, leaf.source? = some token →
        leaf.role =
          if (readLossy query).2 = none ∧ token.tag = .error then .value
          else .ofTag token.tag) ∧
      (∀ leaf ∈ (readLossy query).1.leaves, ∀ token, leaf.source? = some token →
        leafStyle leaf =
          if (readLossy query).2 = none ∧ lacksValue token then [.underlined, .red]
          else leafStyle (.ofToken token)) ∧
      (∀ token, lacksValue token → leafStyle (.ofToken token) = [.green]) := by
  cases found : read query with
  | ok tree =>
      rw [readLossy_of_ok found]
      have leaves_eq := leaves_of_read found
      have lossless : IsLossless query tree := by
        apply isLossless_of_sources
        simp [leaves_eq, List.map_map, Function.comp_def]
      refine ⟨lossless, ?_, ?_, fun token => leafStyle_ofToken_of_lacksValue⟩
      · refine forall_leaves_of_map leaves_eq Leaf.source?_ofRead fun token => ?_
        simpa using Leaf.role_ofRead token
      · refine forall_leaves_of_map leaves_eq Leaf.source?_ofRead fun token => ?_
        simpa using Leaf.leafStyle_ofRead token
  | error error =>
      rw [readLossy_of_error found]
      have leaves_eq := leaves_flat query
      have lossless : IsLossless query (flat query) := by
        apply isLossless_of_sources
        simp [leaves_eq, List.map_map, Function.comp_def]
      refine ⟨lossless, ?_, ?_, fun token => leafStyle_ofToken_of_lacksValue⟩
      · refine forall_leaves_of_map leaves_eq Leaf.source?_ofToken fun token => ?_
        simp [Leaf.role, Leaf.ofToken]
      · refine forall_leaves_of_map leaves_eq Leaf.source?_ofToken fun token => ?_
        simp

/-- A lone minus sign is no integer: `a=-` is read and shows it as malformed, while
`a=- and`, which is not finished, shows the same token as a value. -/
theorem leafStyle_lone_minus :
    let minus : Token Tag := ⟨.literal .int, "-", ⟨2, 3⟩⟩
    (readLossy "a=-").2 = none ∧ (readLossy "a=- and").2 ≠ none ∧
      ∃ accepted ∈ (readLossy "a=-").1.leaves, ∃ failing ∈ (readLossy "a=- and").1.leaves,
        accepted.source? = some minus ∧ failing.source? = some minus ∧
          leafStyle accepted ≠ leafStyle failing := by
  intro minus
  refine ⟨by decide +kernel, by decide +kernel, .value ⟨.invalid "-", some minus⟩,
    by decide +kernel, .token .value minus, by decide +kernel, rfl, rfl, by decide⟩

end SyntaxTree

end SearchQuery.Query
