import SearchQuery.Query.Filter

/-!
# The grammar of filters

The grammar has two kinds of phrases.  An operand is a condition or a chain of
`or` in parentheses.  A chain of a connective is one phrase or more with the
connective between them: the phrases of a chain of `and` are operands, and the
phrases of a chain of `or` are chains of `and`.

```text
chain or   ::=  chain and ("or" chain and)*
chain and  ::=  operand ("and" operand)*
operand    ::=  "(" chain or ")"  |  FIELD comparison literal
```

A derivation tells the filter that the phrase stands for: chains are folded from
the left and parentheses leave no trace.  A chain can also be taken phrase by phrase
(`Parts`), and so two chains can be put together.  The grammar knows no precedence
and no reader; that reading accepts exactly its phrases is shown in
`SearchQuery.Proofs.Grammar.Reader`.
-/

namespace SearchQuery.Query

open Text

/-- The kinds of phrases. -/
inductive Stratum
  | operand
  | chain (connective : Connective)

/-- The phrases that a connective joins. -/
def Connective.part : Connective → Stratum
  | .and => .operand
  | .or => .chain .and

/-- A connective in a chain with the phrase behind it. -/
structure Link where
  word : Token Tag
  phrase : List (Token Tag)
  filter : Filter

namespace Link

/-- All tokens of the link. -/
def tokens (link : Link) : List (Token Tag) :=
  link.word :: link.phrase

/-- The filter so far, with the link joined to it. -/
def attach (connective : Connective) (left : Filter) (link : Link) : Filter :=
  .combine connective left link.filter

end Link

/-- The tokens are a phrase of the stratum and stand for the filter. -/
inductive Derives : Stratum → List (Token Tag) → Filter → Prop
  | condition {field sign value : Token Tag} {comparison : Comparison} {kind : LiteralKind}
      {literal : Literal} (fieldTag : field.tag = .field)
      (signTag : sign.tag = .comparison comparison) (valueTag : value.tag = .literal kind)
      (spells : Literal.read? kind value.lexeme = some literal) :
      Derives .operand [field, sign, value]
        (.leaf ⟨field.lexeme, comparison, ⟨literal, some value⟩⟩)
  | group {opening closing : Token Tag} {tokens : List (Token Tag)} {filter : Filter}
      (openingTag : opening.tag = .openParen) (closingTag : closing.tag = .closeParen)
      (inner : Derives (.chain .or) tokens filter) :
      Derives .operand (opening :: (tokens ++ [closing])) filter
  | chain {connective : Connective} {tokens : List (Token Tag)} {filter : Filter}
      {links : List Link} (first : Derives connective.part tokens filter)
      (words : ∀ link ∈ links, link.word.tag = .connective connective)
      (phrases : ∀ link ∈ links, Derives connective.part link.phrase link.filter) :
      Derives (.chain connective) (tokens ++ links.flatMap Link.tokens)
        (links.foldl (Link.attach connective) filter)

namespace Derives

variable {connective : Connective} {tokens : List (Token Tag)} {filter : Filter}

/-- One phrase alone is a chain. -/
theorem single (part : Derives connective.part tokens filter) :
    Derives (.chain connective) tokens filter := by
  have alone := @chain connective tokens filter [] part
    (fun link mem => absurd mem List.not_mem_nil)
    (fun link mem => absurd mem List.not_mem_nil)
  rwa [List.flatMap_nil, List.append_nil] at alone

/-- A chain goes on with the connective and a further phrase. -/
theorem snoc {word : Token Tag} {phrase : List (Token Tag)} {last : Filter}
    (chained : Derives (.chain connective) tokens filter)
    (wordTag : word.tag = .connective connective)
    (part : Derives connective.part phrase last) :
    Derives (.chain connective) (tokens ++ word :: phrase)
      (.combine connective filter last) := by
  cases chained with
  | @chain _ head start links first words phrases =>
      have longer := @chain connective head start (links ++ [⟨word, phrase, last⟩]) first
        (by
          intro link mem
          rcases List.mem_append.1 mem with mem | mem
          · exact words link mem
          · rw [List.mem_singleton.1 mem]
            exact wordTag)
        (by
          intro link mem
          rcases List.mem_append.1 mem with mem | mem
          · exact phrases link mem
          · rw [List.mem_singleton.1 mem]
            exact part)
      rw [List.flatMap_append, List.foldl_append, ← List.append_assoc] at longer
      simpa [Link.tokens, Link.attach] using longer

end Derives

/-! ## Phrases of a chain -/

/-- The tokens are the phrases of a chain, which stand for the filters in their order. -/
inductive Parts (connective : Connective) : List (Token Tag) → List Filter → Prop
  | single {tokens : List (Token Tag)} {filter : Filter}
      (part : Derives connective.part tokens filter) : Parts connective tokens [filter]
  | cons {tokens rest : List (Token Tag)} {word : Token Tag} {filter : Filter}
      {filters : List Filter} (part : Derives connective.part tokens filter)
      (wordTag : word.tag = .connective connective) (others : Parts connective rest filters) :
      Parts connective (tokens ++ word :: rest) (filter :: filters)

namespace Parts

variable {connective : Connective} {tokens rest : List (Token Tag)}
  {filters others : List Filter}

/-- Two chains with the connective between them are one chain. -/
theorem append {word : Token Tag} (parts : Parts connective tokens filters)
    (wordTag : word.tag = .connective connective) (more : Parts connective rest others) :
    Parts connective (tokens ++ word :: rest) (filters ++ others) := by
  induction parts with
  | single part => exact .cons part wordTag more
  | cons part innerTag _ ih =>
      rw [List.append_assoc, List.cons_append, List.cons_append]
      exact .cons part innerTag ih

/-- A chain is its first phrase with links behind it. -/
theorem exists_links (parts : Parts connective tokens filters) :
    ∃ (head : List (Token Tag)) (first : Filter) (links : List Link),
      tokens = head ++ links.flatMap Link.tokens ∧ filters = first :: links.map Link.filter ∧
        Derives connective.part head first ∧
        (∀ link ∈ links, link.word.tag = .connective connective) ∧
        ∀ link ∈ links, Derives connective.part link.phrase link.filter := by
  induction parts with
  | @single tokens filter part => exact ⟨tokens, filter, [], by simp, by simp, part, by simp⟩
  | @cons tokens rest word filter filters part wordTag others ih =>
      rcases ih with ⟨head, first, links, rfl, rfl, next, words, phrases⟩
      exact ⟨tokens, filter, ⟨word, head, first⟩ :: links, by simp [Link.tokens], rfl, part,
        List.forall_mem_cons.2 ⟨wordTag, words⟩, List.forall_mem_cons.2 ⟨next, phrases⟩⟩

/-- A chain stands for the filters of its phrases, joined from the left. -/
theorem exists_derives (parts : Parts connective tokens filters) :
    ∃ filter, Filter.joinAll connective filters = some filter ∧
      Derives (.chain connective) tokens filter := by
  rcases parts.exists_links with ⟨head, first, links, rfl, rfl, part, words, phrases⟩
  refine ⟨_, rfl, ?_⟩
  rw [List.foldl_map]
  exact .chain part words phrases

end Parts

/-- An operand is a phrase of every chain. -/
theorem Derives.part {tokens : List (Token Tag)} {filter : Filter}
    (operand : Derives .operand tokens filter) (connective : Connective) :
    Derives connective.part tokens filter := by
  cases connective with
  | and => exact operand
  | or => exact @Derives.single .and tokens filter operand

end SearchQuery.Query
