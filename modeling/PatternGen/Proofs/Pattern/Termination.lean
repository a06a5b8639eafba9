import PatternGen.Pattern.Grammar
import PatternGen.Proofs.Parser.Guarded

namespace PatternGen

open Text

namespace Grammar

open Peg Call

/-- The rules of patterns. Groups have whole patterns inside. -/
inductive Rule : {α : Type} → Peg [] α → Prop where
  | single : Rule single
  | range : Rule range
  | classBody : Rule classBody
  | charClass : Rule charClass
  | literal : Rule literal
  | boundedRepetition : Rule boundedRepetition
  | repetition : Rule repetition
  | term : Rule (term alternatives)
  | piece : Rule (piece alternatives)
  | branch : Rule (branch alternatives)
  | group : Rule (group alternatives)
  | alternatives : Rule alternatives

section Guarded

variable {Γ : List Type} {ρ : Bodies Γ} {ahead : Bool} {inner : Peg Γ Pattern}

theorem consumes_classChar : (classChar : Peg Γ Char).Consumes ρ := consumes_anyChar.filter

theorem consumes_single : (single : Peg Γ ClassItem).Consumes ρ := consumes_classChar.map

theorem consumes_range : (range : Peg Γ ClassItem).Consumes ρ :=
  consumes_classChar.thenIgnore.zip.filter.map

theorem consumes_group : (group inner).Consumes ρ := (consumes_char '(').ignoreThen.thenIgnore

theorem consumes_charClass : (charClass : Peg Γ CharClass).Consumes ρ :=
  (consumes_char '[').ignoreThen.thenIgnore

theorem consumes_literal : (literal : Peg Γ String).Consumes ρ := (consumes_run _ _).map

theorem consumes_term : (term inner).Consumes ρ := by
  apply consumes_oneOf
  simp [consumes_charClass.map, consumes_literal.map, consumes_group.map]

theorem consumes_piece : (piece inner).Consumes ρ := consumes_term.zip

theorem consumes_branch : (branch inner).Consumes ρ := consumes_piece.atLeastOne

theorem guarded_char (x : Char) : (char x : Peg Γ Char).Guarded ρ ahead := trivial

theorem guarded_single : (single : Peg Γ ClassItem).Guarded ρ ahead :=
  Guarded.map (p := classChar) trivial

theorem guarded_range : (range : Peg Γ ClassItem).Guarded ρ ahead := by
  have hchar : (classChar : Peg Γ Char).Guarded ρ ahead := trivial
  have hpair := (hchar.thenIgnore (guarded_char '-')).zip hchar
  exact Guarded.map hpair

theorem guarded_classBody : (classBody : Peg Γ CharClass).Guarded ρ ahead := by
  have hitems : ((range : Peg Γ ClassItem).orElse single).many.Guarded ρ ahead :=
    ⟨⟨guarded_range, guarded_single⟩, consumes_range.orElse consumes_single⟩
  exact ((guarded_char '^').optional.zip hitems).map

theorem guarded_charClass : (charClass : Peg Γ CharClass).Guarded ρ ahead :=
  ((guarded_char '[').ignoreThen guarded_classBody).thenIgnore (guarded_char ']')

theorem guarded_literal : (literal : Peg Γ String).Guarded ρ ahead :=
  Guarded.map (p := run _ _) trivial

theorem guarded_boundedRepetition : (boundedRepetition : Peg Γ Repetition).Guarded ρ ahead := by
  refine ⟨trivial, .inl fun digits => ?_⟩
  dsimp only
  split
  · split <;> trivial
  · trivial

theorem guarded_repetition : (repetition : Peg Γ Repetition).Guarded ρ ahead := by
  apply guarded_oneOf
  simp [guarded_boundedRepetition, (guarded_char _).map, Peg.Guarded]

/-- The bracket has been read before the pattern inside begins. -/
theorem guarded_group (h : inner.Guarded ρ true) : (group inner).Guarded ρ ahead :=
  ((guarded_char '(').ignoreThen_of_consumes (consumes_char '(') h).thenIgnore (guarded_char ')')

theorem guarded_term (h : inner.Guarded ρ true) : (term inner).Guarded ρ ahead := by
  apply guarded_oneOf
  simp [guarded_charClass.map, guarded_literal.map, (guarded_group h).map]

theorem guarded_piece (h : inner.Guarded ρ true) : (piece inner).Guarded ρ ahead :=
  (guarded_term h).zip guarded_repetition

theorem guarded_branch (h : inner.Guarded ρ true) : (branch inner).Guarded ρ ahead :=
  ⟨guarded_piece h, consumes_piece⟩

theorem guarded_alternatives : (alternatives : Peg Γ Pattern).Guarded ρ ahead :=
  ⟨guarded_branch rfl, trivial, consumes_branch⟩

theorem Rule.guarded {r : Peg [] α} (h : Rule r) : r.Guarded .none ahead := by
  cases h with
  | single => exact guarded_single
  | range => exact guarded_range
  | classBody => exact guarded_classBody
  | charClass => exact guarded_charClass
  | literal => exact guarded_literal
  | boundedRepetition => exact guarded_boundedRepetition
  | repetition => exact guarded_repetition
  | term => exact guarded_term guarded_alternatives
  | piece => exact guarded_piece guarded_alternatives
  | branch => exact guarded_branch guarded_alternatives
  | group => exact guarded_group guarded_alternatives
  | alternatives => exact guarded_alternatives

end Guarded

/-- What is between the brackets of a group, which stands for itself in the groups inside. -/
def alternativesBody : Peg [Pattern] Pattern := (branch (ref .innermost)).separatedBy (char '|')

def entry (c : Cursor) : Call := .read (.push alternativesBody .none) alternativesBody c

/-- Alternatives begin to be read at the second place before those at the first have been read. -/
def Nested (c d : Cursor) : Prop := Relation.TransGen Leads (entry c) (entry d)

/-- Alternatives that begin with a bracket have others after the bracket. -/
theorem nested_advance (hc : c.rest? = some ('(' :: rest)) : Nested c (c.advance 1) := by
  let ρ : Bodies [Pattern] := .push alternativesBody .none
  have hclass : Eval ρ (charClass.map Term.charClass) c none :=
    .bind_fail (.bind_fail (.bind_fail (.bind_fail (.token_fail hc rfl))))
  have hliteral : Eval ρ (literal.map Term.literal) c none :=
    .bind_fail (.bind_fail (.token_fail hc rfl))
  have hbracket : Eval ρ (char '(') c (some ('(', c.advance 1)) := .token hc rfl
  have hbranch : Relation.ReflTransGen Leads (entry c) (.read ρ (term (ref .innermost)) c) :=
    .tail (.tail (.single .separatedBy) .atLeastOne) .bind
  have hterm : Leads (.read ρ (term (ref .innermost)) c)
      (.read ρ ((group (ref .innermost)).map Term.group) c) := by
    refine .choice (2 : Fin 3) fun j hj => ?_
    match j with
    | 0 => exact hclass
    | 1 => exact hliteral
  have hgroup : Relation.ReflTransGen Leads (.read ρ ((group (ref .innermost)).map Term.group) c)
      (.read ρ (ref .innermost) (c.advance 1)) :=
    .tail (.tail (.tail (.single .bind) .bind) .bind) (.bind_next hbracket)
  exact .tail' ((hbranch.tail hterm).trans hgroup) .innermost

/-- Reading by a rule ends wherever it begins and whatever the text is. All rounds of repetitions
read something. Alternatives in groups of other alternatives begin further on than these, so that
there are at most as many of them inside each other, after the first, as characters are left. -/
theorem reading_ends {r : Peg [] α} (hr : Rule r) (h : IsBoundary text offset) :
    (∀ fault, r.parser.parseAt text offset ≠ .stuck fault) ∧
    (read .none r (.ofOffset text offset)).Ends ∧
    ∀ x, (read .none r (.ofOffset text offset)).Reaches x →
      (∀ d e, x.Round d e → d.offset < e.offset) ∧
      ∀ d, x = entry d → (∀ e, Nested d e → d.offset < e.offset) ∧
        ∀ ds, (d :: ds).IsChain Nested →
          (d :: ds).length ≤ (Cursor.ofOffset text offset).size + 1 ∧
          (d :: ds).length ≤ byteSize text - offset + 1 := by
  -- every call on the way is guarded and stays within the text
  have hguarded : (read .none r (.ofOffset text offset)).Guarded := ⟨hr.guarded, trivial⟩
  have hwithin := Cursor.within_ofOffset h
  refine ⟨not_stuck_of_ends hguarded.ends hwithin, hguarded.ends, ?_⟩
  intro x hx
  obtain ⟨hxguarded, hfollows⟩ := hguarded.reaches hx
  have hxwithin := hx.within hwithin
  refine ⟨?_, ?_⟩
  · intro d e hround
    obtain ⟨hd, he⟩ := hround.within hxwithin
    exact hd.offset_lt_of_size_lt he (hxguarded.size_lt_of_round hround)
  · rintro d rfl
    refine ⟨?_, ?_⟩
    · intro e hnested
      have he := Reaches.within hnested.to_reflTransGen hxwithin
      exact hxwithin.offset_lt_of_size_lt he (hxguarded.size_lt_of_transGen hnested)
    · intro ds hchain
      have hlen : ds.length ≤ (Cursor.ofOffset text offset).size :=
        Nat.le_trans (hxguarded.length_le_of_isChain hchain) hfollows.size_le
      have hbytes := Nat.le_trans hlen (Cursor.size_ofOffset_le h)
      exact ⟨Nat.succ_le_succ hlen, Nat.succ_le_succ hbytes⟩

theorem reading_ends_two_brackets :
    let text := ['é', '(', '(', 'a', '|', 'b']
    let c := Cursor.ofOffset text 2
    Rule alternatives ∧ IsBoundary text 2 ∧
    (∀ fault, alternatives.parser.parseAt text 2 ≠ .stuck fault) ∧
    (read .none alternatives c).Reaches (entry c) ∧
    Nested c (c.advance 1) ∧ c.offset < (c.advance 1).offset ∧
    ∀ ds, (c :: ds).IsChain Nested → (c :: ds).length ≤ 6 := by
  intro text c
  have htext : IsBoundary text 2 := ⟨['é'], ['(', '(', 'a', '|', 'b'], rfl, by decide⟩
  have hentry : (read .none alternatives c).Reaches (entry c) := .single .recursive
  have hrest : c.rest? = some ['(', '(', 'a', '|', 'b'] := rfl
  have hnested : Nested c (c.advance 1) := nested_advance hrest
  obtain ⟨hstuck, -, hcalls⟩ := reading_ends .alternatives htext
  obtain ⟨hlater, hdepth⟩ := (hcalls _ hentry).2 c rfl
  exact ⟨.alternatives, htext, hstuck, hentry, hnested, hlater _ hnested,
    fun ds hds => (hdepth ds hds).1⟩

end Grammar

end PatternGen
