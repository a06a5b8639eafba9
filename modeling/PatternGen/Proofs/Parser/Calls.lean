import Mathlib.Logic.Relation
import Mathlib.Order.WellFounded
import PatternGen.Proofs.Parser.Adequacy
import PatternGen.Proofs.Parser.Within

namespace PatternGen

open Peg

/-- An expression to be read at a place, or a repetition about to make a round there. -/
inductive Call : Type 1 where
  | read {Γ : List Type} {α : Type} (ρ : Bodies Γ) (p : Peg Γ α) (c : Cursor)
  /-- A value is to follow. -/
  | rounds {Γ : List Type} {α : Type} (ρ : Bodies Γ) (p : Peg Γ α) (c : Cursor)
  /-- A separator and a value are to follow. -/
  | separated {Γ : List Type} {α β : Type} (ρ : Bodies Γ) (p : Peg Γ α) (q : Peg Γ β) (c : Cursor)

namespace Call

def place : Call → Cursor
  | read _ _ c => c
  | rounds _ _ c => c
  | separated _ _ _ c => c

/-- The second call is made in the course of the first, after the answers to those made before. -/
inductive Leads : Call → Call → Prop where
  | bind : Leads (read ρ (.bind p f) c) (read ρ p c)
  | bind_next (h : Eval ρ p c (some (a, d))) : Leads (read ρ (.bind p f) c) (read ρ (f a) d)
  | orElse : Leads (read ρ (.orElse p q) c) (read ρ p c)
  | orElse_next (h : Eval ρ p c none) : Leads (read ρ (.orElse p q) c) (read ρ q c)
  | choice {ps : Fin n → Peg Γ α} (i : Fin n) (h : ∀ j < i, Eval ρ (ps j) c none) :
    Leads (read ρ (.choice n ps) c) (read ρ (ps i) c)
  | filter : Leads (read ρ (.filter what keep p) c) (read ρ p c)
  | many : Leads (read ρ (.many p) c) (rounds ρ p c)
  | atLeastOne : Leads (read ρ (.atLeastOne p) c) (read ρ p c)
  | atLeastOne_next (h : Eval ρ p c (some (a, d))) :
    Leads (read ρ (.atLeastOne p) c) (rounds ρ p d)
  | round : Leads (rounds ρ p c) (read ρ p c)
  -- A success that reads nothing is the last round.
  | round_next (h : Eval ρ p c (some (a, d))) (hd : d ≠ c) : Leads (rounds ρ p c) (rounds ρ p d)
  | separatedBy : Leads (read ρ (.separatedBy p q) c) (read ρ p c)
  | separatedBy_next (h : Eval ρ p c (some (a, d))) :
    Leads (read ρ (.separatedBy p q) c) (separated ρ p q d)
  | separator : Leads (separated ρ p q c) (read ρ q c)
  | value (hq : Eval ρ q c (some (b, d))) : Leads (separated ρ p q c) (read ρ p d)
  | separated_next (hq : Eval ρ q c (some (b, d))) (h : Eval ρ p d (some (a, e))) :
    Leads (separated ρ p q c) (separated ρ p q e)
  | recursive : Leads (read ρ (.recursive body) c) (read (.push body ρ) body c)
  | innermost : Leads (read (.push body ρ) (.ref .innermost) c) (read (.push body ρ) body c)
  | outer : Leads (read (.push body ρ) (.ref (.outer x)) c) (read ρ (.ref x) c)

/-- The calls that reading an expression leads to, where its type does not tell what kind of
expression it is. -/
def Inversion : Call → Call → Prop
  | read _ .endOfInput _, _ => False
  | read ρ (.many p) c, y => y = rounds ρ p c
  | read ρ (.atLeastOne p) c, y =>
    y = read ρ p c ∨ ∃ a d, Eval ρ p c (some (a, d)) ∧ y = rounds ρ p d
  | read ρ (.separatedBy p q) c, y =>
    y = read ρ p c ∨ ∃ a d, Eval ρ p c (some (a, d)) ∧ y = separated ρ p q d
  | _, _ => True

theorem Leads.inversion {x y : Call} (h : Leads x y) : Inversion x y := by
  cases h with
  | many => rfl
  | atLeastOne => exact .inl rfl
  | atLeastOne_next h => exact .inr ⟨_, _, h, rfl⟩
  | separatedBy => exact .inl rfl
  | separatedBy_next h => exact .inr ⟨_, _, h, rfl⟩
  | bind | bind_next _ | orElse | orElse_next _ | choice _ _ | filter | round | round_next _ _
  | separator | value _ | separated_next _ _ | recursive | innermost | outer => trivial

def Reaches : Call → Call → Prop := Relation.ReflTransGen Leads

/-- No chain of calls that begins here goes on forever. -/
def Ends (x : Call) : Prop := Acc (fun z y => Leads y z) x

/-- A round of a repetition that begins with this call succeeds, from one place to another. -/
inductive Round : Call → Cursor → Cursor → Prop where
  | first (h : Eval ρ p c (some (a, d))) : Round (read ρ (.atLeastOne p) c) c d
  | next (h : Eval ρ p c (some (a, d))) : Round (rounds ρ p c) c d
  | first_separated (h : Eval ρ p c (some (a, d))) : Round (read ρ (.separatedBy p q) c) c d
  | next_separated (hq : Eval ρ q c (some (b, d))) (h : Eval ρ p d (some (a, e))) :
    Round (separated ρ p q c) c e

/-- The call has an answer: what the expression reads, or the rounds up to the one that fails. -/
def Answered : Call → Prop
  | read ρ p c => ∃ r, Eval ρ p c r
  | rounds ρ p c => ∃ as d, Eval ρ p.many c (some (as, d))
  | separated ρ p q c =>
    ∃ as d, Eval ρ (q.ignoreThen p).many c (some (as, d)) ∧ Eval ρ (q.ignoreThen p) d none

theorem Leads.within {x y : Call} (h : Leads x y) (hx : x.place.Within text lo) :
    y.place.Within text lo := by
  cases h with
  | bind_next h => exact h.within hx _ rfl
  | atLeastOne_next h => exact h.within hx _ rfl
  | round_next h _ => exact h.within hx _ rfl
  | separatedBy_next h => exact h.within hx _ rfl
  | value hq => exact hq.within hx _ rfl
  | separated_next hq h => exact h.within (hq.within hx _ rfl) _ rfl
  | bind | orElse | orElse_next _ | choice _ _ | filter | many | atLeastOne | round | separatedBy
  | separator | recursive | innermost | outer => exact hx

theorem Reaches.within {x y : Call} (h : x.Reaches y) (hx : x.place.Within text lo) :
    y.place.Within text lo := by
  induction h with
  | refl => exact hx
  | tail _ h ih => exact h.within ih

theorem Round.within {x : Call} (h : x.Round d e) (hx : x.place.Within text lo) :
    d.Within text lo ∧ e.Within text lo := by
  cases h with
  | first h => exact ⟨hx, h.within hx _ rfl⟩
  | next h => exact ⟨hx, h.within hx _ rfl⟩
  | first_separated h => exact ⟨hx, h.within hx _ rfl⟩
  | next_separated hq h => exact ⟨hx, h.within (hq.within hx _ rfl) _ rfl⟩

theorem Ends.not_transGen_self {x : Call} (h : x.Ends) : ¬ Relation.TransGen Leads x x := by
  induction h with
  | intro x _ ih =>
    intro hx
    obtain ⟨y, hxy, hyx⟩ := Relation.TransGen.head'_iff.1 hx
    exact ih y hxy (.tail' hyx hxy)

/-- The first of several expressions that does not fail decides a choice. -/
theorem exists_eval_choice {ps : Fin n → Peg Γ α} {ρ : Bodies Γ}
    (h : ∀ i, (∀ j < i, Eval ρ (ps j) c none) → ∃ r, Eval ρ (ps i) c r) :
    ∃ r, Eval ρ (.choice n ps) c r := by
  by_cases hall : ∀ i, Eval ρ (ps i) c none
  · exact ⟨none, .choice_fail hall⟩
  · have hwf : WellFounded fun i j : Fin n => i < j := wellFounded_lt
    obtain ⟨i, hi, hmin⟩ := hwf.has_min {i | ¬ Eval ρ (ps i) c none} (not_forall.1 hall)
    have hj : ∀ j < i, Eval ρ (ps j) c none := by
      intro j hji
      by_contra hj
      exact hmin j hj hji
    obtain ⟨r, hr⟩ := h i hj
    cases r with
    | none => exact (hi hr).elim
    | some x => exact ⟨some x, .choice i hj hr⟩

theorem answered_read {p : Peg Γ α} {ρ : Bodies Γ} (hc : c.rest? = some rest)
    (h : ∀ y, Leads (read ρ p c) y → y.Answered) : ∃ r, Eval ρ p c r := by
  cases p with
  | token what scan =>
    cases hs : scan rest with
    | none => exact ⟨none, .token_fail hc hs⟩
    | some x => exact ⟨some (x.1, c.advance x.2), .token hc hs⟩
  | success a => exact ⟨_, .success⟩
  | fail => exact ⟨_, .fail⟩
  | endOfInput =>
    by_cases hend : c.rest? = some []
    · exact ⟨_, .endOfInput hend⟩
    · exact ⟨_, .endOfInput_fail hend⟩
  | bind p f =>
    obtain ⟨_ | ⟨a, d⟩, hp⟩ := h _ .bind
    · exact ⟨none, .bind_fail hp⟩
    · obtain ⟨r, hr⟩ := h _ (.bind_next hp)
      exact ⟨r, .bind hp hr⟩
  | orElse p q =>
    obtain ⟨_ | x, hp⟩ := h _ .orElse
    · obtain ⟨r, hr⟩ := h _ (.orElse_next hp)
      exact ⟨r, .orElse_fail hp hr⟩
    · exact ⟨some x, .orElse hp⟩
  | choice n ps => exact exists_eval_choice fun i hi => h _ (.choice i hi)
  | filter what keep p =>
    obtain ⟨_ | ⟨a, d⟩, hp⟩ := h _ .filter
    · exact ⟨none, .filter_fail hp⟩
    · by_cases hk : keep a
      · exact ⟨_, .filter hp hk⟩
      · exact ⟨_, .filter_refuse hp hk⟩
  | many p =>
    obtain ⟨as, d, hs⟩ := h _ .many
    exact ⟨_, hs⟩
  | atLeastOne p =>
    obtain ⟨_ | ⟨a, d⟩, hp⟩ := h _ .atLeastOne
    · exact ⟨none, .atLeastOne_fail hp⟩
    · obtain ⟨as, e, hs⟩ := h _ (.atLeastOne_next hp)
      exact ⟨_, .atLeastOne hp hs⟩
  | separatedBy p q =>
    obtain ⟨_ | ⟨a, d⟩, hp⟩ := h _ .separatedBy
    · exact ⟨none, .separatedBy_fail hp⟩
    · obtain ⟨as, e, hs, he⟩ := h _ (.separatedBy_next hp)
      exact ⟨_, .separatedBy hp hs he⟩
  | recursive body =>
    obtain ⟨r, hr⟩ := h _ .recursive
    exact ⟨r, .recursive hr⟩
  | ref x =>
    cases x with
    | innermost =>
      cases ρ with
      | push body ρ =>
        obtain ⟨r, hr⟩ := h _ .innermost
        exact ⟨r, .innermost hr⟩
    | outer x =>
      cases ρ with
      | push body ρ =>
        obtain ⟨r, hr⟩ := h _ .outer
        exact ⟨r, .outer hr⟩

theorem answered_rounds {p : Peg Γ α} {ρ : Bodies Γ}
    (h : ∀ y, Leads (rounds ρ p c) y → y.Answered) : (rounds ρ p c).Answered := by
  obtain ⟨_ | ⟨a, d⟩, hp⟩ := h _ .round
  · exact ⟨_, _, .many_stop hp⟩
  · by_cases hd : d = c
    · subst hd
      exact ⟨_, _, .many_last hp⟩
    · obtain ⟨as, e, hs⟩ := h _ (.round_next hp hd)
      exact ⟨_, _, .many_more hp hd hs⟩

/-- A round that reads nothing would lead back to the same call. -/
theorem answered_separated {p : Peg Γ α} {q : Peg Γ β} {ρ : Bodies Γ}
    (hself : ¬ Leads (separated ρ p q c) (separated ρ p q c))
    (h : ∀ y, Leads (separated ρ p q c) y → y.Answered) : (separated ρ p q c).Answered := by
  obtain ⟨_ | ⟨b, d⟩, hq⟩ := h _ .separator
  · exact ⟨_, _, .many_stop (.bind_fail hq), .bind_fail hq⟩
  · obtain ⟨_ | ⟨a, e⟩, hp⟩ := h _ (.value hq)
    · exact ⟨_, _, .many_stop (.bind hq hp), .bind hq hp⟩
    · have he : e ≠ c := by
        rintro rfl
        exact hself (.separated_next hq hp)
      obtain ⟨as, l, hs, hl⟩ := h _ (.separated_next hq hp)
      exact ⟨_, _, .many_more (.bind hq hp) he hs, hl⟩

theorem Ends.answered {x : Call} (h : x.Ends) (hx : x.place.Within text lo) : x.Answered := by
  induction h with
  | intro x acc ih =>
    have hself : ¬ Leads x x := fun hx => Ends.not_transGen_self (Acc.intro x acc) (.single hx)
    have hnext : ∀ y, Leads x y → y.Answered := fun y hy => ih y hy (hy.within hx)
    cases x with
    | read ρ p c =>
      obtain ⟨rest, hc⟩ := hx.readable
      exact answered_read hc hnext
    | rounds ρ p c => exact answered_rounds hnext
    | separated ρ p q c => exact answered_separated hself hnext

end Call

/-- A parser gets stuck nowhere that its calls come to an end. -/
theorem Peg.not_stuck_of_ends {p : Peg [] α} (h : (Call.read .none p c).Ends)
    (hc : c.Within text lo) (fault : Fault) : p.parser c ≠ .stuck fault := by
  obtain ⟨r, hr⟩ := h.answered hc
  have hresults := results_iff_eval.2 hr
  intro hstuck
  cases r with
  | none =>
    obtain ⟨f, hf⟩ := hresults
    cases hf.symm.trans hstuck
  | some x =>
    obtain ⟨e, he⟩ := hresults
    cases he.symm.trans hstuck

end PatternGen
