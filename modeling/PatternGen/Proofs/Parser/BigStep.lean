import Mathlib.Data.Fintype.Order
import PatternGen.Parser.Peg

namespace PatternGen

/-- The bodies of the recursive expressions around an expression, the innermost first. Each may
refer to itself and to those around it. -/
inductive Bodies : List Type → Type 1 where
  | none : Bodies []
  | push {α : Type} {Γ : List Type} (body : Peg (α :: Γ) α) (ρ : Bodies Γ) : Bodies (α :: Γ)

namespace Peg

/-- What an expression reads at a place, a value and the place after it, or that it fails there. -/
inductive Eval : {Γ : List Type} → {α : Type} → Bodies Γ → Peg Γ α → Cursor →
    Option (α × Cursor) → Prop where
  | token (hc : c.rest? = some rest) (h : scan rest = some (a, n)) :
    Eval ρ (token what scan) c (some (a, c.advance n))
  | token_fail (hc : c.rest? = some rest) (h : scan rest = none) :
    Eval ρ (token what scan) c none
  | success : Eval ρ (success a) c (some (a, c))
  | fail : Eval ρ fail c none
  | endOfInput (h : c.rest? = some []) : Eval ρ endOfInput c (some ((), c))
  | endOfInput_fail (h : c.rest? ≠ some []) : Eval ρ endOfInput c none
  | bind (h : Eval ρ p c (some (a, d))) (hf : Eval ρ (f a) d r) : Eval ρ (bind p f) c r
  | bind_fail (h : Eval ρ p c none) : Eval ρ (bind p f) c none
  | orElse (h : Eval ρ p c (some x)) : Eval ρ (orElse p q) c (some x)
  | orElse_fail (h : Eval ρ p c none) (hq : Eval ρ q c r) : Eval ρ (orElse p q) c r
  | choice {ps : Fin n → Peg Γ α} (i : Fin n) (hj : ∀ j < i, Eval ρ (ps j) c none)
      (h : Eval ρ (ps i) c (some x)) :
    Eval ρ (choice n ps) c (some x)
  | choice_fail {ps : Fin n → Peg Γ α} (h : ∀ i, Eval ρ (ps i) c none) : Eval ρ (choice n ps) c none
  | filter (h : Eval ρ p c (some (a, d))) (hk : keep a) :
    Eval ρ (filter what keep p) c (some (a, d))
  | filter_refuse (h : Eval ρ p c (some (a, d))) (hk : ¬ keep a) :
    Eval ρ (filter what keep p) c none
  | filter_fail (h : Eval ρ p c none) : Eval ρ (filter what keep p) c none
  -- A success that reads nothing is kept once and ends the repetition.
  | many_stop (h : Eval ρ p c none) : Eval ρ p.many c (some ([], c))
  | many_last (h : Eval ρ p c (some (a, c))) : Eval ρ p.many c (some ([a], c))
  | many_more (h : Eval ρ p c (some (a, d))) (hd : d ≠ c) (hs : Eval ρ p.many d (some (as, e))) :
    Eval ρ p.many c (some (a :: as, e))
  | atLeastOne (h : Eval ρ p c (some (a, d))) (hs : Eval ρ p.many d (some (as, e))) :
    Eval ρ p.atLeastOne c (some (a :: as, e))
  | atLeastOne_fail (h : Eval ρ p c none) : Eval ρ p.atLeastOne c none
  -- What ends the rounds of a separator and a value is a failure, not a round that reads nothing.
  | separatedBy (h : Eval ρ p c (some (a, d)))
      (hs : Eval ρ (q.ignoreThen p).many d (some (as, e)))
      (he : Eval ρ (q.ignoreThen p) e none) :
    Eval ρ (p.separatedBy q) c (some (a :: as, e))
  | separatedBy_fail (h : Eval ρ p c none) : Eval ρ (p.separatedBy q) c none
  | recursive (h : Eval (.push body ρ) body c r) : Eval ρ (recursive body) c r
  | innermost (h : Eval (.push body ρ) body c r) : Eval (.push body ρ) (ref .innermost) c r
  | outer (h : Eval ρ (ref x) c r) : Eval (.push body ρ) (ref (.outer x)) c r

/-- A derivation of the height `n` or less leads there. -/
def Within : Nat → Bodies Γ → Peg Γ α → Cursor → Option (α × Cursor) → Prop
  | 0, _, _, _, _ => False
  | _ + 1, _, .token _ scan, c, r =>
    ∃ rest, c.rest? = some rest ∧ r = (scan rest).map fun (a, n) => (a, c.advance n)
  | _ + 1, _, .success a, c, r => r = some (a, c)
  | _ + 1, _, .fail, _, r => r = none
  | _ + 1, _, .endOfInput, c, r => r = if c.rest? = some [] then some ((), c) else none
  | n + 1, ρ, .bind p f, c, r =>
    (∃ a d, Within n ρ p c (some (a, d)) ∧ Within n ρ (f a) d r) ∨ Within n ρ p c none ∧ r = none
  | n + 1, ρ, .orElse p q, c, r =>
    (∃ x, Within n ρ p c (some x) ∧ r = some x) ∨ Within n ρ p c none ∧ Within n ρ q c r
  | n + 1, ρ, .choice _ ps, c, r =>
    (∃ i x, (∀ j < i, Within n ρ (ps j) c none) ∧ Within n ρ (ps i) c (some x) ∧ r = some x) ∨
      (∀ i, Within n ρ (ps i) c none) ∧ r = none
  | n + 1, ρ, .filter _ keep p, c, r =>
    (∃ a d, Within n ρ p c (some (a, d)) ∧ r = if keep a then some (a, d) else none) ∨
      Within n ρ p c none ∧ r = none
  | n + 1, ρ, .many p, c, r =>
    Within n ρ p c none ∧ r = some ([], c) ∨
      (∃ a, Within n ρ p c (some (a, c)) ∧ r = some ([a], c)) ∨
        ∃ a d as e, Within n ρ p c (some (a, d)) ∧ d ≠ c ∧ Within n ρ p.many d (some (as, e)) ∧
          r = some (a :: as, e)
  | n + 1, ρ, .atLeastOne p, c, r =>
    (∃ a d as e, Within n ρ p c (some (a, d)) ∧ Within n ρ p.many d (some (as, e)) ∧
      r = some (a :: as, e)) ∨ Within n ρ p c none ∧ r = none
  | n + 1, ρ, .separatedBy p q, c, r =>
    (∃ a d as e, Within n ρ p c (some (a, d)) ∧
      Within n ρ (q.ignoreThen p).many d (some (as, e)) ∧ Within n ρ (q.ignoreThen p) e none ∧
        r = some (a :: as, e)) ∨ Within n ρ p c none ∧ r = none
  | n + 1, ρ, .recursive body, c, r => Within n (.push body ρ) body c r
  | n + 1, .push body ρ, .ref .innermost, c, r => Within n (.push body ρ) body c r
  | n + 1, .push _ ρ, .ref (.outer x), c, r => Within n ρ (ref x) c r

theorem Within.succ {n : Nat} {Γ : List Type} {α : Type} {ρ : Bodies Γ} {p : Peg Γ α}
    {c : Cursor} {r : Option (α × Cursor)} (h : Within n ρ p c r) : Within (n + 1) ρ p c r := by
  induction n generalizing Γ α c with
  | zero => exact h.elim
  | succ n ih =>
    cases p with
    | token | success | fail | endOfInput => exact h
    | bind p f =>
      rcases h with ⟨a, d, hp, hf⟩ | ⟨hp, hr⟩
      · exact .inl ⟨a, d, ih hp, ih hf⟩
      · exact .inr ⟨ih hp, hr⟩
    | orElse p q =>
      rcases h with ⟨x, hp, hr⟩ | ⟨hp, hq⟩
      · exact .inl ⟨x, ih hp, hr⟩
      · exact .inr ⟨ih hp, ih hq⟩
    | choice k ps =>
      rcases h with ⟨i, x, hj, hi, hr⟩ | ⟨hf, hr⟩
      · exact .inl ⟨i, x, fun j hji => ih (hj j hji), ih hi, hr⟩
      · exact .inr ⟨fun i => ih (hf i), hr⟩
    | filter what keep p =>
      rcases h with ⟨a, d, hp, hr⟩ | ⟨hp, hr⟩
      · exact .inl ⟨a, d, ih hp, hr⟩
      · exact .inr ⟨ih hp, hr⟩
    | many p =>
      rcases h with ⟨hp, hr⟩ | ⟨a, hp, hr⟩ | ⟨a, d, as, e, hp, hd, hs, hr⟩
      · exact .inl ⟨ih hp, hr⟩
      · exact .inr (.inl ⟨a, ih hp, hr⟩)
      · exact .inr (.inr ⟨a, d, as, e, ih hp, hd, ih hs, hr⟩)
    | atLeastOne p =>
      rcases h with ⟨a, d, as, e, hp, hs, hr⟩ | ⟨hp, hr⟩
      · exact .inl ⟨a, d, as, e, ih hp, ih hs, hr⟩
      · exact .inr ⟨ih hp, hr⟩
    | separatedBy p q =>
      rcases h with ⟨a, d, as, e, hp, hs, he, hr⟩ | ⟨hp, hr⟩
      · exact .inl ⟨a, d, as, e, ih hp, ih hs, ih he, hr⟩
      · exact .inr ⟨ih hp, hr⟩
    | recursive body =>
      rw [Within] at h ⊢
      exact ih h
    | ref x =>
      cases x with
      | innermost =>
        cases ρ with
        | push body ρ =>
          rw [Within] at h ⊢
          exact ih h
      | outer x =>
        cases ρ with
        | push body ρ =>
          rw [Within] at h ⊢
          exact ih h

theorem Within.mono {ρ : Bodies Γ} {p : Peg Γ α} (h : Within n ρ p c r) (hnm : n ≤ m) :
    Within m ρ p c r := by
  induction hnm with
  | refl => exact h
  | step _ ih => exact ih.succ

theorem exists_within_forall {ρ : Bodies Γ} {ps : Fin k → Peg Γ α} {P : Fin k → Prop}
    (h : ∀ j, P j → ∃ n, Within n ρ (ps j) c r) : ∃ n, ∀ j, P j → Within n ρ (ps j) c r := by
  have hex (j : Fin k) : ∃ n, P j → Within n ρ (ps j) c r := by
    by_cases hj : P j
    · obtain ⟨n, hn⟩ := h j hj
      exact ⟨n, fun _ => hn⟩
    · exact ⟨0, fun hj' => (hj hj').elim⟩
  choose n hn using hex
  obtain ⟨m, hm⟩ := Finite.exists_le n
  exact ⟨m, fun j hj => (hn j hj).mono (hm j)⟩

theorem exists_within_and {ρ : Bodies Γ} {p : Peg Γ α} {q : Peg Γ β}
    (h : ∃ n, Within n ρ p c r) (h' : ∃ n, Within n ρ q d s) :
    ∃ n, Within n ρ p c r ∧ Within n ρ q d s := by
  obtain ⟨n, h⟩ := h
  obtain ⟨m, h'⟩ := h'
  exact ⟨max n m, h.mono (Nat.le_max_left n m), h'.mono (Nat.le_max_right n m)⟩

theorem Eval.exists_within {ρ : Bodies Γ} {p : Peg Γ α} (h : Eval ρ p c r) :
    ∃ n, Within n ρ p c r := by
  induction h with
  | token hc h => exact ⟨1, _, hc, by rw [h]; rfl⟩
  | token_fail hc h => exact ⟨1, _, hc, by rw [h]; rfl⟩
  | success => exact ⟨1, rfl⟩
  | fail => exact ⟨1, rfl⟩
  | endOfInput h => exact ⟨1, (if_pos h).symm⟩
  | endOfInput_fail h => exact ⟨1, (if_neg h).symm⟩
  | bind _ _ ih ihf =>
    obtain ⟨n, hp, hf⟩ := exists_within_and ih ihf
    exact ⟨n + 1, .inl ⟨_, _, hp, hf⟩⟩
  | bind_fail _ ih =>
    obtain ⟨n, hp⟩ := ih
    exact ⟨n + 1, .inr ⟨hp, rfl⟩⟩
  | orElse _ ih =>
    obtain ⟨n, hp⟩ := ih
    exact ⟨n + 1, .inl ⟨_, hp, rfl⟩⟩
  | orElse_fail _ _ ih ihq =>
    obtain ⟨n, hp, hq⟩ := exists_within_and ih ihq
    exact ⟨n + 1, .inr ⟨hp, hq⟩⟩
  | choice i _ _ ihj ih =>
    obtain ⟨n, hj⟩ := exists_within_forall ihj
    obtain ⟨m, hi⟩ := ih
    exact ⟨max n m + 1, .inl ⟨i, _, fun j hji => (hj j hji).mono (Nat.le_max_left n m),
      hi.mono (Nat.le_max_right n m), rfl⟩⟩
  | choice_fail _ ih =>
    obtain ⟨n, hf⟩ := exists_within_forall (P := fun _ => True) fun j _ => ih j
    exact ⟨n + 1, .inr ⟨fun i => hf i trivial, rfl⟩⟩
  | filter _ hk ih =>
    obtain ⟨n, hp⟩ := ih
    exact ⟨n + 1, .inl ⟨_, _, hp, (if_pos hk).symm⟩⟩
  | filter_refuse _ hk ih =>
    obtain ⟨n, hp⟩ := ih
    exact ⟨n + 1, .inl ⟨_, _, hp, (if_neg hk).symm⟩⟩
  | filter_fail _ ih =>
    obtain ⟨n, hp⟩ := ih
    exact ⟨n + 1, .inr ⟨hp, rfl⟩⟩
  | many_stop _ ih =>
    obtain ⟨n, hp⟩ := ih
    exact ⟨n + 1, .inl ⟨hp, rfl⟩⟩
  | many_last _ ih =>
    obtain ⟨n, hp⟩ := ih
    exact ⟨n + 1, .inr (.inl ⟨_, hp, rfl⟩)⟩
  | many_more _ hd _ ih ihs =>
    obtain ⟨n, hp, hs⟩ := exists_within_and ih ihs
    exact ⟨n + 1, .inr (.inr ⟨_, _, _, _, hp, hd, hs, rfl⟩)⟩
  | atLeastOne _ _ ih ihs =>
    obtain ⟨n, hp, hs⟩ := exists_within_and ih ihs
    exact ⟨n + 1, .inl ⟨_, _, _, _, hp, hs, rfl⟩⟩
  | atLeastOne_fail _ ih =>
    obtain ⟨n, hp⟩ := ih
    exact ⟨n + 1, .inr ⟨hp, rfl⟩⟩
  | separatedBy _ _ _ ih ihs ihe =>
    obtain ⟨n, hp, hs⟩ := exists_within_and ih ihs
    obtain ⟨m, he⟩ := ihe
    exact ⟨max n m + 1, .inl ⟨_, _, _, _, hp.mono (Nat.le_max_left n m),
      hs.mono (Nat.le_max_left n m), he.mono (Nat.le_max_right n m), rfl⟩⟩
  | separatedBy_fail _ ih =>
    obtain ⟨n, hp⟩ := ih
    exact ⟨n + 1, .inr ⟨hp, rfl⟩⟩
  | recursive _ ih =>
    obtain ⟨n, hb⟩ := ih
    exact ⟨n + 1, by rw [Within]; exact hb⟩
  | innermost _ ih =>
    obtain ⟨n, hb⟩ := ih
    exact ⟨n + 1, by rw [Within]; exact hb⟩
  | outer _ ih =>
    obtain ⟨n, hb⟩ := ih
    exact ⟨n + 1, by rw [Within]; exact hb⟩

/-- No expression both succeeds and fails at a place, nor does it read two different things. -/
theorem Within.unique {n : Nat} {Γ : List Type} {α : Type} {ρ : Bodies Γ} {p : Peg Γ α}
    {c : Cursor} {r s : Option (α × Cursor)} (h : Within n ρ p c r) (h' : Within n ρ p c s) :
    r = s := by
  induction n generalizing Γ α c with
  | zero => exact h.elim
  | succ n ih =>
    cases p with
    | token what scan =>
      obtain ⟨rest, hc, rfl⟩ := h
      obtain ⟨rest', hc', rfl⟩ := h'
      cases hc.symm.trans hc'
      rfl
    | success | fail | endOfInput => exact h.trans h'.symm
    | bind p f =>
      rcases h with ⟨a, d, hp, hf⟩ | ⟨hp, rfl⟩ <;> rcases h' with ⟨b, e, hp', hf'⟩ | ⟨hp', rfl⟩
      · cases ih hp hp'
        exact ih hf hf'
      · cases ih hp hp'
      · cases ih hp hp'
      · rfl
    | orElse p q =>
      rcases h with ⟨x, hp, rfl⟩ | ⟨hp, hq⟩ <;> rcases h' with ⟨y, hp', rfl⟩ | ⟨hp', hq'⟩
      · exact ih hp hp'
      · cases ih hp hp'
      · cases ih hp hp'
      · exact ih hq hq'
    | choice k ps =>
      rcases h with ⟨i, x, hj, hi, rfl⟩ | ⟨hf, rfl⟩ <;>
        rcases h' with ⟨i', y, hj', hi', rfl⟩ | ⟨hf', rfl⟩
      · rcases lt_trichotomy i i' with hlt | rfl | hlt
        · cases ih hi (hj' i hlt)
        · exact ih hi hi'
        · cases ih hi' (hj i' hlt)
      · cases ih hi (hf' i)
      · cases ih hi' (hf i')
      · rfl
    | filter what keep p =>
      rcases h with ⟨a, d, hp, rfl⟩ | ⟨hp, rfl⟩ <;> rcases h' with ⟨b, e, hp', rfl⟩ | ⟨hp', rfl⟩ <;>
        cases ih hp hp'
      · rfl
      · rfl
    | many p =>
      rcases h with ⟨hp, rfl⟩ | ⟨a, hp, rfl⟩ | ⟨a, d, as, e, hp, hd, hs, rfl⟩ <;>
        rcases h' with ⟨hp', rfl⟩ | ⟨b, hp', rfl⟩ | ⟨b, d', bs, e', hp', hd', hs', rfl⟩ <;>
          cases ih hp hp'
      · rfl
      · rfl
      · exact (hd' rfl).elim
      · exact (hd rfl).elim
      · cases ih hs hs'
        rfl
    | atLeastOne p =>
      rcases h with ⟨a, d, as, e, hp, hs, rfl⟩ | ⟨hp, rfl⟩ <;>
        rcases h' with ⟨b, d', bs, e', hp', hs', rfl⟩ | ⟨hp', rfl⟩ <;> cases ih hp hp'
      · cases ih hs hs'
        rfl
      · rfl
    | separatedBy p q =>
      rcases h with ⟨a, d, as, e, hp, hs, -, rfl⟩ | ⟨hp, rfl⟩ <;>
        rcases h' with ⟨b, d', bs, e', hp', hs', -, rfl⟩ | ⟨hp', rfl⟩ <;> cases ih hp hp'
      · cases ih hs hs'
        rfl
      · rfl
    | recursive body =>
      rw [Within] at h h'
      exact ih h h'
    | ref x =>
      cases x with
      | innermost =>
        cases ρ with
        | push body ρ =>
          rw [Within] at h h'
          exact ih h h'
      | outer x =>
        cases ρ with
        | push body ρ =>
          rw [Within] at h h'
          exact ih h h'

end Peg

end PatternGen
