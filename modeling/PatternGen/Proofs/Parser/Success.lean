import PatternGen.Parser.Peg

namespace PatternGen

open Text

namespace Parser

def Gives (p : Parser α) (c : Cursor) (a : α) (d : Cursor) : Prop := ∃ e, p c = .done a d e

def Fails (p : Parser α) (c : Cursor) : Prop := ∃ f, p c = .failed f

/-- The successes of a repetition, up to the first failure or the first that reads nothing. -/
inductive Many (p : Parser α) : Cursor → List α → Cursor → Prop where
  | stop (h : p.Fails c) : Many p c [] c
  | last (h : p.Gives c a d) (hd : ¬ d.size < c.size) : Many p c [a] d
  | more (h : p.Gives c a d) (hd : d.size < c.size) (hs : Many p d as e) : Many p c (a :: as) e

/-- The successes of a repetition with separators, each of them before a success. -/
inductive Separated (p : Parser α) (q : Parser β) : Cursor → List α → Cursor → Prop where
  | stop (h : q.Fails c) : Separated p q c [] c
  | giveBack (hq : q.Gives c b d) (h : p.Fails d) : Separated p q c [] c
  | more (hq : q.Gives c b d) (h : p.Gives d a e) (he : e.size < c.size)
      (hs : Separated p q e as l) : Separated p q c (a :: as) l

variable {α β : Type} {p q : Parser α} {c d e : Cursor}

theorem Gives.not_fails (h : p.Gives c a d) : ¬ p.Fails c := by
  intro h'
  obtain ⟨_, h⟩ := h
  obtain ⟨_, h'⟩ := h'
  cases h.symm.trans h'

theorem Gives.unique (h : p.Gives c a d) (h' : p.Gives c b e) : a = b ∧ d = e := by
  obtain ⟨_, h⟩ := h
  obtain ⟨_, h'⟩ := h'
  cases h.symm.trans h'
  exact ⟨rfl, rfl⟩

theorem gives_success_iff {a : α} : (success a).Gives c b d ↔ b = a ∧ d = c := by
  constructor
  · intro h
    obtain ⟨_, ⟨⟩⟩ := h
    exact ⟨rfl, rfl⟩
  · intro h
    obtain ⟨rfl, rfl⟩ := h
    exact ⟨_, rfl⟩

theorem not_fails_success {a : α} : ¬ (success a).Fails c := by
  intro h
  obtain ⟨_, ⟨⟩⟩ := h

theorem not_gives_fail {a : α} : ¬ (fail : Parser α).Gives c a d := by
  intro h
  obtain ⟨_, ⟨⟩⟩ := h

theorem gives_token_iff {scan : List Char → Option (α × Nat)} :
    (token what scan).Gives c a d ↔
      ∃ rest n, c.rest? = some rest ∧ scan rest = some (a, n) ∧ d = c.advance n := by
  rw [Gives, token]
  cases c.rest? with
  | none => simp
  | some rest =>
    cases h : scan rest with
    | none => simp [h]
    | some r =>
      obtain ⟨b, n⟩ := r
      simp only [h, Outcome.done.injEq, Option.some.injEq]
      constructor
      · intro h
        obtain ⟨_, rfl, rfl, rfl⟩ := h
        exact ⟨rest, n, rfl, h, rfl⟩
      · intro h
        obtain ⟨_, m, rfl, hs, rfl⟩ := h
        cases h.symm.trans hs
        exact ⟨none, rfl, rfl, rfl⟩

theorem fails_token_iff {scan : List Char → Option (α × Nat)} :
    (token what scan).Fails c ↔ ∃ rest, c.rest? = some rest ∧ scan rest = none := by
  rw [Fails, token]
  cases c.rest? with
  | none => simp
  | some rest =>
    cases h : scan rest with
    | none => simp [h]
    | some r => simp [h]

theorem gives_endOfInput_iff : endOfInput.Gives c u d ↔ c.rest? = some [] ∧ d = c := by
  rw [Gives, endOfInput]
  split
  · next h => simp [h, eq_comm]
  · next h => simp [h]

theorem fails_endOfInput_iff : endOfInput.Fails c ↔ c.rest? ≠ some [] := by
  rw [Fails, endOfInput]
  split
  · next h => simp [h]
  · next h => simp [h]

theorem recalling_done_iff {o : Outcome α} {f : Option Failure} :
    (∃ e, o.recalling f = .done a d e) ↔ ∃ e, o = .done a d e := by
  cases o <;> simp [Outcome.recalling]

theorem recalling_failed_iff {o : Outcome α} {f : Option Failure} :
    (∃ e, o.recalling f = .failed e) ↔ ∃ e, o = .failed e := by
  cases o <;> simp [Outcome.recalling]

theorem gives_bind_iff {f : α → Parser β} :
    (bind p f).Gives c b e ↔ ∃ a d, p.Gives c a d ∧ (f a).Gives d b e := by
  cases hp : p c with
  | done a d x =>
    simp only [Gives, bind, hp, recalling_done_iff]
    constructor
    · intro h
      exact ⟨a, d, ⟨x, rfl⟩, h⟩
    · intro h
      obtain ⟨_, _, ⟨_, ⟨⟩⟩, h⟩ := h
      exact h
  | failed f => simp [Gives, bind, hp]
  | stuck x => simp [Gives, bind, hp]

theorem fails_bind_iff {f : α → Parser β} :
    (bind p f).Fails c ↔ p.Fails c ∨ ∃ a d, p.Gives c a d ∧ (f a).Fails d := by
  cases hp : p c with
  | done a d x =>
    simp only [Gives, Fails, bind, hp, recalling_failed_iff]
    constructor
    · intro h
      exact .inr ⟨a, d, ⟨x, rfl⟩, h⟩
    · intro h
      rcases h with ⟨_, ⟨⟩⟩ | ⟨_, _, ⟨_, ⟨⟩⟩, h⟩
      exact h
  | failed f => simp [Gives, Fails, bind, hp]
  | stuck x => simp [Gives, Fails, bind, hp]

theorem gives_orElse_iff :
    (orElse p q).Gives c a d ↔ p.Gives c a d ∨ p.Fails c ∧ q.Gives c a d := by
  cases hp : p c with
  | done b m x => simp [Gives, Fails, orElse, hp]
  | failed f => simp [Gives, Fails, orElse, hp, recalling_done_iff]
  | stuck x => simp [Gives, Fails, orElse, hp]

theorem fails_orElse_iff : (orElse p q).Fails c ↔ p.Fails c ∧ q.Fails c := by
  cases hp : p c with
  | done b m x => simp [Fails, orElse, hp]
  | failed f => simp [Fails, orElse, hp, recalling_failed_iff]
  | stuck x => simp [Fails, orElse, hp]

theorem not_gives_oneOf_nil {a : α} : ¬ (oneOf []).Gives c a d := by
  intro h
  obtain ⟨_, ⟨⟩⟩ := h

theorem gives_firstOf_iff (tried : Option Failure) (ps : List (Parser α)) :
    (firstOf tried ps).Gives c a d ↔ (oneOf ps).Gives c a d := by
  induction ps generalizing tried with
  | nil => simp [Gives, oneOf, firstOf]
  | cons p ps ih =>
    cases hp : p c with
    | done b m x => simp [Gives, oneOf, firstOf, hp, Outcome.recalling]
    | failed f =>
      simp only [Gives, oneOf, firstOf, hp]
      exact (ih _).trans (ih _).symm
    | stuck x => simp [Gives, oneOf, firstOf, hp, Outcome.recalling]

theorem gives_oneOf_cons_iff {ps : List (Parser α)} :
    (oneOf (p :: ps)).Gives c a d ↔ p.Gives c a d ∨ p.Fails c ∧ (oneOf ps).Gives c a d := by
  cases hp : p c with
  | done b m x => simp [Gives, Fails, oneOf, firstOf, hp]
  | failed f =>
    rw [← gives_firstOf_iff (some f) ps]
    simp [Gives, Fails, oneOf, firstOf, hp]
  | stuck x => simp [Gives, Fails, oneOf, firstOf, hp]

theorem fails_firstOf_iff (tried : Option Failure) (ps : List (Parser α)) :
    (firstOf tried ps).Fails c ↔ ∀ p ∈ ps, p.Fails c := by
  induction ps generalizing tried with
  | nil => simp [Fails, firstOf]
  | cons p ps ih =>
    rw [List.forall_mem_cons]
    cases hp : p c with
    | done b m x => simp [Fails, firstOf, hp, Outcome.recalling]
    | failed f =>
      rw [← ih (Failure.furthest tried (some f))]
      simp [Fails, firstOf, hp]
    | stuck x => simp [Fails, firstOf, hp, Outcome.recalling]

theorem gives_oneOf_ofFn_iff {ps : Fin n → Parser α} :
    (oneOf (List.ofFn ps)).Gives c a d ↔ ∃ i, (∀ j < i, (ps j).Fails c) ∧ (ps i).Gives c a d := by
  induction n with
  | zero => simp [not_gives_oneOf_nil]
  | succ n ih =>
    rw [List.ofFn_succ, gives_oneOf_cons_iff, ih, Fin.exists_fin_succ]
    simp [Fin.forall_fin_succ, and_assoc]

theorem fails_oneOf_ofFn_iff {ps : Fin n → Parser α} :
    (oneOf (List.ofFn ps)).Fails c ↔ ∀ i, (ps i).Fails c := by
  rw [oneOf, fails_firstOf_iff]
  simp

theorem gives_filter_iff {keep : α → Bool} :
    (filter what keep p).Gives c a d ↔ p.Gives c a d ∧ keep a := by
  cases hp : p c with
  | done b m x =>
    cases hk : keep b with
    | false =>
      simp [Gives, filter, hp, hk]
      rintro rfl -
      exact hk
    | true =>
      simp [Gives, filter, hp, hk]
      rintro rfl -
      exact hk
  | failed f => simp [Gives, filter, hp]
  | stuck x => simp [Gives, filter, hp]

theorem fails_filter_iff {keep : α → Bool} :
    (filter what keep p).Fails c ↔ p.Fails c ∨ ∃ a d, p.Gives c a d ∧ ¬ keep a := by
  cases hp : p c with
  | done b m x => cases hk : keep b <;> simp [Fails, Gives, filter, hp, hk]
  | failed f => simp [Fails, Gives, filter, hp]
  | stuck x => simp [Fails, Gives, filter, hp]

theorem Many.gives_collect {bs : List α} (h : Many p c bs e) (values : List α)
    (furthest : Option Failure) :
    Gives (collect p values furthest) c (values.reverse ++ bs) e := by
  induction h generalizing values furthest with
  | stop h =>
    obtain ⟨f, hp⟩ := h
    refine ⟨Failure.furthest furthest (some f), ?_⟩
    rw [collect, hp, List.append_nil]
  | last h hd =>
    obtain ⟨x, hp⟩ := h
    refine ⟨Failure.furthest furthest x, ?_⟩
    rw [collect, hp]
    dsimp only
    rw [if_neg hd, List.reverse_cons]
  | @more c a d as e h hd hs ih =>
    obtain ⟨x, hp⟩ := h
    rw [Gives, collect, hp]
    dsimp only
    rw [if_pos hd, List.append_cons, ← List.reverse_cons]
    exact ih (a :: values) _

theorem many_of_gives_collect {as values : List α} {furthest : Option Failure}
    (h : Gives (collect p values furthest) c as e) :
    ∃ bs, as = values.reverse ++ bs ∧ Many p c bs e := by
  fun_induction collect p values furthest c with
  | case1 values furthest c a d x hp hd ih =>
    rw [Gives, collect, hp] at h
    dsimp only at h
    rw [if_pos hd] at h
    obtain ⟨bs, rfl, hs⟩ := ih h
    exact ⟨a :: bs, by simp, .more ⟨x, hp⟩ hd hs⟩
  | case2 values furthest c a d x hp hd =>
    rw [Gives, collect, hp] at h
    dsimp only at h
    rw [if_neg hd] at h
    obtain ⟨_, ⟨⟩⟩ := h
    exact ⟨[a], by simp, .last ⟨x, hp⟩ hd⟩
  | case3 values furthest c f hp =>
    rw [Gives, collect, hp] at h
    obtain ⟨_, ⟨⟩⟩ := h
    exact ⟨[], by simp, .stop ⟨f, hp⟩⟩
  | case4 values furthest c x hp =>
    rw [Gives, collect, hp] at h
    obtain ⟨_, ⟨⟩⟩ := h

theorem gives_many_iff {as : List α} : (many p).Gives c as e ↔ Many p c as e := by
  constructor
  · intro h
    obtain ⟨bs, rfl, hs⟩ := many_of_gives_collect h
    exact hs
  · intro h
    exact h.gives_collect [] none

theorem not_fails_collect (values : List α) (furthest : Option Failure) :
    ¬ Fails (collect p values furthest) c := by
  induction hn : c.size using Nat.strongRecOn generalizing values furthest c with
  | _ n ih =>
    rw [Fails, collect]
    cases p c with
    | done a d x =>
      dsimp only
      split
      · next hd => exact ih d.size (hn ▸ hd) _ _ rfl
      · simp
    | failed f => simp
    | stuck x => simp

theorem not_fails_many : ¬ (many p).Fails c := not_fails_collect [] none

theorem fails_atLeastOne_iff : (atLeastOne p).Fails c ↔ p.Fails c := by
  cases hp : p c with
  | done a d x =>
    have h := not_fails_collect (p := p) (c := d) [a] x
    simpa [Fails, atLeastOne, hp] using h
  | failed f => simp [Fails, atLeastOne, hp]
  | stuck x => simp [Fails, atLeastOne, hp]

theorem gives_atLeastOne_iff {as : List α} :
    (atLeastOne p).Gives c as e ↔
      ∃ a d bs, p.Gives c a d ∧ Many p d bs e ∧ as = a :: bs := by
  constructor
  · intro h
    cases hp : p c with
    | done a d x =>
      rw [Gives, atLeastOne, hp] at h
      obtain ⟨bs, rfl, hs⟩ := many_of_gives_collect h
      exact ⟨a, d, bs, ⟨x, hp⟩, hs, rfl⟩
    | failed f =>
      rw [Gives, atLeastOne, hp] at h
      obtain ⟨_, ⟨⟩⟩ := h
    | stuck x =>
      rw [Gives, atLeastOne, hp] at h
      obtain ⟨_, ⟨⟩⟩ := h
  · intro h
    obtain ⟨a, d, bs, ⟨x, hp⟩, hs, rfl⟩ := h
    rw [Gives, atLeastOne, hp]
    exact hs.gives_collect [a] x

theorem Separated.gives_collect {q : Parser β} {bs : List α} (h : Separated p q c bs e)
    (values : List α) (furthest : Option Failure) :
    Gives (collectSeparated p q values furthest) c (values.reverse ++ bs) e := by
  induction h generalizing values furthest with
  | stop h =>
    obtain ⟨f, hq⟩ := h
    refine ⟨Failure.furthest furthest (some f), ?_⟩
    rw [collectSeparated, hq, List.append_nil]
  | giveBack hq h =>
    obtain ⟨x, hq⟩ := hq
    obtain ⟨f, hp⟩ := h
    refine ⟨Failure.furthest furthest (some f), ?_⟩
    rw [collectSeparated, hq]
    dsimp only
    rw [hp, List.append_nil]
  | @more c b d a e as l hq h he hs ih =>
    obtain ⟨x, hq⟩ := hq
    obtain ⟨y, hp⟩ := h
    rw [Gives, collectSeparated, hq]
    dsimp only
    rw [hp]
    dsimp only
    rw [if_pos he, List.append_cons, ← List.reverse_cons]
    exact ih (a :: values) _

theorem separated_of_gives_collect {q : Parser β} {as values : List α} {furthest : Option Failure}
    (h : Gives (collectSeparated p q values furthest) c as e) :
    ∃ bs, as = values.reverse ++ bs ∧ Separated p q c bs e := by
  fun_induction collectSeparated p q values furthest c with
  | case1 values furthest c f hq =>
    rw [Gives, collectSeparated, hq] at h
    obtain ⟨_, ⟨⟩⟩ := h
    exact ⟨[], by simp, .stop ⟨f, hq⟩⟩
  | case2 values furthest c x hq =>
    rw [Gives, collectSeparated, hq] at h
    obtain ⟨_, ⟨⟩⟩ := h
  | case3 values furthest c b d x hq f hp =>
    rw [Gives, collectSeparated, hq] at h
    dsimp only at h
    rw [hp] at h
    obtain ⟨_, ⟨⟩⟩ := h
    exact ⟨[], by simp, .giveBack ⟨x, hq⟩ ⟨f, hp⟩⟩
  | case4 values furthest c b d x hq y hp =>
    rw [Gives, collectSeparated, hq] at h
    dsimp only at h
    rw [hp] at h
    obtain ⟨_, ⟨⟩⟩ := h
  | case5 values furthest c b d x hq a m y hp hm ih =>
    rw [Gives, collectSeparated, hq] at h
    dsimp only at h
    rw [hp] at h
    dsimp only at h
    rw [if_pos hm] at h
    obtain ⟨bs, rfl, hs⟩ := ih h
    exact ⟨a :: bs, by simp, .more ⟨x, hq⟩ ⟨y, hp⟩ hm hs⟩
  | case6 values furthest c b d x hq a m y hp hm =>
    rw [Gives, collectSeparated, hq] at h
    dsimp only at h
    rw [hp] at h
    dsimp only at h
    rw [if_neg hm] at h
    obtain ⟨_, ⟨⟩⟩ := h

theorem not_fails_collectSeparated {q : Parser β} (values : List α) (furthest : Option Failure) :
    ¬ Fails (collectSeparated p q values furthest) c := by
  induction hn : c.size using Nat.strongRecOn generalizing values furthest c with
  | _ n ih =>
    rw [Fails, collectSeparated]
    cases q c with
    | done b d x =>
      dsimp only
      cases p d with
      | done a e y =>
        dsimp only
        split
        · next he => exact ih e.size (hn ▸ he) _ _ rfl
        · simp
      | failed f => simp
      | stuck y => simp
    | failed f => simp
    | stuck x => simp

theorem fails_separatedBy_iff {q : Parser β} : (separatedBy p q).Fails c ↔ p.Fails c := by
  cases hp : p c with
  | done a d x =>
    have h := not_fails_collectSeparated (p := p) (q := q) (c := d) [a] x
    simpa [Fails, separatedBy, hp] using h
  | failed f => simp [Fails, separatedBy, hp]
  | stuck x => simp [Fails, separatedBy, hp]

theorem gives_separatedBy_iff {q : Parser β} {as : List α} :
    (separatedBy p q).Gives c as e ↔
      ∃ a d bs, p.Gives c a d ∧ Separated p q d bs e ∧ as = a :: bs := by
  constructor
  · intro h
    cases hp : p c with
    | done a d x =>
      rw [Gives, separatedBy, hp] at h
      obtain ⟨bs, rfl, hs⟩ := separated_of_gives_collect h
      exact ⟨a, d, bs, ⟨x, hp⟩, hs, rfl⟩
    | failed f =>
      rw [Gives, separatedBy, hp] at h
      obtain ⟨_, ⟨⟩⟩ := h
    | stuck x =>
      rw [Gives, separatedBy, hp] at h
      obtain ⟨_, ⟨⟩⟩ := h
  · intro h
    obtain ⟨a, d, bs, ⟨x, hp⟩, hs, rfl⟩ := h
    rw [Gives, separatedBy, hp]
    exact hs.gives_collect [a] x

/-- A recursive parser at a place, where it can call itself only after that place. -/
def after (p : Parser α) (c : Cursor) : Parser α := fun d =>
  if d.size < c.size then p d else .stuck .endless

theorem gives_after_iff : (after p c).Gives d a e ↔ d.size < c.size ∧ p.Gives d a e := by
  rw [Gives, after]
  split
  · next h => simp [h, Gives]
  · next h => simp [h]

theorem fails_after_iff : (after p c).Fails d ↔ d.size < c.size ∧ p.Fails d := by
  rw [Fails, after]
  split
  · next h => simp [h, Fails]
  · next h => simp [h]

theorem recursive_apply (define : Parser α → Parser α) (c : Cursor) :
    recursive define c = define (after (recursive define) c) c := by
  rw [recursive]
  rfl

end Parser

end PatternGen
