import PatternGen.Proofs.Parser.BigStep
import PatternGen.Proofs.Parser.Forward

namespace PatternGen

namespace Parser

def Results (p : Parser α) (c : Cursor) : Option (α × Cursor) → Prop
  | some (a, d) => p.Gives c a d
  | none => p.Fails c

variable {α β : Type} {p : Parser α} {q : Parser β} {c d : Cursor}

theorem results_after_iff : (after p c).Results d r ↔ d.size < c.size ∧ p.Results d r := by
  cases r with
  | none => exact fails_after_iff
  | some x => exact gives_after_iff

theorem results_recursive_iff (define : Parser α → Parser α) :
    Results (recursive define) c r ↔ (define (after (recursive define) c)).Results c r := by
  cases r with
  | none => rw [Results, Results, Fails, Fails, recursive_apply]
  | some x => rw [Results, Results, Gives, Gives, recursive_apply]

end Parser

end PatternGen

namespace PatternGen.Peg

open PatternGen.Parser

variable {Γ : List Type} {α β : Type} {ρ : Bodies Γ} {env : Handles Γ}

theorem eval_many {p : Peg Γ α} {q : Parser α} (hq : q.Forward)
    (h : ∀ c r, q.Results c r → Eval ρ p c r) (hm : Many q c as d) :
    Eval ρ p.many c (some (as, d)) := by
  induction hm with
  | stop hf => exact .many_stop (h _ none hf)
  | @last c a d hg hlt =>
    obtain rfl := (hq c a d hg).eq_of_not_lt hlt
    exact .many_last (h _ (some _) hg)
  | more hg hlt _ ih =>
    refine .many_more (h _ (some _) hg) ?_ ih
    rintro rfl
    exact Nat.lt_irrefl _ hlt

theorem eval_bind {p : Peg Γ α} {f : α → Peg Γ β} {q : Parser α} {g : α → Parser β}
    (hp : ∀ c r, q.Results c r → Eval ρ p c r) (hf : ∀ a c r, (g a).Results c r → Eval ρ (f a) c r)
    (h : (q.bind g).Results c r) : Eval ρ (p.bind f) c r := by
  cases r with
  | none =>
    rcases fails_bind_iff.1 h with h | ⟨a, d, ha, h⟩
    · exact .bind_fail (hp c none h)
    · exact .bind (hp c (some (a, d)) ha) (hf a d none h)
  | some x =>
    obtain ⟨b, e⟩ := x
    obtain ⟨a, d, ha, h⟩ := gives_bind_iff.1 h
    exact .bind (hp c (some (a, d)) ha) (hf a d (some (b, e)) h)

def Derived (ρ : Bodies Γ) (env : Handles Γ) : Prop :=
  ∀ β (x : Handle β Γ) c r, (env β x).Results c r → Eval ρ (ref x) c r

/-- A recursive expression reads what its body reads where it can call itself later on only. -/
theorem eval_body_of_results {body : Peg (α :: Γ) α} (henv : env.Forward) (h : Derived ρ env)
    (ih : ∀ {env' : Handles (α :: Γ)} {d : Cursor} {s : Option (α × Cursor)}, env'.Forward →
      Derived (.push body ρ) env' → (body.denote env').Results d s → Eval (.push body ρ) body d s)
    (hr : ((recursive body).denote env).Results c r) : Eval (.push body ρ) body c r := by
  induction hn : c.size using Nat.strongRecOn generalizing c r with
  | _ n ihn =>
    have hself := (recursive body).forward_denote henv
    apply ih (henv.push hself.after) _ ((results_recursive_iff _).1 hr)
    intro β x d s hs
    cases x with
    | innermost =>
      obtain ⟨hlt, hs⟩ := results_after_iff.1 hs
      exact .innermost (ihn d.size (hn ▸ hlt) hs rfl)
    | outer x => exact .outer (h β x d s hs)

theorem eval_of_results {p : Peg Γ α} (henv : env.Forward) (h : Derived ρ env)
    (hr : (p.denote env).Results c r) : Eval ρ p c r := by
  induction p generalizing c with
  | token what scan =>
    cases r with
    | none =>
      obtain ⟨rest, hc, hs⟩ := fails_token_iff.1 hr
      exact .token_fail hc hs
    | some x =>
      obtain ⟨a, d⟩ := x
      obtain ⟨rest, n, hc, hs, rfl⟩ := gives_token_iff.1 hr
      exact .token hc hs
  | success a =>
    cases r with
    | none => exact (not_fails_success hr).elim
    | some x =>
      obtain ⟨rfl, rfl⟩ := gives_success_iff.1 hr
      exact .success
  | fail =>
    cases r with
    | none => exact .fail
    | some x => exact (not_gives_fail hr).elim
  | endOfInput =>
    cases r with
    | none => exact .endOfInput_fail (fails_endOfInput_iff.1 hr)
    | some x =>
      obtain ⟨hc, rfl⟩ := gives_endOfInput_iff.1 hr
      exact .endOfInput hc
  | bind p f ihp ihf => exact eval_bind (fun c r => ihp henv h) (fun a c r => ihf a henv h) hr
  | orElse p q ihp ihq =>
    cases r with
    | none =>
      obtain ⟨hp, hq⟩ := fails_orElse_iff.1 hr
      exact .orElse_fail (ihp henv h hp) (ihq henv h hq)
    | some x =>
      rcases gives_orElse_iff.1 hr with hp | ⟨hp, hq⟩
      · exact .orElse (ihp henv h hp)
      · exact .orElse_fail (ihp henv h hp) (ihq henv h hq)
  | choice n ps ih =>
    cases r with
    | none =>
      have hf := fails_oneOf_ofFn_iff.1 hr
      exact .choice_fail fun i => ih i henv h (hf i)
    | some x =>
      obtain ⟨i, hj, hi⟩ := gives_oneOf_ofFn_iff.1 hr
      exact .choice i (fun j hji => ih j henv h (hj j hji)) (ih i henv h hi)
  | filter what keep p ih =>
    cases r with
    | none =>
      rcases fails_filter_iff.1 hr with hp | ⟨a, d, hp, hk⟩
      · exact .filter_fail (ih henv h hp)
      · exact .filter_refuse (ih henv h hp) hk
    | some x =>
      obtain ⟨hp, hk⟩ := gives_filter_iff.1 hr
      exact .filter (ih henv h hp) hk
  | many p ih =>
    cases r with
    | none => exact (not_fails_many hr).elim
    | some x => exact eval_many (p.forward_denote henv) (fun c r => ih henv h) (gives_many_iff.1 hr)
  | atLeastOne p ih =>
    have hp := p.forward_denote henv
    cases r with
    | none => exact .atLeastOne_fail (ih henv h (fails_atLeastOne_iff.1 hr))
    | some x =>
      obtain ⟨l, e⟩ := x
      obtain ⟨a, d, as, ha, hs, rfl⟩ := gives_atLeastOne_iff.1 hr
      exact .atLeastOne (ih henv h ha) (eval_many hp (fun c r => ih henv h) hs)
  | separatedBy p q ihp ihq =>
    have hp := p.forward_denote henv
    have hq := q.forward_denote henv
    cases r with
    | none => exact .separatedBy_fail (ihp henv h (fails_separatedBy_iff.1 hr))
    | some x =>
      obtain ⟨l, e⟩ := x
      obtain ⟨a, d, as, ha, hs, rfl⟩ := gives_separatedBy_iff.1 hr
      obtain ⟨hm, he⟩ := (separated_iff hp hq).1 hs
      have hround c r (hr : ((q.denote env).bind fun _ => p.denote env).Results c r) :
          Eval ρ (q.ignoreThen p) c r :=
        eval_bind (fun c r => ihq henv h) (fun _ c r => ihp henv h) hr
      exact .separatedBy (ihp henv h ha) (eval_many (hq.bind fun _ => hp) hround hm)
        (hround e none he)
  | recursive body ih =>
    exact .recursive (eval_body_of_results henv h (fun henv' h' hs => ih henv' h' hs) hr)
  | ref x => exact h _ x c r hr

theorem exists_least_within {p : Peg Γ α} (h : Within n ρ p c r) :
    ∃ m s, Within m ρ p c s ∧ ∀ k < m, ∀ t, ¬ Within k ρ p c t := by
  classical
  have hex : ∃ m s, Within m ρ p c s := ⟨n, r, h⟩
  obtain ⟨s, hs⟩ := Nat.find_spec hex
  exact ⟨Nat.find hex, s, hs, fun k hk t ht => Nat.find_min hex hk ⟨t, ht⟩⟩

/-- From the place on, the handles read what derivations of the height lead to. -/
def Answers (n : Nat) (ρ : Bodies Γ) (env : Handles Γ) (c : Cursor) : Prop :=
  ∀ β (x : Handle β Γ) d r, d.Follows c → Within n ρ (ref x) d r → (env β x).Results d r

theorem Answers.mono (h : Answers n ρ env c) (hmn : m ≤ n) (hd : d.Follows c) :
    Answers m ρ env d :=
  fun β x e r he hr => h β x e r (he.trans hd) (hr.mono hmn)

/-- Parsers read what derivations of the height lead to. -/
def Adequate (n : Nat) : Prop :=
  ∀ {Γ : List Type} {α : Type} {ρ : Bodies Γ} {env : Handles Γ} {p : Peg Γ α} {c : Cursor}
    {r : Option (α × Cursor)}, env.Forward → Answers n ρ env c → Within n ρ p c r →
      (p.denote env).Results c r

theorem Adequate.gives {p : Peg Γ α} (h : Adequate n) (henv : env.Forward)
    (ha : Answers n ρ env c) (hp : Within n ρ p c (some (a, d))) :
    (p.denote env).Gives c a d ∧ Answers n ρ env d := by
  have hg := h henv ha hp
  exact ⟨hg, ha.mono (Nat.le_refl n) (p.forward_denote henv c a d hg)⟩

/-- Entered again at the same place, a body would have a derivation of less than its least
height. -/
theorem results_recursive_of_within {body : Peg (α :: Γ) α} (ih : ∀ m ≤ n, Adequate m)
    (henv : env.Forward) (ha : Answers (n + 1) ρ env c) (h : Within n (.push body ρ) body c r) :
    ((recursive body).denote env).Results c r := by
  obtain ⟨m, s, hs, hmin⟩ := exists_least_within h
  have hmn : m ≤ n := Nat.not_lt.1 fun hnm => hmin n hnm r h
  obtain rfl := (hs.mono hmn).unique h
  have hself := (recursive body).forward_denote henv
  apply (results_recursive_iff _).2
  apply ih m hmn (henv.push hself.after) _ hs
  intro β x d t hd ht
  cases m with
  | zero => exact ht.elim
  | succ k =>
    cases x with
    | innermost =>
      rw [Within] at ht
      rcases hd with rfl | hd
      · exact (hmin k (Nat.lt_succ_self k) t ht).elim
      · have hnext : Answers (k + 1) ρ env d := ha.mono (by omega) (.inr hd)
        have hrec : Within (k + 1) ρ (recursive body) d t := by
          rw [Within]
          exact ht
        exact results_after_iff.2 ⟨hd, ih (k + 1) hmn henv hnext hrec⟩
    | outer x =>
      rw [Within] at ht
      exact ha β x d t hd (ht.mono (by omega))

theorem Adequate.succ (hall : ∀ m ≤ n, Adequate m) : Adequate (n + 1) := by
  intro Γ α ρ env p c r henv ha h
  have ih : Adequate n := hall n (Nat.le_refl n)
  -- what the handles read has derivations of this height at most
  have hnow : Answers n ρ env c := ha.mono (Nat.le_succ n) (.refl c)
  cases p with
  | token what scan =>
    obtain ⟨rest, hc, rfl⟩ := h
    cases hs : scan rest with
    | none => exact fails_token_iff.2 ⟨rest, hc, hs⟩
    | some x => exact gives_token_iff.2 ⟨rest, x.2, hc, hs, rfl⟩
  | success a =>
    obtain rfl := h
    exact gives_success_iff.2 ⟨rfl, rfl⟩
  | fail =>
    obtain rfl := h
    exact ⟨_, rfl⟩
  | endOfInput =>
    obtain rfl := h
    split
    · next hc => exact gives_endOfInput_iff.2 ⟨hc, rfl⟩
    · next hc => exact fails_endOfInput_iff.2 hc
  | bind p f =>
    rcases h with ⟨a, d, hp, hf⟩ | ⟨hp, rfl⟩
    · obtain ⟨hpa, hnext⟩ := ih.gives henv hnow hp
      have hfa := ih henv hnext hf
      cases r with
      | none => exact fails_bind_iff.2 (.inr ⟨a, d, hpa, hfa⟩)
      | some x => exact gives_bind_iff.2 ⟨a, d, hpa, hfa⟩
    · exact fails_bind_iff.2 (.inl (ih henv hnow hp))
  | orElse p q =>
    rcases h with ⟨x, hp, rfl⟩ | ⟨hp, hq⟩
    · exact gives_orElse_iff.2 (.inl (ih henv hnow hp))
    · have hpf := ih henv hnow hp
      have hqr := ih henv hnow hq
      cases r with
      | none => exact fails_orElse_iff.2 ⟨hpf, hqr⟩
      | some x => exact gives_orElse_iff.2 (.inr ⟨hpf, hqr⟩)
  | choice k ps =>
    rcases h with ⟨i, x, hj, hi, rfl⟩ | ⟨hf, rfl⟩
    · have hfail j (hji : j < i) := ih henv hnow (hj j hji)
      exact gives_oneOf_ofFn_iff.2 ⟨i, hfail, ih henv hnow hi⟩
    · exact fails_oneOf_ofFn_iff.2 fun i => ih henv hnow (hf i)
  | filter what keep p =>
    rcases h with ⟨a, d, hp, rfl⟩ | ⟨hp, rfl⟩
    · have hpa := ih henv hnow hp
      split
      · next hk => exact gives_filter_iff.2 ⟨hpa, hk⟩
      · next hk => exact fails_filter_iff.2 (.inr ⟨a, d, hpa, hk⟩)
    · exact fails_filter_iff.2 (.inl (ih henv hnow hp))
  | many p =>
    rcases h with ⟨hp, rfl⟩ | ⟨a, hp, rfl⟩ | ⟨a, d, as, e, hp, hne, hs, rfl⟩
    · exact gives_many_iff.2 (.stop (ih henv hnow hp))
    · exact gives_many_iff.2 (.last (ih henv hnow hp) (Nat.lt_irrefl _))
    · obtain ⟨hpa, hnext⟩ := ih.gives henv hnow hp
      have hd : d.size < c.size := (p.forward_denote henv c a d hpa).lt_of_ne hne
      have hsa := gives_many_iff.1 (ih henv hnext hs)
      exact gives_many_iff.2 (.more hpa hd hsa)
  | atLeastOne p =>
    rcases h with ⟨a, d, as, e, hp, hs, rfl⟩ | ⟨hp, rfl⟩
    · obtain ⟨hpa, hnext⟩ := ih.gives henv hnow hp
      have hsa := gives_many_iff.1 (ih henv hnext hs)
      exact gives_atLeastOne_iff.2 ⟨a, d, as, hpa, hsa, rfl⟩
    · exact fails_atLeastOne_iff.2 (ih henv hnow hp)
  | separatedBy p q =>
    rcases h with ⟨a, d, as, e, hp, hs, he, rfl⟩ | ⟨hp, rfl⟩
    · obtain ⟨hpa, hnext⟩ := ih.gives henv hnow hp
      obtain ⟨hsa, hend⟩ := ih.gives henv hnext hs
      have hstop := ih henv hend he
      have hsep := (separated_iff (p.forward_denote henv) (q.forward_denote henv)).2
        ⟨gives_many_iff.1 hsa, hstop⟩
      exact gives_separatedBy_iff.2 ⟨a, d, as, hpa, hsep, rfl⟩
    · exact fails_separatedBy_iff.2 (ih henv hnow hp)
  | recursive body =>
    rw [Within] at h
    exact results_recursive_of_within hall henv ha h
  | ref x => exact ha _ x c r (.refl c) h

theorem adequate (n : Nat) : Adequate n := by
  induction n using Nat.strongRecOn with
  | _ n ih =>
    cases n with
    | zero => exact fun _ _ h => h.elim
    | succ n => exact Adequate.succ fun m hm => ih m (Nat.lt_succ_of_le hm)

theorem results_iff_eval {p : Peg [] α} : p.parser.Results c r ↔ Eval .none p c r := by
  have hnone : Handles.none.Forward := nofun
  constructor
  · exact eval_of_results hnone nofun
  · intro h
    obtain ⟨n, hn⟩ := h.exists_within
    exact adequate n hnone nofun hn

/-- A parser succeeds with what the relation derives and fails where the relation derives failure.
Where it goes in circles the relation derives nothing. -/
theorem parseAt_iff_eval {p : Peg [] α} {text : List Char} {offset : Nat} :
    (∀ a d, (∃ e, p.parser.parseAt text offset = .done a d e) ↔
      Eval .none p (.ofOffset text offset) (some (a, d))) ∧
    ((∃ f, p.parser.parseAt text offset = .failed f) ↔
      Eval .none p (.ofOffset text offset) none) := by
  constructor
  · intro a d
    exact results_iff_eval (r := some (a, d))
  · exact results_iff_eval (r := none)

end PatternGen.Peg
