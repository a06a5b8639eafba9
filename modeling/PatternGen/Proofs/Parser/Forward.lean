import PatternGen.Proofs.Parser.Success

namespace PatternGen

/-- The place, or one with less of the text left. -/
def Cursor.Follows (d c : Cursor) : Prop := d = c ∨ d.size < c.size

namespace Cursor

variable {c d e : Cursor}

theorem Follows.refl (c : Cursor) : c.Follows c := .inl rfl

theorem Follows.trans (h : e.Follows d) (h' : d.Follows c) : e.Follows c := by
  rcases h with rfl | h
  · exact h'
  · rcases h' with rfl | h'
    · exact .inr h
    · exact .inr (Nat.lt_trans h h')

theorem Follows.eq_of_not_lt (h : d.Follows c) (hn : ¬ d.size < c.size) : d = c :=
  h.resolve_right hn

theorem Follows.lt_of_ne (h : d.Follows c) (hne : d ≠ c) : d.size < c.size := h.resolve_left hne

theorem Follows.size_le (h : d.Follows c) : d.size ≤ c.size := by
  rcases h with rfl | h
  · exact Nat.le_refl _
  · exact Nat.le_of_lt h

/-- Advancing stays where it is only if there is nothing to read. -/
theorem follows_advance (c : Cursor) (n : Nat) : (c.advance n).Follows c := by
  obtain ⟨offset, _ | rest⟩ := c
  · exact .inl rfl
  · cases n with
    | zero => exact .inl (by simp [advance])
    | succ n =>
      cases rest with
      | nil => exact .inl (by simp [advance])
      | cons x rest =>
        apply Or.inr
        change (rest.drop n).length < rest.length + 1
        rw [List.length_drop]
        omega

end Cursor

namespace Parser

def Forward (p : Parser α) : Prop := ∀ c a d, p.Gives c a d → d.Follows c

variable {α β : Type} {p q : Parser α}

theorem forward_token (what : String) (scan : List Char → Option (α × Nat)) :
    (token what scan).Forward := by
  intro c a d h
  obtain ⟨rest, n, -, -, rfl⟩ := gives_token_iff.1 h
  exact Cursor.follows_advance c n

theorem forward_success (a : α) : (success a).Forward := by
  intro c b d h
  exact .inl (gives_success_iff.1 h).2

theorem forward_fail : (fail : Parser α).Forward := by
  intro c a d h
  exact (not_gives_fail h).elim

theorem forward_endOfInput : endOfInput.Forward := by
  intro c a d h
  exact .inl (gives_endOfInput_iff.1 h).2

theorem Forward.bind {f : α → Parser β} (hp : p.Forward) (hf : ∀ a, (f a).Forward) :
    (p.bind f).Forward := by
  intro c b e h
  obtain ⟨a, d, ha, hb⟩ := gives_bind_iff.1 h
  exact (hf a d b e hb).trans (hp c a d ha)

theorem Forward.orElse (hp : p.Forward) (hq : q.Forward) : (p.orElse q).Forward := by
  intro c a d h
  rcases gives_orElse_iff.1 h with h | ⟨-, h⟩
  · exact hp c a d h
  · exact hq c a d h

theorem forward_oneOf {ps : List (Parser α)} (h : ∀ p ∈ ps, p.Forward) : (oneOf ps).Forward := by
  intro c a d hg
  induction ps with
  | nil => exact (not_gives_oneOf_nil hg).elim
  | cons p ps ih =>
    obtain ⟨hp, hps⟩ := List.forall_mem_cons.1 h
    rcases gives_oneOf_cons_iff.1 hg with hg | ⟨-, hg⟩
    · exact hp c a d hg
    · exact ih hps hg

theorem Forward.filter (hp : p.Forward) (what : String) (keep : α → Bool) :
    (p.filter what keep).Forward := by
  intro c a d h
  exact hp c a d (gives_filter_iff.1 h).1

theorem Many.follows (hp : p.Forward) (h : Many p c as d) : d.Follows c := by
  induction h with
  | stop _ => exact .refl _
  | last h _ => exact hp _ _ _ h
  | more h _ _ ih => exact ih.trans (hp _ _ _ h)

theorem Forward.many (hp : p.Forward) : (many p).Forward := by
  intro c as d h
  exact (gives_many_iff.1 h).follows hp

theorem Forward.atLeastOne (hp : p.Forward) : (atLeastOne p).Forward := by
  intro c as e h
  obtain ⟨a, d, bs, ha, hs, -⟩ := gives_atLeastOne_iff.1 h
  exact (hs.follows hp).trans (hp c a d ha)

theorem Separated.follows {q : Parser β} (h : Separated p q c as d) : d.Follows c := by
  induction h with
  | stop _ => exact .refl _
  | giveBack _ _ => exact .refl _
  | more _ _ he _ ih => exact ih.trans (.inr he)

/-- A separator and a value in a row, again and again up to a failure. -/
theorem separated_iff {q : Parser β} (hp : p.Forward) (hq : q.Forward) :
    Separated p q c as d ↔ Many (q.bind fun _ => p) c as d ∧ (q.bind fun _ => p).Fails d := by
  constructor
  · intro h
    induction h with
    | @stop c h =>
      have hfail : (q.bind fun _ => p).Fails c := fails_bind_iff.2 (.inl h)
      exact ⟨.stop hfail, hfail⟩
    | @giveBack c b d hq h =>
      have hfail : (q.bind fun _ => p).Fails c := fails_bind_iff.2 (.inr ⟨b, d, hq, h⟩)
      exact ⟨.stop hfail, hfail⟩
    | more hq h he _ ih => exact ⟨.more (gives_bind_iff.2 ⟨_, _, hq, h⟩) he ih.1, ih.2⟩
  · intro h
    obtain ⟨hm, hd⟩ := h
    induction hm with
    | stop h =>
      rcases fails_bind_iff.1 h with h | ⟨b, e, hq, h⟩
      · exact .stop h
      · exact .giveBack hq h
    | @last c a d h hlt =>
      obtain rfl := (hq.bind (fun _ => hp) c a d h).eq_of_not_lt hlt
      exact (h.not_fails hd).elim
    | more h hlt _ ih =>
      obtain ⟨b, m, hq, h⟩ := gives_bind_iff.1 h
      exact .more hq h hlt (ih hd)

theorem Forward.separatedBy {q : Parser β} (hp : p.Forward) : (separatedBy p q).Forward := by
  intro c as e h
  obtain ⟨a, d, bs, ha, hs, -⟩ := gives_separatedBy_iff.1 h
  exact hs.follows.trans (hp c a d ha)

theorem forward_after (hp : ∀ d a e, d.size < c.size → p.Gives d a e → e.Follows d) :
    (after p c).Forward := by
  intro d a e h
  obtain ⟨hlt, h⟩ := gives_after_iff.1 h
  exact hp d a e hlt h

theorem Forward.after (hp : p.Forward) : (after p c).Forward :=
  forward_after fun d a e _ => hp d a e

theorem forward_recursive {define : Parser α → Parser α}
    (h : ∀ p, p.Forward → (define p).Forward) : Forward (recursive define) := by
  intro c a d hg
  induction hn : c.size using Nat.strongRecOn generalizing c a d with
  | _ n ih =>
    rw [Gives, recursive_apply] at hg
    have hafter : (after (recursive define) c).Forward := forward_after fun e b m hlt he =>
      ih e.size (hn ▸ hlt) e b m he rfl
    exact h _ hafter c a d hg

end Parser

def Handles.Forward (env : Handles Γ) : Prop := ∀ α (x : Handle α Γ), (env α x).Forward

theorem Handles.forward_none : Handles.none.Forward := nofun

theorem Handles.Forward.push {env : Handles Γ} (h : env.Forward) {p : Parser α} (hp : p.Forward) :
    (env.push p).Forward := by
  intro β x
  cases x with
  | innermost => exact hp
  | outer x => exact h β x

theorem Peg.forward_denote (p : Peg Γ α) {env : Handles Γ} (h : env.Forward) :
    (p.denote env).Forward := by
  induction p with
  | token what scan => exact Parser.forward_token what scan
  | success a => exact Parser.forward_success a
  | fail => exact Parser.forward_fail
  | endOfInput => exact Parser.forward_endOfInput
  | bind p f ihp ihf => exact (ihp h).bind fun a => ihf a h
  | orElse p q ihp ihq => exact (ihp h).orElse (ihq h)
  | choice n ps ih =>
    apply Parser.forward_oneOf
    intro p hp
    obtain ⟨i, rfl⟩ := List.mem_ofFn.1 hp
    exact ih i h
  | filter what keep p ih => exact (ih h).filter what keep
  | many p ih => exact (ih h).many
  | atLeastOne p ih => exact (ih h).atLeastOne
  | separatedBy p q ihp _ => exact (ihp h).separatedBy
  | recursive body ih =>
    apply Parser.forward_recursive
    intro p hp
    exact ih (h.push hp)
  | ref x => exact h _ x

end PatternGen
