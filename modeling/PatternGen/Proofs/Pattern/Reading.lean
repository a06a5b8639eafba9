import PatternGen.Proofs.Pattern.Spelling

namespace PatternGen

open PatternGen.Parser Pattern

namespace Grammar

open Peg

variable {Γ : List Type} {env : Handles Γ} {inner : Peg Γ Pattern} {c d e : Cursor}

theorem gives_literal_iff {text : String} :
    (literal.denote env).Gives c text d ↔
      SpellsTerm (.literal text) text.toList ∧ c.Spans text.toList d ∧
        ∃ rest, d.rest? = some rest ∧ Halts isLiteral rest := by
  rw [literal, gives_map_iff, SpellsTerm]
  constructor
  · intro h
    obtain ⟨s, h, rfl⟩ := h
    obtain ⟨hne, hl, hs, hd⟩ := gives_run_iff.1 h
    rw [String.toList_ofList]
    exact ⟨⟨rfl, hne, hl⟩, hs, hd⟩
  · intro h
    obtain ⟨⟨-, hne, hl⟩, hs, hd⟩ := h
    exact ⟨text.toList, gives_run_iff.2 ⟨hne, hl, hs, hd⟩, String.ofList_toList.symm⟩

theorem fails_literal_iff :
    (literal.denote env).Fails c ↔ ∃ rest, c.rest? = some rest ∧ Halts isLiteral rest := by
  rw [literal, fails_map_iff, fails_run_iff]

theorem gives_charClass_iff {k : CharClass} :
    (charClass.denote env).Gives c k d ↔ ∃ s, SpellsTerm (.charClass k) s ∧ c.Spans s d := by
  rw [charClass, gives_thenIgnore_iff]
  constructor
  · intro h
    obtain ⟨_, b, h, hclose⟩ := h
    obtain ⟨_, a, hopen, hbody⟩ := gives_ignoreThen_iff.1 h
    obtain ⟨-, hopen⟩ := gives_char_iff.1 hopen
    obtain ⟨-, hclose⟩ := gives_char_iff.1 hclose
    obtain ⟨body, rest, hk, hb, hs, -, -⟩ := gives_classBody_iff.1 hbody
    refine ⟨'[' :: (body ++ [']']), ?_, hopen.trans (hs.trans hclose)⟩
    rw [SpellsTerm]
    exact ⟨body, hk, hb, rfl⟩
  · intro h
    obtain ⟨s, h, hs⟩ := h
    rw [SpellsTerm] at h
    obtain ⟨body, hk, hb, rfl⟩ := h
    obtain ⟨a, hopen, hs⟩ := hs.uncons
    obtain ⟨b, hs, hclose⟩ := hs.cut
    obtain ⟨rest, hd⟩ := hclose.exists_rest
    have hh : Halts staysInClass ([']'] ++ rest) := halts_cons_iff.2 (by decide)
    have hbody : (classBody.denote env).Gives a k b :=
      gives_classBody_iff.2 ⟨body, _, hk, hb, hs, hclose.rest?_eq hd, hh⟩
    refine ⟨']', b, ?_, gives_char_iff.2 ⟨rfl, hclose⟩⟩
    exact gives_ignoreThen_iff.2 ⟨'[', a, gives_char_iff.2 ⟨rfl, hopen⟩, hbody⟩

theorem fails_charClass (hc : c.rest? = some rest) (h : rest.head? ≠ some '[') :
    (charClass.denote env).Fails c := by
  rw [charClass, fails_thenIgnore_iff, fails_ignoreThen_iff]
  exact .inl (.inl (fails_char_iff.2 ⟨rest, hc, h⟩))

theorem gives_group_iff {p : Pattern} :
    ((group inner).denote env).Gives c p e ↔
      ∃ a d, c.Spans ['('] a ∧ (inner.denote env).Gives a p d ∧ d.Spans [')'] e := by
  rw [group, gives_thenIgnore_iff]
  constructor
  · intro h
    obtain ⟨_, d, h, hclose⟩ := h
    obtain ⟨_, a, hopen, hp⟩ := gives_ignoreThen_iff.1 h
    exact ⟨a, d, (gives_char_iff.1 hopen).2, hp, (gives_char_iff.1 hclose).2⟩
  · intro h
    obtain ⟨a, d, hopen, hp, hclose⟩ := h
    refine ⟨')', d, ?_, gives_char_iff.2 ⟨rfl, hclose⟩⟩
    exact gives_ignoreThen_iff.2 ⟨'(', a, gives_char_iff.2 ⟨rfl, hopen⟩, hp⟩

theorem fails_group (hc : c.rest? = some rest) (h : rest.head? ≠ some '(') :
    ((group inner).denote env).Fails c := by
  rw [group, fails_thenIgnore_iff, fails_ignoreThen_iff]
  exact .inl (.inl (fails_char_iff.2 ⟨rest, hc, h⟩))

theorem gives_term_iff :
    ((term inner).denote env).Gives c t d ↔
      (∃ k, (charClass.denote env).Gives c k d ∧ t = .charClass k) ∨
        (charClass.denote env).Fails c ∧
          ((∃ text, (literal.denote env).Gives c text d ∧ t = .literal text) ∨
            (literal.denote env).Fails c ∧
              ∃ p, ((group inner).denote env).Gives c p d ∧ t = .group p) := by
  rw [term, denote_oneOf]
  simp only [List.map_cons, List.map_nil, gives_oneOf_cons_iff, not_gives_oneOf_nil, and_false,
    or_false, gives_map_iff, fails_map_iff]

/-- No term begins where a branch ends. -/
theorem fails_term (hc : c.rest? = some rest) (h : Halts staysInBranch rest) :
    ((term inner).denote env).Fails c := by
  have hne {x : Char} (hx : staysInBranch x) : rest.head? ≠ some x := by
    intro hr
    exact h x hr hx
  rw [term, denote_oneOf, Parser.oneOf, fails_firstOf_iff]
  simp only [List.map_cons, List.map_nil, List.forall_mem_cons, fails_map_iff]
  refine ⟨fails_charClass hc (hne (by decide)), ?_, fails_group hc (hne (by decide)),
    List.forall_mem_nil _⟩
  exact fails_literal_iff.2 ⟨rest, hc, h.mono isLiteral_staysInBranch⟩

theorem fails_piece (hc : c.rest? = some rest) (h : Halts staysInBranch rest) :
    ((piece inner).denote env).Fails c := by
  rw [piece, fails_zip_iff]
  exact .inl (fails_term hc h)

section Sound

variable (hinner : ∀ {d q e}, (inner.denote env).Gives d q e → ∃ s, d.Spans s e ∧ q.Spells s)

include hinner

theorem spells_of_gives_term (h : ((term inner).denote env).Gives c t d) :
    ∃ s, SpellsTerm t s ∧ c.Spans s d ∧ ∀ rest, d.rest? = some rest → Apart s rest := by
  have hlast {s} (ht : SpellsTerm t s) (hne : ∀ text, t ≠ .literal text) (rest : List Char) :
      Apart s rest := by
    rcases ht.last with ⟨text, htext⟩ | ⟨x, hx, hl⟩
    · exact (hne text htext).elim
    · exact apart_of_last hx hl rest
  rcases gives_term_iff.1 h with ⟨k, hk, rfl⟩ | ⟨-, ⟨text, htext, rfl⟩ | ⟨-, p, hp, rfl⟩⟩
  · obtain ⟨s, ht, hs⟩ := gives_charClass_iff.1 hk
    exact ⟨s, ht, hs, fun rest _ => hlast ht nofun rest⟩
  · obtain ⟨ht, hs, rest, hd, hh⟩ := gives_literal_iff.1 htext
    refine ⟨text.toList, ht, hs, ?_⟩
    intro rest' hd' x _ _
    cases hd.symm.trans hd'
    exact hh
  · obtain ⟨a, b, hopen, hp, hclose⟩ := gives_group_iff.1 hp
    obtain ⟨s, hs, hq⟩ := hinner hp
    have ht : SpellsTerm (.group p) ('(' :: (s ++ [')'])) := by
      rw [SpellsTerm]
      exact ⟨s, hq, rfl⟩
    exact ⟨_, ht, hopen.trans (hs.trans hclose), fun rest _ => hlast ht nofun rest⟩

theorem spells_of_gives_piece {p : Piece} (h : ((piece inner).denote env).Gives c p d) :
    ∃ s, SpellsPiece p s ∧ c.Spans s d ∧ ∀ rest, d.rest? = some rest → Apart s rest := by
  obtain ⟨t, r⟩ := p
  rw [piece, gives_zip_iff] at h
  obtain ⟨m, ht, hr⟩ := h
  obtain ⟨u, ht, hu, hapart⟩ := spells_of_gives_term hinner ht
  obtain ⟨v, hr, hv⟩ := spells_of_gives_repetition hr
  refine ⟨u ++ v, ?_, hu.trans hv, ?_⟩
  · rw [SpellsPiece]
    exact ⟨u, v, ht, hr, rfl⟩
  intro rest hd
  rcases hr.last with ⟨-, rfl⟩ | ⟨x, hx, hl⟩
  · cases hv.eq_of_nil
    rw [List.append_nil]
    exact hapart rest hd
  · exact apart_of_last (by rw [List.getLast?_append, hx, Option.some_or]) hl rest

theorem spells_of_gives_first_piece {p : Piece} {ps : Branch}
    (h : ((piece inner).denote env).Gives c p d)
    (hps : ∀ rest, d.rest? = some rest → ∃ v, SpellsPieces ps v ∧ d.Spans v e) :
    ∃ s, SpellsPieces (p :: ps) s ∧ c.Spans s e := by
  obtain ⟨u, hp, hu, hapart⟩ := spells_of_gives_piece hinner h
  obtain ⟨rest, hd⟩ := hu.exists_rest
  obtain ⟨v, hps, hv⟩ := hps rest hd
  obtain ⟨rest', he⟩ := hv.exists_rest
  have hv' := hapart _ (hv.rest?_eq he)
  refine ⟨u ++ v, ?_, hu.trans hv⟩
  rw [SpellsPieces]
  exact ⟨u, v, hp, hps, hv'.of_append, rfl⟩

theorem spells_of_many_piece {ps : Branch} (h : Many ((piece inner).denote env) c ps e)
    (hc : c.rest? = some rest) : ∃ s, SpellsPieces ps s ∧ c.Spans s e := by
  induction h generalizing rest with
  | stop _ =>
    refine ⟨[], ?_, Cursor.spans_nil hc⟩
    rw [SpellsPieces]
  | last h hd =>
    obtain ⟨s, hp, hs, -⟩ := spells_of_gives_piece hinner h
    exact (hd (hs.size_lt hp.ne_nil)).elim
  | more h _ _ ih => exact spells_of_gives_first_piece hinner h fun _ hd => ih hd

theorem spells_of_gives_branch {b : Branch} (h : ((branch inner).denote env).Gives c b e) :
    ∃ s, b ≠ [] ∧ SpellsPieces b s ∧ c.Spans s e := by
  rw [branch, denote_atLeastOne, gives_atLeastOne_iff] at h
  obtain ⟨p, d, ps, hp, hps, rfl⟩ := h
  obtain ⟨s, hs⟩ := spells_of_gives_first_piece hinner hp
    fun _ hd => spells_of_many_piece hinner hps hd
  exact ⟨s, List.cons_ne_nil p ps, hs⟩

theorem spells_of_separated {bs : List Branch}
    (h : Separated ((branch inner).denote env) ((char '|').denote env) c bs e)
    (hc : c.rest? = some rest) : ∃ s, SpellsRest bs s ∧ c.Spans s e := by
  induction h generalizing rest with
  | stop _ =>
    refine ⟨[], ?_, Cursor.spans_nil hc⟩
    rw [SpellsRest]
  | giveBack _ _ =>
    -- the bar is left for what follows the pattern, which can only refuse it
    refine ⟨[], ?_, Cursor.spans_nil hc⟩
    rw [SpellsRest]
  | more hbar h _ _ ih =>
    obtain ⟨-, hbar⟩ := gives_char_iff.1 hbar
    obtain ⟨u, hne, hb, hu⟩ := spells_of_gives_branch hinner h
    obtain ⟨rest, hd⟩ := hu.exists_rest
    obtain ⟨v, hbs, hv⟩ := ih hd
    refine ⟨'|' :: (u ++ v), ?_, hbar.trans (hu.trans hv)⟩
    rw [SpellsRest]
    exact ⟨u, v, hne, hb, hbs, rfl⟩

theorem spells_of_gives_branches {p : Pattern}
    (h : (((branch inner).separatedBy (char '|')).denote env).Gives c p e) :
    ∃ s, c.Spans s e ∧ p.Spells s := by
  rw [denote_separatedBy, gives_separatedBy_iff] at h
  obtain ⟨b, d, bs, hb, hbs, rfl⟩ := h
  obtain ⟨u, hne, hb, hu⟩ := spells_of_gives_branch hinner hb
  obtain ⟨rest, hd⟩ := hu.exists_rest
  obtain ⟨v, hbs, hv⟩ := spells_of_separated hinner hbs hd
  refine ⟨u ++ v, hu.trans hv, ?_⟩
  rw [Spells, SpellsBranches]
  exact ⟨u, v, hne, hb, hbs, rfl⟩

end Sound

/-- What the grammar reads is a spelling of what it gives. -/
theorem spells_of_gives_alternatives {p : Pattern} (h : (alternatives.denote env).Gives c p e) :
    ∃ s, c.Spans s e ∧ p.Spells s := by
  -- by induction on the characters left: a group reads its bracket before the grammar starts over
  induction hn : c.size using Nat.strongRecOn generalizing c p e with
  | ind n ih =>
    obtain ⟨x, h⟩ := h
    rw [alternatives, denote_recursive, recursive_apply] at h
    refine spells_of_gives_branches ?_ ⟨x, h⟩
    intro d q e hq
    obtain ⟨hd, hq⟩ := gives_after_iff.1 hq
    exact ih d.size (hn ▸ hd) hq rfl

/-- Spellings that start within the last `n` characters are read, up to the end of their group. -/
def ReadsBelow (p : Parser Pattern) (n : Nat) : Prop :=
  ∀ {q : Pattern} {s : List Char} {c d : Cursor} {rest : List Char}, q.Spells s → c.Spans s d →
    d.rest? = some rest → Halts staysInGroup rest → c.size < n → p.Gives c q d

section Complete

variable {n : Nat} (hinner : ReadsBelow (inner.denote env) n)

include hinner

theorem gives_group {p : Pattern} (h : SpellsTerm (.group p) s) (hs : c.Spans s d)
    (hn : c.size ≤ n) : ((group inner).denote env).Gives c p d := by
  rw [SpellsTerm] at h
  obtain ⟨t, hp, rfl⟩ := h
  obtain ⟨a, hopen, hs⟩ := hs.uncons
  obtain ⟨b, hs, hclose⟩ := hs.cut
  obtain ⟨rest, hd⟩ := hclose.exists_rest
  have hsize : a.size < c.size := hopen.size_lt (List.cons_ne_nil _ _)
  have hh : Halts staysInGroup ([')'] ++ rest) := halts_cons_iff.2 (by decide)
  have hp := hinner hp hs (hclose.rest?_eq hd) hh (Nat.lt_of_lt_of_le hsize hn)
  exact gives_group_iff.2 ⟨a, b, hopen, hp, hclose⟩

theorem gives_term (h : SpellsTerm t s) (hs : c.Spans s d) (hd : d.rest? = some rest)
    (ha : Apart s rest) (hn : c.size ≤ n) : ((term inner).denote env).Gives c t d := by
  have hc := hs.rest?_eq hd
  rw [gives_term_iff]
  cases t with
  | charClass k => exact .inl ⟨k, gives_charClass_iff.2 ⟨s, h, hs⟩, rfl⟩
  | literal text =>
    have ht := h
    rw [SpellsTerm] at ht
    obtain ⟨rfl, hne, hl⟩ := ht
    have hlast := hl _ (List.getLast_mem hne)
    have hh : Halts isLiteral rest := ha _ (List.getLast?_eq_some_getLast hne) hlast
    have hfail : (charClass.denote env).Fails c := by
      apply fails_charClass hc
      intro hopen
      obtain ⟨x, u, hu⟩ := List.exists_cons_of_ne_nil hne
      rw [hu] at hopen hl
      cases Option.some.inj hopen
      exact absurd (hl '[' (List.mem_cons_self ..)) (by decide)
    exact .inr ⟨hfail, .inl ⟨text, gives_literal_iff.2 ⟨h, hs, rest, hd, hh⟩, rfl⟩⟩
  | group p =>
    have hp := gives_group hinner h hs hn
    have hhead : ∃ u, s ++ rest = '(' :: u := by
      rw [SpellsTerm] at h
      obtain ⟨t, -, rfl⟩ := h
      exact ⟨_, rfl⟩
    obtain ⟨u, hu⟩ := hhead
    rw [hu] at hc
    have hclass : (charClass.denote env).Fails c := fails_charClass hc (by simp)
    have hliteral : (literal.denote env).Fails c :=
      fails_literal_iff.2 ⟨_, hc, halts_cons_iff.2 (by decide)⟩
    exact .inr ⟨hclass, .inr ⟨hliteral, p, hp, rfl⟩⟩

theorem gives_piece {p : Piece} (h : SpellsPiece p s) (hs : c.Spans s e)
    (he : e.rest? = some rest) (ha : Apart s rest) (hr : Halts startsRepetition rest)
    (hn : c.size ≤ n) : ((piece inner).denote env).Gives c p e := by
  obtain ⟨t, r⟩ := p
  rw [SpellsPiece] at h
  obtain ⟨u, v, ht, hv, rfl⟩ := h
  obtain ⟨d, hu, hs⟩ := hs.cut
  have hrep : (repetition.denote env).Gives d r e := gives_repetition hv hs he (fun _ => hr)
  rw [piece, gives_zip_iff]
  exact ⟨d, gives_term hinner ht hu (hs.rest?_eq he) (ha.repetition hv) hn, hrep⟩

theorem gives_first_piece {p : Piece} {ps : Branch} (h : SpellsPieces (p :: ps) s)
    (hs : c.Spans s e) (he : e.rest? = some rest) (hr : Halts staysInBranch rest)
    (hn : c.size ≤ n) :
    ∃ d v, ((piece inner).denote env).Gives c p d ∧ d.size < c.size ∧ SpellsPieces ps v ∧
      d.Spans v e := by
  rw [SpellsPieces] at h
  obtain ⟨u, v, hp, hps, ha, rfl⟩ := h
  obtain ⟨d, hu, hv⟩ := hs.cut
  have hapart := ha.append (hr.mono isLiteral_staysInBranch)
  have hp' := gives_piece hinner hp hu (hv.rest?_eq he) hapart (hps.halts hr) hn
  exact ⟨d, v, hp', hu.size_lt hp.ne_nil, hps, hv⟩

theorem many_piece {ps : Branch} (h : SpellsPieces ps s) (hs : c.Spans s e)
    (he : e.rest? = some rest) (hr : Halts staysInBranch rest) (hn : c.size ≤ n) :
    Many ((piece inner).denote env) c ps e := by
  induction ps generalizing s c with
  | nil =>
    rw [SpellsPieces] at h
    cases h
    cases hs.eq_of_nil
    exact .stop (fails_piece he hr)
  | cons p ps ih =>
    obtain ⟨d, v, hp, hd, hps, hv⟩ := gives_first_piece hinner h hs he hr hn
    have hsize := Nat.le_of_lt (Nat.lt_of_lt_of_le hd hn)
    exact .more hp hd (ih hps hv hsize)

theorem gives_branch {b : Branch} (hne : b ≠ []) (h : SpellsPieces b s) (hs : c.Spans s e)
    (he : e.rest? = some rest) (hr : Halts staysInBranch rest) (hn : c.size ≤ n) :
    ((branch inner).denote env).Gives c b e := by
  cases b with
  | nil => exact (hne rfl).elim
  | cons p ps =>
    obtain ⟨d, v, hp, hd, hps, hv⟩ := gives_first_piece hinner h hs he hr hn
    have hsize := Nat.le_of_lt (Nat.lt_of_lt_of_le hd hn)
    have hmany := many_piece hinner hps hv he hr hsize
    rw [branch, denote_atLeastOne, gives_atLeastOne_iff]
    exact ⟨p, d, ps, hp, hmany, rfl⟩

theorem separated_branch {bs : List Branch} (h : SpellsRest bs s) (hs : c.Spans s e)
    (he : e.rest? = some rest) (hr : Halts staysInGroup rest) (hn : c.size ≤ n) :
    Separated ((branch inner).denote env) ((char '|').denote env) c bs e := by
  induction bs generalizing s c with
  | nil =>
    rw [SpellsRest] at h
    cases h
    cases hs.eq_of_nil
    apply Separated.stop
    refine fails_char_iff.2 ⟨rest, he, ?_⟩
    intro hbar
    exact hr '|' hbar (by decide)
  | cons b bs ih =>
    rw [SpellsRest] at h
    obtain ⟨u, v, hne, hb, hbs, rfl⟩ := h
    obtain ⟨a, hbar, hs⟩ := hs.uncons
    obtain ⟨d, hu, hv⟩ := hs.cut
    have ha : a.size < c.size := hbar.size_lt (List.cons_ne_nil _ _)
    have hd : d.size < c.size := Nat.lt_of_le_of_lt hu.size_le ha
    have hb' := gives_branch hinner hne hb hu (hv.rest?_eq he) (hbs.halts hr) (by omega)
    exact .more (gives_char_iff.2 ⟨rfl, hbar⟩) hb' hd (ih hbs hv (by omega))

theorem gives_branches {p : Pattern} (h : p.Spells s) (hs : c.Spans s e)
    (he : e.rest? = some rest) (hr : Halts staysInGroup rest) (hn : c.size ≤ n) :
    (((branch inner).separatedBy (char '|')).denote env).Gives c p e := by
  cases p with
  | nil => exact h.elim
  | cons b bs =>
    rw [Spells, SpellsBranches] at h
    obtain ⟨u, v, hne, hb, hbs, rfl⟩ := h
    obtain ⟨d, hu, hv⟩ := hs.cut
    have hb' := gives_branch hinner hne hb hu (hv.rest?_eq he) (hbs.halts hr) hn
    have hbs' := separated_branch hinner hbs hv he hr (Nat.le_trans hu.size_le hn)
    rw [denote_separatedBy, gives_separatedBy_iff]
    exact ⟨b, d, bs, hb', hbs', rfl⟩

end Complete

/-- Every spelling is read, up to the end of its group. -/
theorem gives_alternatives {p : Pattern} (h : p.Spells s) (hs : c.Spans s e)
    (he : e.rest? = some rest) (hr : Halts staysInGroup rest) :
    (alternatives.denote env).Gives c p e := by
  induction hn : c.size using Nat.strongRecOn generalizing c p s e rest with
  | ind n ih =>
    have hinner : ReadsBelow (after (alternatives.denote env) c) n := by
      intro q t a d rest hq ht hd hrest ha
      exact gives_after_iff.2 ⟨hn ▸ ha, ih a.size ha hq ht hd hrest rfl⟩
    have hbranches : (((branch (ref .innermost)).separatedBy (char '|')).denote
        (env.push (after (alternatives.denote env) c))).Gives c p e :=
      gives_branches hinner h hs he hr (Nat.le_of_eq hn)
    obtain ⟨x, hx⟩ := hbranches
    refine ⟨x, ?_⟩
    rw [alternatives, denote_recursive, recursive_apply]
    exact hx

end Grammar

theorem readWhole_eq_ok_iff {p : Peg [] α} {text : String} {a : α} :
    readWhole p text = .ok a ↔
      ∃ d, (p.denote .none).Gives (.start text.toList) a d ∧ d.rest? = some [] := by
  have hread : readWhole p text = .ok a ↔
      ∃ d, ((p.thenIgnore .endOfInput).denote .none).Gives (.start text.toList) a d := by
    rw [readWhole, Parser.parse, Parser.parseAt, Cursor.ofOffset_zero, Peg.parser]
    cases h : (p.thenIgnore .endOfInput).denote .none (.start text.toList) with
    | done b d x => simp [Gives, h]
    | failed f => simp [Gives, h]
    | stuck x => simp [Gives, h]
  rw [hread]
  simp only [Peg.gives_thenIgnore_iff]
  constructor
  · intro h
    obtain ⟨d, _, e, h, hend⟩ := h
    obtain ⟨hd, -⟩ := gives_endOfInput_iff.1 hend
    exact ⟨e, h, hd⟩
  · intro h
    obtain ⟨d, h, hd⟩ := h
    exact ⟨d, (), d, h, gives_endOfInput_iff.2 ⟨hd, rfl⟩⟩

/-- Every text without a closing bracket is the inside of a class. -/
theorem CharClass.parseBody_eq_ok_iff {text : String} {k : CharClass} :
    CharClass.parseBody text = .ok k ↔
      k = .ofBody text.toList ∧ ∀ x ∈ text.toList, Grammar.staysInClass x := by
  rw [CharClass.parseBody, readWhole_eq_ok_iff]
  simp only [Grammar.gives_classBody_iff]
  constructor
  · intro h
    obtain ⟨d, ⟨body, rest, rfl, hb, hs, -, -⟩, hd⟩ := h
    cases hs.eq_of_start hd
    exact ⟨rfl, hb⟩
  · intro h
    obtain ⟨rfl, hb⟩ := h
    obtain ⟨d, hs, hd⟩ := Cursor.exists_spans_start text.toList
    exact ⟨d, ⟨_, [], rfl, hb, hs, hd, halts_nil _⟩, hd⟩

/-- A text is read as a pattern if and only if it spells the pattern. -/
theorem Pattern.parse_eq_ok_iff {text : String} {p : Pattern} :
    Pattern.parse text = .ok p ↔ p.Spells text.toList := by
  rw [Pattern.parse, readWhole_eq_ok_iff]
  constructor
  · intro h
    obtain ⟨d, h, hd⟩ := h
    obtain ⟨s, hs, hp⟩ := Grammar.spells_of_gives_alternatives h
    cases hs.eq_of_start hd
    exact hp
  · intro h
    obtain ⟨d, hs, hd⟩ := Cursor.exists_spans_start text.toList
    exact ⟨d, Grammar.gives_alternatives h hs hd (halts_nil _), hd⟩

end PatternGen
