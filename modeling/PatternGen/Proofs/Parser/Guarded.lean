import PatternGen.Proofs.Parser.Calls

namespace PatternGen

open Call

namespace Peg

def Consumes (p : Peg Γ α) (ρ : Bodies Γ) : Prop :=
  ∀ c a d, Eval ρ p c (some (a, d)) → d.size < c.size

/-- What comes first in a repetition that went from the one place to the other. -/
def BeginsWith : Peg Γ α → Bodies Γ → (c e : Cursor) → Prop
  | atLeastOne p, ρ, c, e => ∃ a d, Eval ρ p c (some (a, d)) ∧ e.Follows d
  | _, _, _, _ => True

/-- Each round of a repetition reads something, and handles are entered only after something has
been read: by the expression itself, or, if `ahead`, before it. -/
def Guarded : Peg Γ α → Bodies Γ → (ahead : Bool) → Prop
  | token _ _, _, _ => True
  | success _, _, _ => True
  | fail, _, _ => True
  | endOfInput, _, _ => True
  | bind p f, ρ, ahead =>
    p.Guarded ρ ahead ∧ ((∀ a, (f a).Guarded ρ ahead) ∨ p.Consumes ρ ∧ ∀ a, (f a).Guarded ρ true)
  | orElse p q, ρ, ahead => p.Guarded ρ ahead ∧ q.Guarded ρ ahead
  | choice _ ps, ρ, ahead => ∀ i, (ps i).Guarded ρ ahead
  | filter _ _ p, ρ, ahead => p.Guarded ρ ahead
  | many p, ρ, ahead => p.Guarded ρ ahead ∧ p.Consumes ρ
  | atLeastOne p, ρ, ahead => p.Guarded ρ ahead ∧ p.Consumes ρ
  | separatedBy p q, ρ, ahead => p.Guarded ρ ahead ∧ q.Guarded ρ true ∧ p.Consumes ρ
  | recursive body, ρ, _ => body.Guarded (.push body ρ) false
  | ref _, _, ahead => ahead = true

end Peg

def Bodies.Guarded : Bodies Γ → Prop
  | none => True
  | push body ρ => body.Guarded (.push body ρ) false ∧ ρ.Guarded

def Call.Guarded : Call → Prop
  | read ρ p _ => p.Guarded ρ true ∧ ρ.Guarded
  | rounds ρ p _ => p.Guarded ρ true ∧ p.Consumes ρ ∧ ρ.Guarded
  | separated ρ p q _ => p.Guarded ρ true ∧ q.Guarded ρ true ∧ p.Consumes ρ ∧ ρ.Guarded

namespace Peg

variable {Γ : List Type} {α β : Type} {ρ : Bodies Γ} {p : Peg Γ α} {q : Peg Γ β}

theorem Guarded.of_ahead_eq_false {ahead : Bool} (h : p.Guarded ρ false) : p.Guarded ρ ahead := by
  cases ahead with
  | false => exact h
  | true =>
    induction p with
    | token | success | fail | endOfInput => trivial
    | bind p f ihp ihf =>
      rcases h with ⟨hp, hf | ⟨hc, hf⟩⟩
      · exact ⟨ihp hp, .inl fun a => ihf a (hf a)⟩
      · exact ⟨ihp hp, .inr ⟨hc, hf⟩⟩
    | orElse p q ihp ihq => exact ⟨ihp h.1, ihq h.2⟩
    | choice n ps ih => exact fun i => ih i (h i)
    | filter what keep p ih => exact ih h
    | many p ih => exact ⟨ih h.1, h.2⟩
    | atLeastOne p ih => exact ⟨ih h.1, h.2⟩
    | separatedBy p q ihp _ => exact ⟨ihp h.1, h.2⟩
    | recursive body _ => exact h
    | ref x => rfl

theorem Guarded.of_ahead {ahead : Bool} (h : p.Guarded ρ ahead) : p.Guarded ρ true := by
  cases ahead with
  | false => exact h.of_ahead_eq_false
  | true => exact h

theorem Eval.follows (h : Eval ρ p c r) : ∀ x ∈ r, x.2.Follows c := by
  induction h with
  | token _ _ =>
    rintro _ ⟨⟩
    exact Cursor.follows_advance _ _
  | success | endOfInput _ | many_stop _ =>
    rintro _ ⟨⟩
    exact .refl _
  | token_fail _ _ | fail | endOfInput_fail _ | bind_fail _ | choice_fail _ | filter_refuse _ _
  | filter_fail _ | atLeastOne_fail _ | separatedBy_fail _ => nofun
  | bind _ _ ih ihf => exact fun x hx => (ihf x hx).trans (ih _ rfl)
  | orElse _ ih => exact ih
  | orElse_fail _ _ _ ihq => exact ihq
  | choice _ _ _ _ ih => exact ih
  | filter _ _ ih => exact ih
  | many_last _ ih =>
    rintro _ ⟨⟩
    exact .refl _
  | many_more _ _ _ ih ihs =>
    have hlast := ihs _ rfl
    rintro _ ⟨⟩
    exact hlast.trans (ih _ rfl)
  | atLeastOne _ _ ih ihs =>
    have hlast := ihs _ rfl
    rintro _ ⟨⟩
    exact hlast.trans (ih _ rfl)
  | separatedBy _ _ _ ih ihs _ =>
    have hlast := ihs _ rfl
    rintro _ ⟨⟩
    exact hlast.trans (ih _ rfl)
  | recursive _ ih => exact ih
  | innermost _ ih => exact ih
  | outer _ ih => exact ih

theorem consumes_token {what : String} {scan : List Char → Option (α × Nat)}
    (h : ∀ cs a n, scan cs = some (a, n) → cs ≠ [] ∧ 0 < n) :
    (token what scan : Peg Γ α).Consumes ρ := by
  intro c a d he
  cases he with
  | token hc hscan =>
    obtain ⟨hcs, hpos⟩ := h _ _ _ hscan
    obtain ⟨offset, rest?⟩ := c
    cases hc
    change (List.drop _ _).length < List.length _
    rw [List.length_drop]
    exact Nat.sub_lt (List.length_pos_iff.2 hcs) hpos

theorem consumes_char (x : Char) : (char x : Peg Γ Char).Consumes ρ := by
  apply consumes_token
  intro cs a n h
  cases cs with
  | nil => cases h
  | cons y cs =>
    split at h
    · cases h
      exact ⟨List.cons_ne_nil _ _, Nat.one_pos⟩
    · cases h

theorem consumes_anyChar : (anyChar : Peg Γ Char).Consumes ρ := by
  apply consumes_token
  intro cs a n h
  cases cs with
  | nil => cases h
  | cons y cs =>
    cases h
    exact ⟨List.cons_ne_nil _ _, Nat.one_pos⟩

theorem consumes_run (what : String) (kind : Char → Bool) :
    (run what kind : Peg Γ (List Char)).Consumes ρ := by
  apply consumes_token
  intro cs a n h
  dsimp only at h
  split at h
  · cases h
  · rename_i hne
    cases h
    have hlen : 0 < (cs.takeWhile kind).length := by simpa [List.length_pos_iff] using hne
    exact ⟨by rintro rfl; exact absurd hlen (Nat.lt_irrefl 0), hlen⟩

theorem Consumes.bind {f : α → Peg Γ β} (hp : p.Consumes ρ) : (p.bind f).Consumes ρ := by
  intro c b e he
  cases he with
  | bind h hf => exact Nat.lt_of_le_of_lt (hf.follows _ rfl).size_le (hp _ _ _ h)

theorem Consumes.map {f : α → β} (hp : p.Consumes ρ) : (p.map f).Consumes ρ := hp.bind

theorem Consumes.zip (hp : p.Consumes ρ) : (p.zip q).Consumes ρ := hp.bind

theorem Consumes.thenIgnore (hp : p.Consumes ρ) : (p.thenIgnore q).Consumes ρ := hp.zip.map

theorem Consumes.ignoreThen (hp : p.Consumes ρ) : (p.ignoreThen q).Consumes ρ := hp.bind

theorem Consumes.orElse {p' : Peg Γ α} (hp : p.Consumes ρ) (hp' : p'.Consumes ρ) :
    (p.orElse p').Consumes ρ := by
  intro c a d he
  cases he with
  | orElse h => exact hp _ _ _ h
  | orElse_fail _ h => exact hp' _ _ _ h

theorem consumes_oneOf {ps : List (Peg Γ α)} (h : ∀ p ∈ ps, p.Consumes ρ) :
    (oneOf ps).Consumes ρ := by
  intro c a d he
  cases he with
  | choice i _ hi => exact h _ (List.get_mem ps i) _ _ _ hi

theorem Consumes.filter {what : String} {keep : α → Bool} (hp : p.Consumes ρ) :
    (p.filter what keep).Consumes ρ := by
  intro c a d he
  cases he with
  | filter h _ => exact hp _ _ _ h

theorem Eval.beginsWith (h : Eval ρ p c (some (a, d))) : p.BeginsWith ρ c d := by
  cases h with
  | atLeastOne h hs => exact ⟨_, _, h, hs.follows _ rfl⟩
  | token _ _ | success | endOfInput _ | bind _ _ | orElse _ | orElse_fail _ _ | choice _ _ _
  | filter _ _ | many_stop _ | many_last _ | many_more _ _ _ | separatedBy _ _ _ | recursive _
  | innermost _ | outer _ => trivial

theorem Consumes.atLeastOne (hp : p.Consumes ρ) : p.atLeastOne.Consumes ρ := by
  intro c as e he
  obtain ⟨a, d, hd, hfollows⟩ := he.beginsWith
  exact Nat.lt_of_le_of_lt hfollows.size_le (hp _ _ _ hd)

theorem Guarded.map {f : α → β} (hp : p.Guarded ρ ahead) : (p.map f).Guarded ρ ahead :=
  ⟨hp, .inl fun _ => trivial⟩

theorem Guarded.zip (hp : p.Guarded ρ ahead) (hq : q.Guarded ρ ahead) :
    (p.zip q).Guarded ρ ahead :=
  ⟨hp, .inl fun _ => hq.map⟩

theorem Guarded.thenIgnore (hp : p.Guarded ρ ahead) (hq : q.Guarded ρ ahead) :
    (p.thenIgnore q).Guarded ρ ahead :=
  (hp.zip hq).map

theorem Guarded.ignoreThen (hp : p.Guarded ρ ahead) (hq : q.Guarded ρ ahead) :
    (p.ignoreThen q).Guarded ρ ahead :=
  ⟨hp, .inl fun _ => hq⟩

theorem Guarded.ignoreThen_of_consumes (hp : p.Guarded ρ ahead) (hc : p.Consumes ρ)
    (hq : q.Guarded ρ true) : (p.ignoreThen q).Guarded ρ ahead :=
  ⟨hp, .inr ⟨hc, fun _ => hq⟩⟩

theorem Guarded.optional (hp : p.Guarded ρ ahead) : p.optional.Guarded ρ ahead :=
  ⟨hp.map, trivial⟩

theorem guarded_oneOf {ps : List (Peg Γ α)} (h : ∀ p ∈ ps, p.Guarded ρ ahead) :
    (oneOf ps).Guarded ρ ahead :=
  fun i => h _ (List.get_mem ps i)

end Peg

namespace Call

open Peg

variable {Γ : List Type} {α β : Type} {ρ : Bodies Γ} {p : Peg Γ α} {q : Peg Γ β} {c d e : Cursor}
  {x y : Call}

theorem Guarded.leads (h : x.Guarded) (hxy : Leads x y) :
    y.Guarded ∧ y.place.Follows x.place := by
  cases hxy with
  | bind => exact ⟨⟨h.1.1, h.2⟩, .refl _⟩
  | bind_next he =>
    rcases h with ⟨⟨-, hf | ⟨-, hf⟩⟩, hρ⟩
    · exact ⟨⟨hf _, hρ⟩, he.follows _ rfl⟩
    · exact ⟨⟨hf _, hρ⟩, he.follows _ rfl⟩
  | orElse => exact ⟨⟨h.1.1, h.2⟩, .refl _⟩
  | orElse_next _ => exact ⟨⟨h.1.2, h.2⟩, .refl _⟩
  | choice i _ => exact ⟨⟨h.1 i, h.2⟩, .refl _⟩
  | filter => exact ⟨h, .refl _⟩
  | many => exact ⟨⟨h.1.1, h.1.2, h.2⟩, .refl _⟩
  | atLeastOne => exact ⟨⟨h.1.1, h.2⟩, .refl _⟩
  | atLeastOne_next he => exact ⟨⟨h.1.1, h.1.2, h.2⟩, he.follows _ rfl⟩
  | round => exact ⟨⟨h.1, h.2.2⟩, .refl _⟩
  | round_next he _ => exact ⟨h, he.follows _ rfl⟩
  | separatedBy => exact ⟨⟨h.1.1, h.2⟩, .refl _⟩
  | separatedBy_next he => exact ⟨⟨h.1.1, h.1.2.1, h.1.2.2, h.2⟩, he.follows _ rfl⟩
  | separator => exact ⟨⟨h.2.1, h.2.2.2⟩, .refl _⟩
  | value hq => exact ⟨⟨h.1, h.2.2.2⟩, hq.follows _ rfl⟩
  | separated_next hq he => exact ⟨h, (he.follows _ rfl).trans (hq.follows _ rfl)⟩
  | recursive => exact ⟨⟨h.1.of_ahead_eq_false, h.1, h.2⟩, .refl _⟩
  | innermost => exact ⟨⟨h.2.1.of_ahead_eq_false, h.2⟩, .refl _⟩
  | outer => exact ⟨⟨rfl, h.2.2⟩, .refl _⟩

theorem Guarded.reaches (h : x.Guarded) (hxy : x.Reaches y) :
    y.Guarded ∧ y.place.Follows x.place := by
  induction hxy with
  | refl => exact ⟨h, .refl _⟩
  | tail _ hyz ih =>
    obtain ⟨hz, hfollows⟩ := ih.1.leads hyz
    exact ⟨hz, hfollows.trans ih.2⟩

theorem Guarded.size_lt_of_round (h : x.Guarded) (hr : x.Round d e) : e.size < d.size := by
  cases hr with
  | first he => exact h.1.2 _ _ _ he
  | next he => exact h.2.1 _ _ _ he
  | first_separated he => exact h.1.2.2 _ _ _ he
  | next_separated hq he =>
    exact Nat.lt_of_lt_of_le (h.2.2.1 _ _ _ he) (hq.follows _ rfl).size_le

/-- The calls of guarded expressions end where less than that is left. -/
def EndsBelow (n : Nat) : Prop := ∀ x : Call, x.Guarded → x.place.size < n → x.Ends

theorem ends_rounds (hsmall : EndsBelow c.size) (h : (rounds ρ p c).Guarded)
    (hp : (read ρ p c).Ends) : (rounds ρ p c).Ends := by
  apply Acc.intro
  intro y hy
  cases hy with
  | round => exact hp
  | round_next he _ => exact hsmall _ h (h.2.1 _ _ _ he)

theorem ends_separated (hsmall : EndsBelow c.size) (h : (separated ρ p q c).Guarded)
    (hp : (read ρ p c).Ends) (hq : (read ρ q c).Ends) : (separated ρ p q c).Ends := by
  apply Acc.intro
  intro y hy
  cases hy with
  | separator => exact hq
  | value hd =>
    rcases hd.follows _ rfl with rfl | hlt
    · exact hp
    · exact hsmall _ ⟨h.1, h.2.2.2⟩ hlt
  | separated_next hd he =>
    have hlt := Nat.lt_of_lt_of_le (h.2.2.1 _ _ _ he) (hd.follows _ rfl).size_le
    exact hsmall _ h hlt

/-- Before anything has been read, only parts of the expression are read, and handles only if
something was read ahead of it. -/
theorem ends_read {ahead : Bool} (hsmall : EndsBelow c.size) (h : p.Guarded ρ ahead)
    (hρ : ρ.Guarded) (hrefs : ahead → ∀ β (x : Handle β Γ), (read ρ (.ref x) c).Ends) :
    (read ρ p c).Ends := by
  -- on the expression; `hsmall` is the induction on what is left of the text
  induction p generalizing ahead with
  | token | success | fail =>
    apply Acc.intro
    intro y hy
    cases hy
  | endOfInput =>
    apply Acc.intro
    intro y hy
    exact hy.inversion.elim
  | bind p f ihp ihf =>
    have hp := ihp h.1 hρ hrefs
    apply Acc.intro
    intro y hy
    cases hy with
    | bind => exact hp
    | bind_next he =>
      -- either the rest is guarded by itself, or it begins after something was read
      rcases h.2 with hf | ⟨hc, hf⟩
      · rcases he.follows _ rfl with rfl | hlt
        · exact ihf _ (hf _) hρ hrefs
        · exact hsmall _ ⟨(hf _).of_ahead, hρ⟩ hlt
      · exact hsmall _ ⟨hf _, hρ⟩ (hc _ _ _ he)
  | orElse p q ihp ihq =>
    apply Acc.intro
    intro y hy
    cases hy with
    | orElse => exact ihp h.1 hρ hrefs
    | orElse_next _ => exact ihq h.2 hρ hrefs
  | choice n ps ih =>
    apply Acc.intro
    intro y hy
    cases hy with
    | choice i _ => exact ih i (h i) hρ hrefs
  | filter what keep p ih =>
    apply Acc.intro
    intro y hy
    cases hy with
    | filter => exact ih h hρ hrefs
  | many p ih =>
    apply Acc.intro
    intro y hy
    obtain rfl := hy.inversion
    exact ends_rounds hsmall ⟨h.1.of_ahead, h.2, hρ⟩ (ih h.1 hρ hrefs)
  | atLeastOne p ih =>
    apply Acc.intro
    intro y hy
    obtain rfl | ⟨a, d, he, rfl⟩ := hy.inversion
    · exact ih h.1 hρ hrefs
    · exact hsmall _ ⟨h.1.of_ahead, h.2, hρ⟩ (h.2 _ _ _ he)
  | separatedBy p q ihp _ =>
    apply Acc.intro
    intro y hy
    obtain rfl | ⟨a, d, he, rfl⟩ := hy.inversion
    · exact ihp h.1 hρ hrefs
    · exact hsmall _ ⟨h.1.of_ahead, h.2.1, h.2.2, hρ⟩ (h.2.2 _ _ _ he)
  | recursive body ih =>
    apply Acc.intro
    intro y hy
    cases hy with
    | recursive => exact ih h ⟨h, hρ⟩ nofun
  | ref x => exact hrefs h _ x

theorem ends_ref (hsmall : EndsBelow c.size) (hρ : ρ.Guarded) (x : Handle α Γ) :
    (read ρ (.ref x) c).Ends := by
  induction x with
  | innermost =>
    apply Acc.intro
    intro y hy
    cases hy with
    | innermost => exact ends_read hsmall hρ.1 hρ nofun
  | outer x ih =>
    apply Acc.intro
    intro y hy
    cases hy with
    | outer => exact ih hρ.2

/-- By induction on what is left, and where that stays the same on the expression. -/
theorem Guarded.ends (h : x.Guarded) : x.Ends := by
  induction hn : x.place.size using Nat.strong_induction_on generalizing x with
  | _ n ih =>
    subst hn
    have hsmall : EndsBelow x.place.size := fun y hy hlt => ih _ hlt hy rfl
    have hread {Γ : List Type} {α : Type} {ρ : Bodies Γ} {p : Peg Γ α} (hp : p.Guarded ρ true)
        (hρ : ρ.Guarded) : (read ρ p x.place).Ends :=
      ends_read hsmall hp hρ fun _ _ x => ends_ref hsmall hρ x
    cases x with
    | read => exact hread h.1 h.2
    | rounds => exact ends_rounds hsmall h (hread h.1 h.2.2)
    | separated => exact ends_separated hsmall h (hread h.1 h.2.2.2) (hread h.2.1 h.2.2.2)

/-- What is read again while it is being read is read further on. -/
theorem Guarded.size_lt_of_transGen (h : (read ρ p c).Guarded)
    (hd : Relation.TransGen Leads (read ρ p c) (read ρ p d)) : d.size < c.size := by
  obtain ⟨-, rfl | hlt⟩ := h.reaches hd.to_reflTransGen
  · exact (h.ends.not_transGen_self hd).elim
  · exact hlt

/-- An expression is read inside itself once more than there are characters left at most. -/
theorem Guarded.length_le_of_isChain {ds : List Cursor} (h : (read ρ p c).Guarded)
    (hds : (c :: ds).IsChain fun d e => Relation.TransGen Leads (read ρ p d) (read ρ p e)) :
    ds.length ≤ c.size := by
  induction ds generalizing c with
  | nil => exact Nat.zero_le _
  | cons d ds ih =>
    obtain ⟨hd, hds⟩ := List.isChain_cons_cons.1 hds
    have hlt := h.size_lt_of_transGen hd
    have hle := ih (c := d) h hds
    exact Nat.succ_le_of_lt (Nat.lt_of_le_of_lt hle hlt)

end Call

end PatternGen
