import PatternGen.Proofs.Parser.Rules

namespace PatternGen

/-- The failures have a common property if it passes to the further of two and to what they expect
together. -/
def Failure.Merges (P : Failure → Prop) : Prop := ∀ f g, P f → P g → P (f.merge g)

/-- There is an answer, and the property holds of the failure that goes with it, if any. -/
def Outcome.Tells (P : Failure → Prop) : Outcome α → Prop
  | done _ _ e => ∀ f ∈ e, P f
  | failed f => P f
  | stuck _ => False

/-- A text can be read from the place, and the property holds of whatever is expected there. -/
structure Cursor.Tells (P : Failure → Prop) (c : Cursor) : Prop where
  readable : ∃ rest, c.rest? = some rest
  expecting : ∀ what, P (.expecting c.offset what)

variable {α β : Type} {P : Failure → Prop}

theorem forall_mem_none (P : Failure → Prop) : ∀ f ∈ (none : Option Failure), P f := by
  intro f hf
  cases hf

theorem Failure.Merges.furthest (hP : Failure.Merges P) {e x : Option Failure}
    (he : ∀ f ∈ e, P f) (hx : ∀ f ∈ x, P f) : ∀ f ∈ Failure.furthest e x, P f := by
  cases e with
  | none =>
    rw [Failure.furthest_none_left]
    exact hx
  | some f =>
    cases x with
    | none =>
      rw [Failure.furthest_none_right]
      exact he
    | some g =>
      rintro _ ⟨⟩
      exact hP f g (he f rfl) (hx g rfl)

theorem Failure.Merges.some (hP : Failure.Merges P) {e : Option Failure} (he : ∀ f ∈ e, P f)
    (hf : P f) : ∀ g ∈ Failure.furthest e (some f), P g := by
  apply hP.furthest he
  rintro _ ⟨⟩
  exact hf

theorem Outcome.Tells.recalling {o : Outcome α} (hP : Failure.Merges P) (h : o.Tells P)
    (he : ∀ f ∈ e, P f) : (o.recalling e).Tells P := by
  cases o with
  | done a d x => exact hP.furthest he h
  | failed f =>
    cases e with
    | none => exact h
    | some g => exact hP g f (he g rfl) h
  | stuck x => exact h

namespace Parser

variable {p q : Parser α} {c : Cursor}

theorem tells_token (h : c.Tells P) (what : String) (scan : List Char → Option (α × Nat)) :
    (token what scan c).Tells P := by
  obtain ⟨rest, hc⟩ := h.readable
  rw [token, hc]
  dsimp only
  cases scan rest with
  | none => exact h.expecting what
  | some r => exact forall_mem_none P

theorem tells_success (a : α) (c : Cursor) : (success a c).Tells P :=
  forall_mem_none P

theorem tells_fail (h : P (.unexplained c.offset)) : ((fail : Parser α) c).Tells P := h

theorem tells_endOfInput (h : c.Tells P) : (endOfInput c).Tells P := by
  rw [endOfInput]
  split
  · exact forall_mem_none P
  · exact h.expecting _

variable (hP : Failure.Merges P)

include hP

theorem tells_bind {f : α → Parser β} (hp : (p c).Tells P)
    (hf : ∀ a d, p.Gives c a d → (f a d).Tells P) : (bind p f c).Tells P := by
  rw [bind]
  cases hc : p c with
  | done a d e =>
    rw [hc] at hp
    exact (hf a d ⟨e, hc⟩).recalling hP hp
  | failed f =>
    rw [hc] at hp
    exact hp
  | stuck x =>
    rw [hc] at hp
    exact hp

theorem tells_orElse (hp : (p c).Tells P) (hq : (q c).Tells P) : (orElse p q c).Tells P := by
  rw [orElse]
  cases hc : p c with
  | done a d e =>
    rw [hc] at hp
    exact hp
  | failed f =>
    rw [hc] at hp
    apply hq.recalling hP
    rintro _ ⟨⟩
    exact hp
  | stuck x =>
    rw [hc] at hp
    exact hp

theorem tells_firstOf {tried : Option Failure} {ps : List (Parser α)}
    (h : ∀ p ∈ ps, (p c).Tells P) (ht : ∀ f ∈ tried, P f) (hne : ps ≠ [] ∨ tried.isSome) :
    (firstOf tried ps c).Tells P := by
  induction ps generalizing tried with
  | nil =>
    obtain ⟨f, rfl⟩ := Option.isSome_iff_exists.1 (hne.resolve_left fun h => h rfl)
    exact ht f rfl
  | cons p ps ih =>
    obtain ⟨hp, hps⟩ := List.forall_mem_cons.1 h
    rw [firstOf]
    cases hc : p c with
    | done a d e =>
      rw [hc] at hp
      exact hp.recalling hP ht
    | failed f =>
      rw [hc] at hp
      apply ih hps (hP.some ht hp)
      cases tried <;> exact .inr rfl
    | stuck x =>
      rw [hc] at hp
      exact hp

theorem tells_oneOf {ps : List (Parser α)} (hne : ps ≠ []) (h : ∀ p ∈ ps, (p c).Tells P) :
    (oneOf ps c).Tells P :=
  tells_firstOf hP h (forall_mem_none P) (.inl hne)

omit hP in
theorem tells_filter {keep : α → Bool} (h : c.Tells P) (hp : (p c).Tells P) :
    (filter what keep p c).Tells P := by
  rw [filter]
  cases hc : p c with
  | done a d e =>
    rw [hc] at hp
    dsimp only
    split
    · exact hp
    · exact h.expecting what
  | failed f =>
    rw [hc] at hp
    exact hp
  | stuck x =>
    rw [hc] at hp
    exact hp

/-- The rounds of a repetition start at places of one kind. -/
theorem tells_collect {I : Cursor → Prop} (hI : ∀ c, I c → (p c).Tells P)
    (hgives : ∀ c a d, I c → p.Gives c a d → I d) (hc : I c) {values : List α}
    {furthest : Option Failure} (hf : ∀ f ∈ furthest, P f) :
    (collect p values furthest c).Tells P := by
  fun_induction collect p values furthest c with
  | case1 values furthest c a d e hp hd ih =>
    have h := hI c hc
    rw [hp] at h
    exact ih (hgives c a d hc ⟨e, hp⟩) (hP.furthest hf h)
  | case2 values furthest c a d e hp hd =>
    have h := hI c hc
    rw [hp] at h
    exact hP.furthest hf h
  | case3 values furthest c f hp =>
    have h := hI c hc
    rw [hp] at h
    exact hP.some hf h
  | case4 values furthest c x hp =>
    have h := hI c hc
    rw [hp] at h
    exact h

theorem tells_many {I : Cursor → Prop} (hI : ∀ c, I c → (p c).Tells P)
    (hgives : ∀ c a d, I c → p.Gives c a d → I d) (hc : I c) : (many p c).Tells P :=
  tells_collect hP hI hgives hc (forall_mem_none P)

theorem tells_atLeastOne {I : Cursor → Prop} (hI : ∀ c, I c → (p c).Tells P)
    (hgives : ∀ c a d, I c → p.Gives c a d → I d) (hc : I c) : (atLeastOne p c).Tells P := by
  have h := hI c hc
  rw [atLeastOne]
  cases hp : p c with
  | done a d e =>
    rw [hp] at h
    exact tells_collect hP hI hgives (hgives c a d hc ⟨e, hp⟩) h
  | failed f =>
    rw [hp] at h
    exact h
  | stuck x =>
    rw [hp] at h
    exact h

/-- The rounds start at places of one kind, and read something. -/
theorem tells_collectSeparated {q : Parser β} {I : Cursor → Prop} (hq : ∀ c, I c → (q c).Tells P)
    (hI : ∀ c b d, I c → q.Gives c b d → (p d).Tells P)
    (hgives : ∀ c b d a e, I c → q.Gives c b d → p.Gives d a e → I e ∧ e.size < c.size)
    (hc : I c) {values : List α} {furthest : Option Failure} (hf : ∀ f ∈ furthest, P f) :
    (collectSeparated p q values furthest c).Tells P := by
  fun_induction collectSeparated p q values furthest c with
  | case1 values furthest c f hb =>
    have h := hq c hc
    rw [hb] at h
    exact hP.some hf h
  | case2 values furthest c x hb =>
    have h := hq c hc
    rw [hb] at h
    exact h
  | case3 values furthest c b d y hb f hp =>
    have h := hI c b d hc ⟨y, hb⟩
    rw [hp] at h
    exact hP.some hf h
  | case4 values furthest c b d y hb x hp =>
    have h := hI c b d hc ⟨y, hb⟩
    rw [hp] at h
    exact h
  | case5 values furthest c b d y hb a e x hp he ih =>
    have hbar := hq c hc
    rw [hb] at hbar
    have h := hI c b d hc ⟨y, hb⟩
    rw [hp] at h
    obtain ⟨hnext, -⟩ := hgives c b d a e hc ⟨y, hb⟩ ⟨x, hp⟩
    exact ih hnext (hP.furthest hf (hP.furthest hbar h))
  | case6 values furthest c b d y hb a e x hp he =>
    obtain ⟨-, hlt⟩ := hgives c b d a e hc ⟨y, hb⟩ ⟨x, hp⟩
    exact (he hlt).elim

theorem tells_separatedBy {q : Parser β} {I : Cursor → Prop} (hp : (p c).Tells P)
    (hfirst : ∀ a d, p.Gives c a d → I d) (hq : ∀ c, I c → (q c).Tells P)
    (hI : ∀ c b d, I c → q.Gives c b d → (p d).Tells P)
    (hgives : ∀ c b d a e, I c → q.Gives c b d → p.Gives d a e → I e ∧ e.size < c.size) :
    (separatedBy p q c).Tells P := by
  rw [separatedBy]
  cases hc : p c with
  | done a d e =>
    rw [hc] at hp
    exact tells_collectSeparated hP hq hI hgives (hfirst a d ⟨e, hc⟩) hp
  | failed f =>
    rw [hc] at hp
    exact hp
  | stuck x =>
    rw [hc] at hp
    exact hp

end Parser

namespace Peg

open PatternGen.Parser

variable {Γ : List Type} {env : Handles Γ} {p : Peg Γ α} {q : Peg Γ β} {c : Cursor}

theorem tells_char (h : c.Tells P) (x : Char) : ((char x).denote env c).Tells P :=
  tells_token h _ _

theorem tells_anyChar (h : c.Tells P) : (anyChar.denote env c).Tells P := tells_token h _ _

theorem tells_run (h : c.Tells P) (what : String) (kind : Char → Bool) :
    ((run what kind).denote env c).Tells P :=
  tells_token h _ _

variable (hP : Failure.Merges P)

include hP

theorem tells_map {f : α → β} (h : (p.denote env c).Tells P) : ((p.map f).denote env c).Tells P :=
  tells_bind hP h fun _ _ _ => tells_success _ _

theorem tells_zip (hp : (p.denote env c).Tells P)
    (hq : ∀ a d, (p.denote env).Gives c a d → (q.denote env d).Tells P) :
    ((p.zip q).denote env c).Tells P :=
  tells_bind hP hp fun a d h => tells_map hP (hq a d h)

theorem tells_thenIgnore (hp : (p.denote env c).Tells P)
    (hq : ∀ a d, (p.denote env).Gives c a d → (q.denote env d).Tells P) :
    ((p.thenIgnore q).denote env c).Tells P :=
  tells_map hP (tells_zip hP hp hq)

theorem tells_ignoreThen (hp : (p.denote env c).Tells P)
    (hq : ∀ a d, (p.denote env).Gives c a d → (q.denote env d).Tells P) :
    ((p.ignoreThen q).denote env c).Tells P :=
  tells_bind hP hp hq

theorem tells_optional (h : (p.denote env c).Tells P) : (p.optional.denote env c).Tells P :=
  tells_orElse hP (tells_map hP h) (tells_success _ _)

end Peg

end PatternGen
