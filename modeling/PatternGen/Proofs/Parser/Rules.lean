import PatternGen.Proofs.Parser.Span
import PatternGen.Proofs.Parser.Success

namespace PatternGen

/-- A run of characters of the kind cannot go on. -/
def Halts (kind : Char → Bool) (rest : List Char) : Prop := ∀ x ∈ rest.head?, ¬ kind x

theorem halts_nil (kind : Char → Bool) : Halts kind [] := nofun

theorem halts_cons_iff {kind : Char → Bool} : Halts kind (x :: rest) ↔ ¬ kind x := by
  simp [Halts]

theorem Halts.mono {kind kind' : Char → Bool} (h : Halts kind rest)
    (hk : ∀ x, kind' x → kind x) : Halts kind' rest :=
  fun x hx hx' => h x hx (hk x hx')

theorem halts_dropWhile (kind : Char → Bool) (cs : List Char) :
    Halts kind (cs.dropWhile kind) := by
  induction cs with
  | nil => exact halts_nil kind
  | cons x cs ih =>
    by_cases hx : kind x
    · rw [List.dropWhile_cons_of_pos hx]
      exact ih
    · rw [List.dropWhile_cons_of_neg hx]
      exact halts_cons_iff.2 hx

theorem Halts.takeWhile_append {kind : Char → Bool} (h : Halts kind rest)
    (hs : ∀ x ∈ s, kind x) : (s ++ rest).takeWhile kind = s := by
  rw [List.takeWhile_append_of_pos hs]
  cases rest with
  | nil => exact List.append_nil s
  | cons x rest => rw [List.takeWhile_cons_of_neg (halts_cons_iff.1 h), List.append_nil]

theorem Halts.dropWhile_append {kind : Char → Bool} (h : Halts kind rest)
    (hs : ∀ x ∈ s, kind x) : (s ++ rest).dropWhile kind = rest := by
  rw [List.dropWhile_append_of_pos hs]
  cases rest with
  | nil => rfl
  | cons x rest => rw [List.dropWhile_cons_of_neg (halts_cons_iff.1 h)]

end PatternGen

namespace PatternGen.Peg

open PatternGen.Parser

variable {Γ : List Type} {α β : Type} {env : Handles Γ} {p : Peg Γ α} {q : Peg Γ β} {c d e : Cursor}

theorem denote_token (what : String) (scan : List Char → Option (α × Nat)) (env : Handles Γ) :
    (token what scan).denote env = Parser.token what scan := rfl

theorem denote_success (a : α) (env : Handles Γ) : (success a).denote env = Parser.success a := rfl

theorem denote_bind (p : Peg Γ α) (f : α → Peg Γ β) (env : Handles Γ) :
    (bind p f).denote env = Parser.bind (p.denote env) fun a => (f a).denote env := rfl

theorem denote_orElse (p q : Peg Γ α) (env : Handles Γ) :
    (orElse p q).denote env = Parser.orElse (p.denote env) (q.denote env) := rfl

theorem denote_choice (n : Nat) (ps : Fin n → Peg Γ α) (env : Handles Γ) :
    (choice n ps).denote env = Parser.oneOf (List.ofFn fun i => (ps i).denote env) := rfl

theorem denote_filter (what : String) (keep : α → Bool) (p : Peg Γ α) (env : Handles Γ) :
    (filter what keep p).denote env = Parser.filter what keep (p.denote env) := rfl

theorem denote_atLeastOne (p : Peg Γ α) (env : Handles Γ) :
    p.atLeastOne.denote env = Parser.atLeastOne (p.denote env) := rfl

theorem denote_separatedBy (p : Peg Γ α) (q : Peg Γ β) (env : Handles Γ) :
    (p.separatedBy q).denote env = Parser.separatedBy (p.denote env) (q.denote env) := rfl

theorem denote_recursive (p : Peg (α :: Γ) α) (env : Handles Γ) :
    (recursive p).denote env = Parser.recursive fun self => p.denote (env.push self) := rfl

theorem gives_map_iff {f : α → β} :
    ((p.map f).denote env).Gives c b d ↔ ∃ a, (p.denote env).Gives c a d ∧ b = f a := by
  rw [map, denote_bind, gives_bind_iff]
  constructor
  · intro h
    obtain ⟨a, m, ha, hb⟩ := h
    obtain ⟨rfl, rfl⟩ := gives_success_iff.1 hb
    exact ⟨a, ha, rfl⟩
  · intro h
    obtain ⟨a, ha, rfl⟩ := h
    exact ⟨a, d, ha, gives_success_iff.2 ⟨rfl, rfl⟩⟩

theorem fails_map_iff {f : α → β} : ((p.map f).denote env).Fails c ↔ (p.denote env).Fails c := by
  rw [map, denote_bind, fails_bind_iff]
  constructor
  · intro h
    rcases h with h | ⟨a, d, -, h⟩
    · exact h
    · exact (not_fails_success h).elim
  · exact .inl

theorem gives_zip_iff {r : α × β} :
    ((p.zip q).denote env).Gives c r e ↔
      ∃ d, (p.denote env).Gives c r.1 d ∧ (q.denote env).Gives d r.2 e := by
  rw [zip, denote_bind, gives_bind_iff]
  constructor
  · intro h
    obtain ⟨a, d, ha, hr⟩ := h
    obtain ⟨b, hb, rfl⟩ := gives_map_iff.1 hr
    exact ⟨d, ha, hb⟩
  · intro h
    obtain ⟨d, ha, hb⟩ := h
    exact ⟨r.1, d, ha, gives_map_iff.2 ⟨r.2, hb, rfl⟩⟩

theorem fails_zip_iff :
    ((p.zip q).denote env).Fails c ↔
      (p.denote env).Fails c ∨ ∃ a d, (p.denote env).Gives c a d ∧ (q.denote env).Fails d := by
  rw [zip, denote_bind, fails_bind_iff]
  simp only [fails_map_iff]

theorem gives_thenIgnore_iff {a : α} :
    ((p.thenIgnore q).denote env).Gives c a e ↔
      ∃ b d, (p.denote env).Gives c a d ∧ (q.denote env).Gives d b e := by
  rw [thenIgnore, gives_map_iff]
  constructor
  · intro h
    obtain ⟨⟨_, b⟩, h, rfl⟩ := h
    obtain ⟨d, ha, hb⟩ := gives_zip_iff.1 h
    exact ⟨b, d, ha, hb⟩
  · intro h
    obtain ⟨b, d, ha, hb⟩ := h
    exact ⟨(a, b), gives_zip_iff.2 ⟨d, ha, hb⟩, rfl⟩

theorem fails_thenIgnore_iff :
    ((p.thenIgnore q).denote env).Fails c ↔
      (p.denote env).Fails c ∨ ∃ a d, (p.denote env).Gives c a d ∧ (q.denote env).Fails d := by
  rw [thenIgnore, fails_map_iff, fails_zip_iff]

theorem gives_ignoreThen_iff {b : β} :
    ((p.ignoreThen q).denote env).Gives c b e ↔
      ∃ a d, (p.denote env).Gives c a d ∧ (q.denote env).Gives d b e := by
  rw [ignoreThen, denote_bind, gives_bind_iff]

theorem fails_ignoreThen_iff :
    ((p.ignoreThen q).denote env).Fails c ↔
      (p.denote env).Fails c ∨ ∃ a d, (p.denote env).Gives c a d ∧ (q.denote env).Fails d := by
  rw [ignoreThen, denote_bind, fails_bind_iff]

theorem gives_optional_iff {o : Option α} :
    (p.optional.denote env).Gives c o d ↔
      (∃ a, (p.denote env).Gives c a d ∧ o = some a) ∨
        (p.denote env).Fails c ∧ o = none ∧ d = c := by
  rw [optional, denote_orElse, gives_orElse_iff, gives_map_iff, fails_map_iff, denote_success,
    gives_success_iff]

theorem denote_oneOf (ps : List (Peg Γ α)) :
    (oneOf ps).denote env = Parser.oneOf (ps.map (·.denote env)) := by
  have hmap : (List.ofFn fun i => (ps.get i).denote env) = ps.map (·.denote env) := by
    refine List.ext_getElem ?_ ?_ <;> simp
  rw [oneOf, denote_choice, hmap]

theorem gives_char_iff {x y : Char} :
    ((char x).denote env).Gives c y d ↔ y = x ∧ c.Spans [x] d := by
  rw [char, denote_token, gives_token_iff]
  constructor
  · intro h
    obtain ⟨rest, n, hc, hs, rfl⟩ := h
    cases rest with
    | nil => cases hs
    | cons z rest =>
      split at hs
      · next hz =>
        cases hs
        cases hz
        exact ⟨rfl, Cursor.spans_advance hc⟩
      · cases hs
  · intro h
    obtain ⟨rfl, h⟩ := h
    obtain ⟨rest, hd⟩ := h.exists_rest
    exact ⟨_, 1, h.rest?_eq hd, if_pos rfl, h.eq_advance⟩

theorem fails_char_iff {x : Char} :
    ((char x).denote env).Fails c ↔ ∃ rest, c.rest? = some rest ∧ rest.head? ≠ some x := by
  rw [char, denote_token, fails_token_iff]
  simp

theorem gives_anyChar_iff {x : Char} : (anyChar.denote env).Gives c x d ↔ c.Spans [x] d := by
  rw [anyChar, denote_token, gives_token_iff]
  constructor
  · intro h
    obtain ⟨rest, n, hc, hs, rfl⟩ := h
    cases rest with
    | nil => cases hs
    | cons y rest =>
      cases hs
      exact Cursor.spans_advance hc
  · intro h
    obtain ⟨rest, hd⟩ := h.exists_rest
    exact ⟨_, 1, h.rest?_eq hd, rfl, h.eq_advance⟩

theorem fails_anyChar_iff : (anyChar.denote env).Fails c ↔ c.rest? = some [] := by
  rw [anyChar, denote_token, fails_token_iff]
  simp

theorem gives_run_iff {kind : Char → Bool} {s : List Char} :
    ((run what kind).denote env).Gives c s d ↔
      s ≠ [] ∧ (∀ x ∈ s, kind x) ∧ c.Spans s d ∧
        ∃ rest, d.rest? = some rest ∧ Halts kind rest := by
  rw [run, denote_token, gives_token_iff]
  constructor
  · intro h
    obtain ⟨rest, n, hc, hs, rfl⟩ := h
    dsimp only at hs
    split at hs
    · cases hs
    · next hne =>
      cases hs
      rw [← List.takeWhile_append_dropWhile (p := kind) (l := rest)] at hc
      have hspan := Cursor.spans_advance hc
      obtain ⟨rest', hd⟩ := hspan.exists_rest
      refine ⟨fun h => hne (List.isEmpty_iff.2 h), fun x hx => ?_, hspan, _, hd, ?_⟩
      · exact List.all_eq_true.1 List.all_takeWhile x hx
      · have heq := hspan.rest?_eq hd
        rw [List.append_cancel_left (Option.some.inj (heq.symm.trans hc))]
        exact halts_dropWhile kind rest
  · intro h
    obtain ⟨hne, hk, hspan, rest, hd, hh⟩ := h
    refine ⟨_, s.length, hspan.rest?_eq hd, ?_, hspan.eq_advance⟩
    dsimp only
    rw [hh.takeWhile_append hk, if_neg (fun h => hne (List.isEmpty_iff.1 h))]

theorem fails_run_iff {kind : Char → Bool} :
    ((run what kind).denote env).Fails c ↔ ∃ rest, c.rest? = some rest ∧ Halts kind rest := by
  rw [run, denote_token, fails_token_iff]
  have hscan (rest : List Char) :
      (if (rest.takeWhile kind).isEmpty then none
        else some (rest.takeWhile kind, (rest.takeWhile kind).length)) = none ↔
          Halts kind rest := by
    cases rest with
    | nil => simp [halts_nil]
    | cons x rest =>
      by_cases hx : kind x <;> simp [halts_cons_iff, hx]
  simp only [hscan]

end PatternGen.Peg
