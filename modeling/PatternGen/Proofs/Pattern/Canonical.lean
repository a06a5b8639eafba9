import PatternGen.Proofs.Pattern.Spelling

namespace PatternGen

open Grammar

namespace CharClass

/-- The items are those that the printed body is read as, and no bracket ends it early. -/
structure Canonical (k : CharClass) : Prop where
  unbracketed : ∀ e ∈ k.items, ∀ x ∈ e.print, staysInClass x
  ascending : ∀ first last, .range first last ∈ k.items → first ≤ last
  /-- Only a negated class begins with a caret. -/
  uncareted : k.negated = false → k.printBody.head? ≠ some '^'
  /-- A single character before a dash begins no range. -/
  undashed : ∀ before c after, k.items = before ++ .single c :: after →
    ∀ d rest, after.flatMap ClassItem.print = '-' :: d :: rest → ¬ c ≤ d

theorem scanItems_print {items : List ClassItem}
    (hrange : ∀ first last, .range first last ∈ items → first ≤ last)
    (hdash : ∀ before c after, items = before ++ .single c :: after →
      ∀ d rest, after.flatMap ClassItem.print = '-' :: d :: rest → ¬ c ≤ d) :
    scanItems (items.flatMap ClassItem.print) = items := by
  induction items with
  | nil => rfl
  | cons e items ih =>
    have hrange' : ∀ first last, .range first last ∈ items → first ≤ last := by
      intro first last h
      exact hrange first last (List.mem_cons_of_mem e h)
    have hdash' : ∀ before c after, items = before ++ .single c :: after →
        ∀ d rest, after.flatMap ClassItem.print = '-' :: d :: rest → ¬ c ≤ d := by
      intro before c after h
      exact hdash (e :: before) c after (congrArg (e :: ·) h)
    have hitems := ih hrange' hdash'
    rw [List.flatMap_cons]
    cases e with
    | range first last =>
      have hle := hrange first last (List.mem_cons_self ..)
      change scanItems (first :: '-' :: last :: items.flatMap ClassItem.print) = _
      rw [scanItems, if_pos hle, hitems]
    | single c =>
      have hc := hdash [] c items rfl
      change scanItems (c :: items.flatMap ClassItem.print) = _
      generalize items.flatMap ClassItem.print = cs at hitems hc
      unfold scanItems
      split
      · next x y cs h =>
        cases h
        rw [if_neg (hc y cs rfl), hitems]
      · next x cs _ h =>
        cases h
        rw [hitems]
      · next h => cases h

theorem ofBody_printBody {k : CharClass} (h : k.Canonical) : ofBody k.printBody = k := by
  obtain ⟨negated, items⟩ := k
  have hitems : scanItems (items.flatMap ClassItem.print) = items :=
    scanItems_print h.ascending h.undashed
  cases negated with
  | true =>
    change ofBody ('^' :: items.flatMap ClassItem.print) = _
    rw [ofBody, hitems]
  | false =>
    have hcaret := h.uncareted rfl
    change (items.flatMap ClassItem.print).head? ≠ some '^' at hcaret
    change ofBody (items.flatMap ClassItem.print) = _
    generalize items.flatMap ClassItem.print = cs at hitems hcaret
    unfold ofBody
    split
    · exact (hcaret rfl).elim
    · rw [hitems]

theorem Canonical.staysInClass_of_mem {k : CharClass} (h : k.Canonical) (hx : x ∈ k.printBody) :
    staysInClass x := by
  rw [printBody, List.mem_append] at hx
  rcases hx with hx | hx
  · split at hx
    · cases List.mem_singleton.1 hx
      decide
    · cases hx
  · obtain ⟨e, he, hx⟩ := List.mem_flatMap.1 hx
    exact h.unbracketed e he x hx

theorem ascending_scanItems (h : .range first last ∈ scanItems cs) : first ≤ last := by
  fun_induction scanItems cs with
  | case1 x y cs hxy ih =>
    cases h with
    | head => exact hxy
    | tail _ h => exact ih h
  | case2 x y cs hxy ih =>
    cases h with
    | tail _ h => exact ih h
  | case3 x cs hcs ih =>
    cases h with
    | tail _ h => exact ih h
  | case4 => cases h

theorem undashed_scanItems (h : scanItems cs = before ++ .single c :: after)
    (hd : after.flatMap ClassItem.print = '-' :: d :: rest) : ¬ c ≤ d := by
  fun_induction scanItems cs generalizing before with
  | case1 x y cs hxy ih =>
    cases before with
    | nil => cases h
    | cons e before => exact ih (List.cons.inj h).2
  | case2 x y cs hxy ih =>
    cases before with
    | nil =>
      cases h
      rw [print_scanItems] at hd
      cases hd
      exact hxy
    | cons e before => exact ih (List.cons.inj h).2
  | case3 x cs hcs ih =>
    cases before with
    | nil =>
      cases h
      rw [print_scanItems] at hd
      exact (hcs d rest hd).elim
    | cons e before => exact ih (List.cons.inj h).2
  | case4 =>
    cases before with
    | nil => cases h
    | cons e before => cases h

theorem uncareted_ofBody (h : (ofBody body).negated = false) :
    (ofBody body).printBody.head? ≠ some '^' := by
  rw [printBody_ofBody]
  fun_cases ofBody body with
  | case1 cs => cases h
  | case2 cs hcs =>
    intro hz
    cases body with
    | nil => cases hz
    | cons z body =>
      cases Option.some.inj hz
      exact hcs body rfl

theorem exists_items_ofBody (body : List Char) :
    ∃ cs, (ofBody body).items = scanItems cs ∧ ∀ x ∈ cs, x ∈ body := by
  fun_cases ofBody body with
  | case1 cs => exact ⟨cs, rfl, fun x hx => List.mem_cons_of_mem '^' hx⟩
  | case2 cs hcs => exact ⟨body, rfl, fun x hx => hx⟩

theorem canonical_ofBody (hb : ∀ x ∈ body, staysInClass x) : (ofBody body).Canonical := by
  obtain ⟨cs, hitems, hcs⟩ := exists_items_ofBody body
  refine ⟨?_, ?_, uncareted_ofBody, ?_⟩
  · intro e he x hx
    rw [hitems] at he
    have hmem : x ∈ (scanItems cs).flatMap ClassItem.print := List.mem_flatMap.2 ⟨e, he, hx⟩
    rw [print_scanItems] at hmem
    exact hb x (hcs x hmem)
  · intro first last h
    rw [hitems] at h
    exact ascending_scanItems h
  · intro before c after h d rest hd
    rw [hitems] at h
    exact undashed_scanItems h hd

end CharClass

namespace Repetition

theorem isValid_of_spells {r : Repetition} (h : r.Spells v) : r.isValid := by
  cases h with
  | omitted => rfl
  | star => rfl
  | plus => rfl
  | @exactly _ n _ => exact decide_eq_true (UInt32.le_refl n)
  | atLeast _ => rfl
  | between _ _ h => exact decide_eq_true h

theorem spells_print {r : Repetition} (h : r.isValid) : r.Spells r.print := by
  obtain ⟨min, max⟩ := r
  have hmin : Text.count? (printCount min) = some min := Text.count?_decimal min
  cases max with
  | none =>
    rw [print]
    split
    · next h₀ =>
      rw [h₀]
      exact .star
    split
    · next h₁ =>
      rw [h₁]
      exact .plus
    · exact .atLeast hmin
  | some max =>
    have hmax : Text.count? (printCount max) = some max := Text.count?_decimal max
    rw [print]
    split
    · next h₁ =>
      rw [h₁.1, h₁.2]
      exact .omitted
    split
    · next heq =>
      rw [← heq]
      exact .exactly hmin
    · simp only [List.cons_append, List.append_assoc]
      exact .between hmin hmax (of_decide_eq_true h)

end Repetition

namespace Pattern

mutual

def WellFormedTerm : Term → Prop
  | .charClass k => k.Canonical
  | .literal text => text.toList ≠ [] ∧ ∀ x ∈ text.toList, isLiteral x
  | .group branches => branches ≠ [] ∧ WellFormedBranches branches

def WellFormedPieces : List (Term × Repetition) → Prop
  | [] => True
  | (t, r) :: ps => WellFormedTerm t ∧ r.isValid ∧ WellFormedPieces ps

def WellFormedBranches : List (List (Term × Repetition)) → Prop
  | [] => True
  | b :: bs => b ≠ [] ∧ WellFormedPieces b ∧ WellFormedBranches bs

end

/-- Nothing is empty, and all repetitions, literals and classes can be written, at every depth. -/
def WellFormed (p : Pattern) : Prop := p ≠ [] ∧ WellFormedBranches p

mutual

theorem wellFormedTerm_of_spells {t : Term} (h : SpellsTerm t s) : WellFormedTerm t := by
  cases t with
  | charClass k =>
    rw [SpellsTerm] at h
    obtain ⟨body, rfl, hb, -⟩ := h
    rw [WellFormedTerm]
    exact CharClass.canonical_ofBody hb
  | literal text =>
    rw [SpellsTerm] at h
    obtain ⟨rfl, hne, hl⟩ := h
    rw [WellFormedTerm]
    exact ⟨hne, hl⟩
  | group branches =>
    rw [SpellsTerm] at h
    obtain ⟨t, ht, -⟩ := h
    rw [WellFormedTerm]
    exact wellFormedBranches_of_spells ht

theorem wellFormedPieces_of_spells {ps : List (Term × Repetition)} (h : SpellsPieces ps s) :
    WellFormedPieces ps := by
  cases ps with
  | nil =>
    rw [WellFormedPieces]
    trivial
  | cons p ps =>
    obtain ⟨t, r⟩ := p
    rw [SpellsPieces] at h
    obtain ⟨_, _, hp, hps, -, -⟩ := h
    rw [SpellsPiece] at hp
    obtain ⟨u, v, ht, hr, -⟩ := hp
    rw [WellFormedPieces]
    exact ⟨wellFormedTerm_of_spells ht, Repetition.isValid_of_spells hr,
      wellFormedPieces_of_spells hps⟩

theorem wellFormedBranches_of_spells {bs : List (List (Term × Repetition))}
    (h : SpellsBranches bs s) : bs ≠ [] ∧ WellFormedBranches bs := by
  cases bs with
  | nil =>
    rw [SpellsBranches] at h
    exact h.elim
  | cons b bs =>
    rw [SpellsBranches] at h
    obtain ⟨u, v, hne, hb, hbs, -⟩ := h
    rw [WellFormedBranches]
    exact ⟨List.cons_ne_nil b bs, hne, wellFormedPieces_of_spells hb, wellFormedRest_of_spells hbs⟩

theorem wellFormedRest_of_spells {bs : List (List (Term × Repetition))} (h : SpellsRest bs s) :
    WellFormedBranches bs := by
  cases bs with
  | nil =>
    rw [WellFormedBranches]
    trivial
  | cons b bs =>
    rw [SpellsRest] at h
    obtain ⟨u, v, hne, hb, hbs, -⟩ := h
    rw [WellFormedBranches]
    exact ⟨hne, wellFormedPieces_of_spells hb, wellFormedRest_of_spells hbs⟩

end

theorem Spells.wellFormed {p : Pattern} (h : p.Spells s) : p.WellFormed :=
  wellFormedBranches_of_spells h

end Pattern

end PatternGen
