import PatternGen.Pattern.Grammar
import PatternGen.Proofs.Parser.Rules

namespace PatternGen

open PatternGen.Parser

namespace CharClass

/-- A range wherever one in ascending order begins, else a single character. -/
def scanItems : List Char → List ClassItem
  | x :: '-' :: y :: cs =>
    if x ≤ y then .range x y :: scanItems cs else .single x :: scanItems ('-' :: y :: cs)
  | x :: cs => .single x :: scanItems cs
  | [] => []

def ofBody : List Char → CharClass
  | '^' :: cs => ⟨true, scanItems cs⟩
  | cs => ⟨false, scanItems cs⟩

theorem print_scanItems (cs : List Char) : (scanItems cs).flatMap ClassItem.print = cs := by
  fun_induction scanItems cs with
  | case1 x y cs hxy ih => rw [List.flatMap_cons, ih]; rfl
  | case2 x y cs hxy ih => rw [List.flatMap_cons, ih]; rfl
  | case3 x cs hcs ih => rw [List.flatMap_cons, ih]; rfl
  | case4 => rfl

theorem printBody_ofBody (body : List Char) : (ofBody body).printBody = body := by
  fun_cases ofBody body with
  | case1 cs => rw [printBody, print_scanItems]; rfl
  | case2 cs hcs => rw [printBody, print_scanItems]; rfl

end CharClass

namespace Grammar

open Peg CharClass

variable {Γ : List Type} {env : Handles Γ} {c d : Cursor}

def staysInClass (x : Char) : Bool := x != ']'

theorem gives_classChar_iff :
    (classChar.denote env).Gives c x d ↔ staysInClass x ∧ c.Spans [x] d := by
  rw [classChar, except, denote_filter, gives_filter_iff, gives_anyChar_iff, and_comm]
  rfl

theorem fails_classChar_iff :
    (classChar.denote env).Fails c ↔ ∃ rest, c.rest? = some rest ∧ Halts staysInClass rest := by
  rw [classChar, except, denote_filter, fails_filter_iff, fails_anyChar_iff]
  constructor
  · intro h
    rcases h with h | ⟨x, d, h, hx⟩
    · exact ⟨[], h, halts_nil _⟩
    · rw [gives_anyChar_iff] at h
      obtain ⟨rest, hd⟩ := h.exists_rest
      exact ⟨_, h.rest?_eq hd, halts_cons_iff.2 hx⟩
  · intro h
    obtain ⟨rest, hc, hh⟩ := h
    cases rest with
    | nil => exact .inl hc
    | cons x rest =>
      have hspan : c.Spans [x] (c.advance 1) := Cursor.spans_advance hc
      have hx : ¬ staysInClass x := halts_cons_iff.1 hh
      exact .inr ⟨x, _, gives_anyChar_iff.2 hspan, hx⟩

theorem gives_single (hx : staysInClass x) (h : c.Spans [x] d) :
    (single.denote env).Gives c (.single x) d :=
  gives_map_iff.2 ⟨x, gives_classChar_iff.2 ⟨hx, h⟩, rfl⟩

theorem gives_range (hx : staysInClass x) (hy : staysInClass y) (hxy : x ≤ y)
    (h : c.Spans [x, '-', y] d) : (range.denote env).Gives c (.range x y) d := by
  obtain ⟨a, ha, h⟩ := h.uncons
  obtain ⟨b, hb, h⟩ := h.uncons
  refine gives_map_iff.2 ⟨(x, y), ?_, rfl⟩
  rw [denote_filter, gives_filter_iff]
  refine ⟨gives_zip_iff.2 ⟨b, ?_, gives_classChar_iff.2 ⟨hy, h⟩⟩, decide_eq_true hxy⟩
  exact gives_thenIgnore_iff.2 ⟨'-', a, gives_classChar_iff.2 ⟨hx, ha⟩, gives_char_iff.2 ⟨rfl, hb⟩⟩

theorem fails_range_of_descending (hx : staysInClass x) (hy : staysInClass y) (hxy : ¬ x ≤ y)
    (h : c.Spans [x, '-', y] d) : (range.denote env).Fails c := by
  obtain ⟨a, ha, h⟩ := h.uncons
  obtain ⟨b, hb, h⟩ := h.uncons
  rw [range, fails_map_iff, denote_filter, fails_filter_iff]
  refine .inr ⟨(x, y), d, gives_zip_iff.2 ⟨b, ?_, gives_classChar_iff.2 ⟨hy, h⟩⟩,
    by simpa using hxy⟩
  exact gives_thenIgnore_iff.2 ⟨'-', a, gives_classChar_iff.2 ⟨hx, ha⟩, gives_char_iff.2 ⟨rfl, hb⟩⟩

theorem fails_range_of_halts (hx : staysInClass x) (h : c.Spans [x, '-'] d)
    (hd : d.rest? = some rest) (hh : Halts staysInClass rest) : (range.denote env).Fails c := by
  obtain ⟨a, ha, h⟩ := h.uncons
  rw [range, fails_map_iff, denote_filter, fails_filter_iff, fails_zip_iff]
  refine .inl (.inr ⟨x, d, ?_, fails_classChar_iff.2 ⟨rest, hd, hh⟩⟩)
  exact gives_thenIgnore_iff.2 ⟨'-', a, gives_classChar_iff.2 ⟨hx, ha⟩, gives_char_iff.2 ⟨rfl, h⟩⟩

theorem fails_range_of_no_dash (hx : staysInClass x) (h : c.Spans [x] d)
    (hd : d.rest? = some rest) (hr : rest.head? ≠ some '-') : (range.denote env).Fails c := by
  rw [range, fails_map_iff, denote_filter, fails_filter_iff, fails_zip_iff, fails_thenIgnore_iff]
  exact .inl (.inl (.inr ⟨x, d, gives_classChar_iff.2 ⟨hx, h⟩, fails_char_iff.2 ⟨rest, hd, hr⟩⟩))

theorem fails_item (hc : c.rest? = some rest) (hh : Halts staysInClass rest) :
    ((range.orElse single).denote env).Fails c := by
  have hclass : (classChar.denote env).Fails c := fails_classChar_iff.2 ⟨rest, hc, hh⟩
  rw [denote_orElse, fails_orElse_iff]
  constructor
  · rw [range, fails_map_iff, denote_filter, fails_filter_iff, fails_zip_iff, fails_thenIgnore_iff]
    exact .inl (.inl (.inl hclass))
  · rw [single, fails_map_iff]
    exact hclass

/-- The scan finds what the grammar reads, up to a bracket or the end. -/
theorem many_item (hb : ∀ x ∈ body, staysInClass x) (h : c.Spans body d)
    (hd : d.rest? = some rest) (hh : Halts staysInClass rest) :
    Many ((range.orElse single).denote env) c (scanItems body) d := by
  -- along the scan, which looks for a range before it takes a single character
  fun_induction scanItems body generalizing c with
  | case1 x y cs hxy ih =>
    obtain ⟨m, hm, h⟩ := Cursor.Spans.cut (s := [x, '-', y]) h
    have hg : (range.denote env).Gives c (.range x y) m :=
      gives_range (hb x (by simp)) (hb y (by simp)) hxy hm
    refine .more ?_ (hm.size_lt (by simp)) (ih (fun z hz => hb z (by simp [hz])) h)
    rw [denote_orElse, gives_orElse_iff]
    exact .inl hg
  | case2 x y cs hxy ih =>
    obtain ⟨l, hl, -⟩ := Cursor.Spans.cut (s := [x, '-', y]) h
    obtain ⟨m, hm, h⟩ := h.uncons
    have hx := hb x (by simp)
    have hf : (range.denote env).Fails c := fails_range_of_descending hx (hb y (by simp)) hxy hl
    refine .more ?_ (hm.size_lt (by simp)) (ih (fun z hz => hb z (.tail x hz)) h)
    rw [denote_orElse, gives_orElse_iff]
    exact .inr ⟨hf, gives_single hx hm⟩
  | case3 x cs hcs ih =>
    obtain ⟨m, hm, h⟩ := h.uncons
    have hx := hb x (by simp)
    have hf : (range.denote env).Fails c := by
      by_cases hdash : cs = ['-']
      · cases hdash
        exact fails_range_of_halts hx (hm.trans h) hd hh
      · refine fails_range_of_no_dash hx hm (h.rest?_eq hd) ?_
        intro hz
        cases cs with
        | nil => exact hh '-' hz (by decide)
        | cons z cs =>
          cases Option.some.inj hz
          cases cs with
          | nil => exact hdash rfl
          | cons y cs => exact hcs y cs rfl
    refine .more ?_ (hm.size_lt (by simp)) (ih (fun z hz => hb z (.tail x hz)) h)
    rw [denote_orElse, gives_orElse_iff]
    exact .inr ⟨hf, gives_single hx hm⟩
  | case4 =>
    cases h.eq_of_nil
    exact .stop (fails_item hd hh)

theorem gives_classBody (hb : ∀ x ∈ body, staysInClass x) (h : c.Spans body d)
    (hd : d.rest? = some rest) (hh : Halts staysInClass rest) :
    (classBody.denote env).Gives c (ofBody body) d := by
  have hc := h.rest?_eq hd
  fun_cases ofBody body with
  | case1 cs =>
    obtain ⟨m, hm, h⟩ := h.uncons
    have hs : Many ((range.orElse single).denote env) m (scanItems cs) d :=
      many_item (fun x hx => hb x (.tail _ hx)) h hd hh
    refine gives_map_iff.2 ⟨(some '^', scanItems cs), ?_, rfl⟩
    refine gives_zip_iff.2 ⟨m, ?_, gives_many_iff.2 hs⟩
    exact gives_optional_iff.2 (.inl ⟨'^', gives_char_iff.2 ⟨rfl, hm⟩, rfl⟩)
  | case2 cs hcs =>
    have hs : Many ((range.orElse single).denote env) c (scanItems body) d :=
      many_item hb h hd hh
    refine gives_map_iff.2 ⟨(none, scanItems body), ?_, rfl⟩
    refine gives_zip_iff.2 ⟨c, ?_, gives_many_iff.2 hs⟩
    refine gives_optional_iff.2 (.inr ⟨fails_char_iff.2 ⟨_, hc, ?_⟩, rfl, rfl⟩)
    intro hz
    cases body with
    | nil => exact hh '^' hz (by decide)
    | cons z body =>
      cases Option.some.inj hz
      exact hcs body rfl

theorem exists_rest_of_gives_classBody (h : (classBody.denote env).Gives c k d) :
    ∃ rest, c.rest? = some rest := by
  obtain ⟨r, h, -⟩ := gives_map_iff.1 h
  obtain ⟨m, h, -⟩ := gives_zip_iff.1 h
  rcases gives_optional_iff.1 h with ⟨x, h, -⟩ | ⟨h, -, -⟩
  · obtain ⟨-, h⟩ := gives_char_iff.1 h
    obtain ⟨rest, hm⟩ := h.exists_rest
    exact ⟨_, h.rest?_eq hm⟩
  · obtain ⟨rest, hc, -⟩ := fails_char_iff.1 h
    exact ⟨rest, hc⟩

theorem gives_classBody_iff :
    (classBody.denote env).Gives c k d ↔
      ∃ body rest, k = ofBody body ∧ (∀ x ∈ body, staysInClass x) ∧ c.Spans body d ∧
        d.rest? = some rest ∧ Halts staysInClass rest := by
  constructor
  · intro h
    obtain ⟨cs, hc⟩ := exists_rest_of_gives_classBody h
    rw [← List.takeWhile_append_dropWhile (p := staysInClass) (l := cs)] at hc
    have hs := Cursor.spans_advance hc
    have hb : ∀ x ∈ cs.takeWhile staysInClass, staysInClass x :=
      List.all_eq_true.1 List.all_takeWhile
    obtain ⟨rest, hd⟩ := hs.exists_rest
    have hrest : cs.dropWhile staysInClass = rest :=
      List.append_cancel_left (Option.some.inj (hc.symm.trans (hs.rest?_eq hd)))
    have hh : Halts staysInClass rest := hrest ▸ halts_dropWhile staysInClass cs
    obtain ⟨rfl, rfl⟩ := h.unique (gives_classBody hb hs hd hh)
    exact ⟨_, rest, rfl, hb, hs, hd, hh⟩
  · intro h
    obtain ⟨body, rest, rfl, hb, hs, hd, hh⟩ := h
    exact gives_classBody hb hs hd hh

end Grammar

theorem staysInClass_iff : Grammar.staysInClass x ↔ x ≠ ']' := by
  rw [Grammar.staysInClass, bne_iff_ne]

theorem forall_staysInClass_iff {s : List Char} :
    (∀ x ∈ s, Grammar.staysInClass x) ↔ ']' ∉ s := by
  simp only [staysInClass_iff, ne_eq]
  exact List.forall_mem_ne'

end PatternGen
