import PatternGen.Pattern.Grammar
import PatternGen.Proofs.Parser.Rules

namespace PatternGen

open Text PatternGen.Parser

/-- Numbers may have leading zeros, and one round may be written out. -/
inductive Repetition.Spells : Repetition → List Char → Prop where
  | omitted : Spells .once []
  | star : Spells .zeroOrMore ['*']
  | plus : Spells .oneOrMore ['+']
  | exactly (hn : count? low = some n) : Spells (.exactly n) ('\x7b' :: (low ++ ['\x7d']))
  | atLeast (hn : count? low = some n) : Spells (.atLeast n) ('\x7b' :: (low ++ [',', '\x7d']))
  | between (hn : count? low = some n) (hm : count? high = some m) (h : n ≤ m) :
    Spells (.between n m) ('\x7b' :: (low ++ ',' :: (high ++ ['\x7d'])))

theorem digits_of_count? (h : count? cs = some n) : cs ≠ [] ∧ ∀ x ∈ cs, x.isDigit := by
  rw [count?, Option.bind_eq_some_iff] at h
  obtain ⟨k, h, -⟩ := h
  rw [numeral?] at h
  split at h
  · next hd =>
    rw [Bool.and_eq_true, Bool.not_eq_true', List.isEmpty_eq_false_iff, List.all_eq_true] at hd
    exact hd
  · cases h

namespace Grammar

open Peg

/-- Bounds in braces, with the digits that stand there. -/
inductive Braces : List Char × Option (List Char) → List Char → Prop where
  | one (hne : low ≠ []) (hl : ∀ x ∈ low, x.isDigit) :
    Braces (low, none) ('\x7b' :: (low ++ ['\x7d']))
  | two (hne : low ≠ []) (hl : ∀ x ∈ low, x.isDigit) (hh : ∀ x ∈ high, x.isDigit) :
    Braces (low, some high) ('\x7b' :: (low ++ ',' :: (high ++ ['\x7d'])))

theorem scanBounds_append (h : Braces digits v) (rest : List Char) :
    scanBounds (v ++ rest) = some (digits, v.length) := by
  cases h with
  | @one low hne hl =>
    have hstop : Halts Char.isDigit ('\x7d' :: rest) := halts_cons_iff.2 (by decide)
    have hlow := hstop.takeWhile_append hl
    have hrest := hstop.dropWhile_append hl
    simp [scanBounds, hlow, hrest, hne]
  | @two low high hne hl hh =>
    have hstop : Halts Char.isDigit ('\x7d' :: rest) := halts_cons_iff.2 (by decide)
    have hcomma : Halts Char.isDigit (',' :: high ++ '\x7d' :: rest) := halts_cons_iff.2 (by decide)
    have hlow := hcomma.takeWhile_append hl
    have hrest := hcomma.dropWhile_append hl
    have hhigh := hstop.takeWhile_append hh
    have hrest' := hstop.dropWhile_append hh
    simp only [List.cons_append] at hlow hrest
    simp [scanBounds, hlow, hrest, hne, hhigh, hrest']
    omega

theorem braces_of_scanBounds (h : scanBounds cs = some (digits, n)) :
    ∃ v rest, cs = v ++ rest ∧ v.length = n ∧ Braces digits v := by
  -- the scan succeeds with one bound or with two, and in no other branch
  unfold scanBounds at h
  split at h
  · next t =>
    have hcs := List.takeWhile_append_dropWhile (p := Char.isDigit) (l := t)
    have hlow : ∀ x ∈ t.takeWhile Char.isDigit, x.isDigit :=
      List.all_eq_true.1 List.all_takeWhile
    dsimp only at h
    generalize t.takeWhile Char.isDigit = low at h hcs hlow
    split at h
    · cases h
    · next hne =>
      rw [List.isEmpty_iff] at hne
      split at h
      · next rest hr =>
        cases h
        rw [hr] at hcs
        refine ⟨_, rest, ?_, ?_, .one hne hlow⟩
        · simp [← hcs]
        · simp
      · next u hr =>
        have hcs' := List.takeWhile_append_dropWhile (p := Char.isDigit) (l := u)
        have hhigh : ∀ x ∈ u.takeWhile Char.isDigit, x.isDigit :=
          List.all_eq_true.1 List.all_takeWhile
        generalize u.takeWhile Char.isDigit = high at h hcs' hhigh
        split at h
        · next rest hr' =>
          cases h
          rw [hr] at hcs
          rw [hr'] at hcs'
          refine ⟨_, rest, ?_, ?_, .two hne hlow hhigh⟩
          · simp [← hcs, ← hcs']
          · simp
            omega
        · cases h
      · cases h
  · cases h

theorem Braces.repetition (h : Braces digits v) (hr : repetitionOf? digits = some r)
    (hv : r.isValid) : r.Spells v := by
  cases h with
  | one hne hl =>
    rw [repetitionOf?, Option.map_eq_some_iff] at hr
    obtain ⟨n, hn, rfl⟩ := hr
    exact .exactly hn
  | @two low high hne hl hh =>
    cases high with
    | nil =>
      rw [repetitionOf?, Option.map_eq_some_iff] at hr
      obtain ⟨n, hn, rfl⟩ := hr
      exact .atLeast hn
    | cons x high =>
      rw [repetitionOf?, Option.bind_eq_some_iff] at hr
      obtain ⟨n, hn, hr⟩ := hr
      rw [Option.map_eq_some_iff] at hr
      obtain ⟨m, hm, rfl⟩ := hr
      exact .between hn hm (of_decide_eq_true hv)
      intro h
      cases h

theorem braces_of_spells (h : r.Spells v) (hb : v.head? = some '\x7b') :
    ∃ digits, Braces digits v ∧ repetitionOf? digits = some r ∧ r.isValid := by
  cases h with
  | omitted => cases hb
  | star => cases hb
  | plus => cases hb
  | @exactly low n hn =>
    obtain ⟨hne, hl⟩ := digits_of_count? hn
    refine ⟨(low, none), .one hne hl, ?_, ?_⟩
    · rw [repetitionOf?, hn]
      rfl
    · exact decide_eq_true (UInt32.le_refl n)
  | @atLeast low n hn =>
    obtain ⟨hne, hl⟩ := digits_of_count? hn
    have hh : ∀ x ∈ ([] : List Char), x.isDigit := by simp
    refine ⟨(low, some []), .two hne hl hh, ?_, rfl⟩
    rw [repetitionOf?, hn]
    rfl
  | @between low n high m hn hm hnm =>
    obtain ⟨hne, hl⟩ := digits_of_count? hn
    obtain ⟨hne', hh⟩ := digits_of_count? hm
    refine ⟨(low, some high), .two hne hl hh, ?_, decide_eq_true hnm⟩
    rw [repetitionOf?, hn, hm]
    · rfl
    · exact hne'

variable {Γ : List Type} {env : Handles Γ} {c d : Cursor}

theorem gives_boundedRepetition_iff :
    (boundedRepetition.denote env).Gives c r d ↔
      ∃ v, r.Spells v ∧ v.head? = some '\x7b' ∧ c.Spans v d := by
  rw [boundedRepetition, denote_bind, gives_bind_iff]
  constructor
  · intro h
    obtain ⟨digits, m, hm, hr⟩ := h
    rw [denote_token, gives_token_iff] at hm
    obtain ⟨rest, n, hc, hs, rfl⟩ := hm
    obtain ⟨v, rest, rfl, rfl, hb⟩ := braces_of_scanBounds hs
    split at hr
    · next q hq =>
      split at hr
      · next hv =>
        obtain ⟨rfl, rfl⟩ := gives_success_iff.1 hr
        refine ⟨v, hb.repetition hq hv, ?_, Cursor.spans_advance hc⟩
        cases hb <;> rfl
      · exact (not_gives_fail hr).elim
    · exact (not_gives_fail hr).elim
  · intro h
    obtain ⟨v, hr, hv, hs⟩ := h
    obtain ⟨digits, hb, hd, hok⟩ := braces_of_spells hr hv
    obtain ⟨rest, hrest⟩ := hs.exists_rest
    refine ⟨digits, d, ?_, ?_⟩
    · rw [denote_token, gives_token_iff]
      exact ⟨_, _, hs.rest?_eq hrest, scanBounds_append hb rest, hs.eq_advance⟩
    · rw [hd]
      dsimp only
      rw [if_pos hok]
      exact gives_success_iff.2 ⟨rfl, rfl⟩

theorem fails_boundedRepetition (hc : c.rest? = some rest) (hr : rest.head? ≠ some '\x7b') :
    (boundedRepetition.denote env).Fails c := by
  rw [boundedRepetition, denote_bind, fails_bind_iff, denote_token, fails_token_iff]
  refine .inl ⟨rest, hc, ?_⟩
  unfold scanBounds
  split
  · exact (hr rfl).elim
  · rfl

def startsRepetition (x : Char) : Bool := x == '\x7b' || x == '*' || x == '+'

theorem gives_repetition_iff :
    (repetition.denote env).Gives c r d ↔
      (boundedRepetition.denote env).Gives c r d ∨ (boundedRepetition.denote env).Fails c ∧
        (r = .zeroOrMore ∧ c.Spans ['*'] d ∨ ((char '*').denote env).Fails c ∧
          (r = .oneOrMore ∧ c.Spans ['+'] d ∨ ((char '+').denote env).Fails c ∧
            r = .once ∧ d = c)) := by
  have hsign {x : Char} {q : Repetition} :
      (((char x).map fun _ => q).denote env).Gives c r d ↔ r = q ∧ c.Spans [x] d := by
    rw [gives_map_iff]
    constructor
    · intro h
      obtain ⟨y, h, rfl⟩ := h
      exact ⟨rfl, (gives_char_iff.1 h).2⟩
    · intro h
      obtain ⟨rfl, h⟩ := h
      exact ⟨x, gives_char_iff.2 ⟨rfl, h⟩, rfl⟩
  rw [repetition, denote_oneOf]
  simp only [List.map_cons, List.map_nil, gives_oneOf_cons_iff, not_gives_oneOf_nil, and_false,
    or_false, hsign, fails_map_iff]
  rw [denote_success, gives_success_iff]

theorem spells_of_gives_repetition (h : (repetition.denote env).Gives c r d) :
    ∃ v, r.Spells v ∧ c.Spans v d := by
  rcases gives_repetition_iff.1 h with hb | ⟨-, ⟨rfl, hs⟩ | ⟨hf, ⟨rfl, hs⟩ | ⟨-, rfl, rfl⟩⟩⟩
  · obtain ⟨v, hr, -, hs⟩ := gives_boundedRepetition_iff.1 hb
    exact ⟨v, hr, hs⟩
  · exact ⟨_, .star, hs⟩
  · exact ⟨_, .plus, hs⟩
  · obtain ⟨rest, hc, -⟩ := fails_char_iff.1 hf
    exact ⟨[], .omitted, Cursor.spans_nil hc⟩

theorem gives_repetition (h : r.Spells v) (hs : c.Spans v d) (hd : d.rest? = some rest)
    (hv : v = [] → Halts startsRepetition rest) : (repetition.denote env).Gives c r d := by
  have hc := hs.rest?_eq hd
  rw [gives_repetition_iff]
  by_cases hb : v.head? = some '\x7b'
  · exact .inl (gives_boundedRepetition_iff.2 ⟨v, h, hb, hs⟩)
  refine .inr ?_
  cases h with
  | star => exact ⟨fails_boundedRepetition hc (by simp), .inl ⟨rfl, hs⟩⟩
  | plus =>
    refine ⟨fails_boundedRepetition hc (by simp), .inr ⟨?_, .inl ⟨rfl, hs⟩⟩⟩
    exact fails_char_iff.2 ⟨_, hc, by simp⟩
  | omitted =>
    cases hs.eq_of_nil
    have hh := hv rfl
    have hne {x : Char} (hx : startsRepetition x) : rest.head? ≠ some x := by
      intro h
      exact hh x h hx
    refine ⟨fails_boundedRepetition hd (hne (by decide)), .inr ⟨?_, .inr ⟨?_, rfl, rfl⟩⟩⟩
    · exact fails_char_iff.2 ⟨rest, hd, hne (by decide)⟩
    · exact fails_char_iff.2 ⟨rest, hd, hne (by decide)⟩
  | exactly _ => exact (hb rfl).elim
  | atLeast _ => exact (hb rfl).elim
  | between _ _ _ => exact (hb rfl).elim

end Grammar

end PatternGen
