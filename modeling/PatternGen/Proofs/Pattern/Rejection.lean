import PatternGen.Proofs.Pattern.ClassReading
import PatternGen.Proofs.Pattern.ContextFree

namespace PatternGen

open Text PatternGen.Parser

def Text.value (digits : List Char) : Nat := Nat.ofDigitChars 10 digits 0

def Text.IsDigits (cs : List Char) : Prop := cs ≠ [] ∧ ∀ x ∈ cs, x.isDigit

/-- Bounds in braces that no repetition has: a number does not fit into 32 bits, or the upper bound
is below the lower one. -/
inductive RefusedBounds : List Char → Prop where
  | exactly (hl : IsDigits low) (h : UInt32.size ≤ value low) :
    RefusedBounds ('\x7b' :: (low ++ ['\x7d']))
  | atLeast (hl : IsDigits low) (h : UInt32.size ≤ value low) :
    RefusedBounds ('\x7b' :: (low ++ [',', '\x7d']))
  | between (hl : IsDigits low) (hh : IsDigits high)
      (h : UInt32.size ≤ value low ∨ UInt32.size ≤ value high ∨ value high < value low) :
    RefusedBounds ('\x7b' :: (low ++ ',' :: (high ++ ['\x7d'])))

namespace Pattern

/-- A pattern begins with the text. -/
def Extendable (w : List Char) : Prop := ∃ v p, Pattern.parse (String.ofList (w ++ v)) = .ok p

/-- What an error after the text `w` says: that `w` could have gone on otherwise, or that it ends in
bounds that are refused. -/
def Accounts (w : List Char) (expected : List String) : Prop :=
  expected ≠ [] ∧ Extendable w ∨
    expected = [] ∧ ∃ u m, w = u ++ m ∧ Extendable u ∧ RefusedBounds m

/-- The failure stands after some beginning of the text, and says why. -/
def Located (text : List Char) (f : Failure) : Prop :=
  ∃ w rest, text = w ++ rest ∧ f.offset = byteSize w ∧ Accounts w f.expected.items

theorem extendable_iff : Extendable w ↔ ∃ v, Derives .pattern (w ++ v) := by
  simp only [Extendable, parse_eq_ok_iff, String.toList_ofList]
  apply exists_congr
  intro v
  constructor
  · intro h
    obtain ⟨p, hp⟩ := h
    exact SpellsBranches.derives hp
  · intro h
    exact spelled_of_derives h

theorem Extendable.of_append (h : Extendable (u ++ v)) : Extendable u := by
  obtain ⟨w, p, h⟩ := h
  rw [List.append_assoc] at h
  exact ⟨v ++ w, p, h⟩

/-- After the text, all that the nonterminal derives can stand in a pattern. -/
def Awaits (n : Nonterminal) (u : List Char) : Prop := ∀ s, Derives n s → Extendable (u ++ s)

theorem awaits_pattern_nil : Awaits .pattern [] := by
  intro s hs
  refine extendable_iff.2 ⟨[], ?_⟩
  rw [List.append_nil]
  exact hs

theorem exists_derives (n : Nonterminal) : ∃ s, Derives n s := by
  have hterm : Derives .term ['[', ']'] := .charClass (List.forall_mem_nil _)
  have hpiece : Derives .piece ['[', ']'] := .piece hterm .once
  cases n with
  | pattern => exact ⟨_, .lastBranch (.lastPiece hpiece)⟩
  | branch => exact ⟨_, .lastPiece hpiece⟩
  | piece => exact ⟨_, hpiece⟩
  | term => exact ⟨_, hterm⟩
  | repetition => exact ⟨_, .once⟩

theorem Awaits.extendable (h : Awaits n u) : Extendable u := by
  obtain ⟨s, hs⟩ := exists_derives n
  exact (h s hs).of_append

theorem Awaits.branch (h : Awaits .pattern u) : Awaits .branch u := fun s hs => h s (.lastBranch hs)

theorem Awaits.piece (h : Awaits .branch u) : Awaits .piece u := fun s hs => h s (.lastPiece hs)

theorem Awaits.term (h : Awaits .piece u) : Awaits .term u := by
  intro s hs
  have hpiece := h _ (.piece hs .once)
  rwa [List.append_nil] at hpiece

theorem Awaits.repetition (h : Awaits .piece u) (hs : Derives .term s) :
    Awaits .repetition (u ++ s) := by
  intro v hv
  rw [List.append_assoc]
  exact h _ (.piece hs hv)

theorem Awaits.further_pieces (h : Awaits .branch u) (hs : Derives .piece s) :
    Awaits .branch (u ++ s) := by
  intro v hv
  rw [List.append_assoc]
  exact h _ (.pieces hs hv)

theorem Awaits.further_branches (h : Awaits .pattern u) (hs : Derives .branch s) :
    Awaits .pattern (u ++ s ++ ['|']) := by
  intro v hv
  rw [List.append_assoc, List.append_assoc]
  exact h _ (.branches hs hv)

theorem Awaits.group (h : Awaits .term u) : Awaits .pattern (u ++ ['(']) := by
  intro s hs
  have hgroup := h _ (.group hs)
  rw [List.append_cons, ← List.append_assoc] at hgroup
  exact hgroup.of_append

/-- After the text, all characters that stay in a class can stand in a pattern. -/
def OpensClass (u : List Char) : Prop :=
  ∀ s, (∀ x ∈ s, Grammar.staysInClass x) → Extendable (u ++ s)

theorem Awaits.opensClass (h : Awaits .term u) : OpensClass (u ++ ['[']) := by
  intro s hs
  have hclass := h _ (.charClass fun x hx => staysInClass_iff.1 (hs x hx))
  rw [List.append_cons, ← List.append_assoc] at hclass
  exact hclass.of_append

theorem OpensClass.extendable (h : OpensClass u) : Extendable u := by
  have hnil := h [] nofun
  rwa [List.append_nil] at hnil

theorem OpensClass.append (h : OpensClass u) (hs : ∀ x ∈ s, Grammar.staysInClass x) :
    OpensClass (u ++ s) := by
  intro v hv
  rw [List.append_assoc]
  exact h _ (List.forall_mem_append.2 ⟨hs, hv⟩)

theorem SpellsPiece.derives {p : Piece} (h : SpellsPiece p s) : Derives .piece s := by
  obtain ⟨t, r⟩ := p
  rw [SpellsPiece] at h
  obtain ⟨u, v, ht, hr, rfl⟩ := h
  exact .piece (SpellsTerm.derives ht) hr.derives

theorem eq_of_byteSize_eq {u v rest rest' : List Char} (h : u ++ rest = v ++ rest')
    (hs : byteSize u = byteSize v) : u = v := by
  have hu := dropBytes_byteSize_append u rest
  rw [h, hs, dropBytes_byteSize_append] at hu
  cases hu
  exact List.append_cancel_right h

theorem Accounts.union {d e : Expectations} (hd : Accounts w d.items) (he : Accounts w e.items) :
    Accounts w (d.union e).items := by
  have hne {s : String} (hs : s ∈ d.union e) : (d.union e).items ≠ [] := List.ne_nil_of_mem hs
  rcases hd with ⟨hd, hw⟩ | ⟨hd, hw⟩
  · obtain ⟨s, hs⟩ := List.exists_mem_of_ne_nil _ hd
    exact .inl ⟨hne (Expectations.mem_union.2 (.inl hs)), hw⟩
  · rcases he with ⟨he, hw'⟩ | ⟨he, -⟩
    · obtain ⟨s, hs⟩ := List.exists_mem_of_ne_nil _ he
      exact .inl ⟨hne (Expectations.mem_union.2 (.inr hs)), hw'⟩
    · rw [Expectations.union, he]
      exact .inr ⟨hd, hw⟩

theorem merges_located (text : List Char) : Failure.Merges (Located text) := by
  intro f g hf hg
  rw [Failure.merge]
  split
  · exact hf
  · split
    · exact hg
    · next hgf hfg =>
      obtain ⟨u, rest, hu, huo, hf⟩ := hf
      obtain ⟨v, rest', hv, hvo, hg⟩ := hg
      obtain rfl := eq_of_byteSize_eq (hu.symm.trans hv) (by omega)
      exact ⟨u, rest, hu, huo, hf.union hg⟩

variable {text u : List Char} {c : Cursor}

theorem located_of_spans (hu : (Cursor.start text).Spans u c) {f : Failure}
    (ho : f.offset = c.offset) (h : Accounts u f.expected.items) : Located text f := by
  obtain ⟨rest, htext, rfl⟩ := hu
  refine ⟨u, rest, Option.some.inj htext, ?_, h⟩
  rw [ho]
  exact Nat.zero_add _

theorem tells_of_spans (hu : (Cursor.start text).Spans u c) (h : Extendable u) :
    c.Tells (Located text) where
  readable := hu.exists_rest
  expecting what := located_of_spans hu rfl (.inl ⟨List.cons_ne_nil what [], h⟩)

end Pattern

namespace Grammar

open Peg Pattern

variable {Γ : List Type} {env : Handles Γ} {text u : List Char} {c d : Cursor}

def InClass (text : List Char) (d : Cursor) : Prop :=
  ∃ w, (Cursor.start text).Spans w d ∧ OpensClass w

theorem InClass.after (h : InClass text c) (hs : ∀ x ∈ s, staysInClass x) (hspan : c.Spans s d) :
    InClass text d := by
  obtain ⟨w, hw, hopen⟩ := h
  exact ⟨w ++ s, hw.trans hspan, hopen.append hs⟩

theorem openPlaces_inClass (text : List Char) : OpenPlaces (Located text) (InClass text) where
  tells h := by
    obtain ⟨w, hw, hopen⟩ := h
    exact tells_of_spans hw hopen.extendable
  after h hx hspan := h.after (List.forall_mem_singleton.2 hx) hspan

theorem tells_charClass (hu : (Cursor.start text).Spans u c) (h : Awaits .term u) :
    (charClass.denote env c).Tells (Located text) := by
  have hP := merges_located text
  have hI := openPlaces_inClass text
  have hopen {x d} (hx : ((char '[').denote env).Gives c x d) : InClass text d := by
    obtain ⟨-, hspan⟩ := gives_char_iff.1 hx
    exact ⟨_, hu.trans hspan, h.opensClass⟩
  apply tells_thenIgnore hP
  · apply tells_ignoreThen hP (tells_char (tells_of_spans hu h.extendable) _)
    intro x d hx
    exact hI.tells_classBody hP (hopen hx)
  · intro k d hk
    obtain ⟨x, m, hx, hk⟩ := gives_ignoreThen_iff.1 hk
    obtain ⟨body, rest, -, hb, hspan, -, -⟩ := gives_classBody_iff.1 hk
    exact tells_char (hI.tells ((hopen hx).after hb hspan)) _

theorem count?_eq_none (h : IsDigits ds) (hn : count? ds = none) : UInt32.size ≤ value ds := by
  apply Nat.le_of_not_lt
  intro hlt
  obtain ⟨k, hk, -⟩ := IsNumeral.count? ⟨h.1, h.2, rfl, hlt⟩
  cases hn.symm.trans hk

theorem value_of_count? {n : UInt32} (h : count? ds = some n) : value ds = n.toNat :=
  (isNumeral_of_count? h).2.2.1

/-- Bounds that are read and refused. -/
theorem Braces.refused (h : Braces digits v)
    (hr : ∀ r, repetitionOf? digits = some r → ¬ r.isValid) : RefusedBounds v := by
  cases h with
  | @one low hne hl =>
    apply RefusedBounds.exactly ⟨hne, hl⟩
    apply count?_eq_none ⟨hne, hl⟩
    cases hn : count? low with
    | none => rfl
    | some n =>
      have hvalid : (Repetition.exactly n).isValid := decide_eq_true (UInt32.le_refl n)
      exact (hr _ (by rw [repetitionOf?, hn]; rfl) hvalid).elim
  | @two low high hne hl hh =>
    cases high with
    | nil =>
      apply RefusedBounds.atLeast ⟨hne, hl⟩
      apply count?_eq_none ⟨hne, hl⟩
      cases hn : count? low with
      | none => rfl
      | some n => exact (hr (.atLeast n) (by rw [repetitionOf?, hn]; rfl) rfl).elim
    | cons x high =>
      have hhigh : IsDigits (x :: high) := ⟨List.cons_ne_nil x high, hh⟩
      apply RefusedBounds.between ⟨hne, hl⟩ hhigh
      cases hn : count? low with
      | none => exact .inl (count?_eq_none ⟨hne, hl⟩ hn)
      | some n =>
        cases hm : count? (x :: high) with
        | none => exact .inr (.inl (count?_eq_none hhigh hm))
        | some m =>
          refine .inr (.inr ?_)
          rw [value_of_count? hn, value_of_count? hm]
          have hinvalid := hr (.between n m) (by simp [repetitionOf?, hn, hm])
          have hle : ¬ n ≤ m := fun hle => hinvalid (decide_eq_true hle)
          exact UInt32.lt_iff_toNat_lt.1 (UInt32.not_le.1 hle)

theorem tells_boundedRepetition (hu : (Cursor.start text).Spans u c) (h : Extendable u) :
    (boundedRepetition.denote env c).Tells (Located text) := by
  apply tells_bind (merges_located text) (tells_token (tells_of_spans hu h) _ _)
  intro digits d hd
  rw [gives_token_iff] at hd
  obtain ⟨rest, n, hc, hscan, rfl⟩ := hd
  obtain ⟨v, rest, rfl, rfl, hb⟩ := braces_of_scanBounds hscan
  have hspan := hu.trans (Cursor.spans_advance hc)
  have hfail (hr : ∀ r, repetitionOf? digits = some r → ¬ r.isValid) :
      Located text (.unexplained (c.advance v.length).offset) :=
    located_of_spans hspan rfl (.inr ⟨rfl, u, v, rfl, h, hb.refused hr⟩)
  dsimp only
  split
  · next r hr =>
    split
    · exact tells_success _ _
    · next hv =>
      apply tells_fail
      apply hfail
      rw [hr]
      rintro _ ⟨⟩
      exact hv
  · next hr =>
    apply tells_fail
    apply hfail
    rw [hr]
    exact nofun

theorem tells_repetition (hu : (Cursor.start text).Spans u c) (h : Extendable u) :
    (repetition.denote env c).Tells (Located text) := by
  have hP := merges_located text
  have hc := tells_of_spans hu h
  rw [repetition, denote_oneOf]
  apply tells_oneOf hP (List.cons_ne_nil _ _)
  simp only [List.map_cons, List.map_nil, List.forall_mem_cons]
  refine ⟨tells_boundedRepetition hu h, ?_, ?_, ?_, List.forall_mem_nil _⟩
  · exact tells_map hP (tells_char hc _)
  · exact tells_map hP (tells_char hc _)
  · exact tells_success _ _

/-- A place where a piece of a branch could begin. -/
def InBranch (text : List Char) (n : Nat) (d : Cursor) : Prop :=
  ∃ w, (Cursor.start text).Spans w d ∧ Awaits .branch w ∧ d.size ≤ n

/-- A place after a branch, where a bar could stand. -/
def AfterBranch (text : List Char) (n : Nat) (d : Cursor) : Prop :=
  ∃ w s, (Cursor.start text).Spans (w ++ s) d ∧ Awaits .pattern w ∧ Derives .branch s ∧ d.size ≤ n

theorem AfterBranch.extendable (h : AfterBranch text n d) :
    ∃ w, (Cursor.start text).Spans w d ∧ Extendable w := by
  obtain ⟨w, s, hw, hp, hs, -⟩ := h
  exact ⟨w ++ s, hw, hp s (.lastBranch hs)⟩

theorem AfterBranch.bar (h : AfterBranch text n c) (hx : ((char '|').denote env).Gives c x d) :
    ∃ w, (Cursor.start text).Spans w d ∧ Awaits .pattern w ∧ d.size < c.size ∧ c.size ≤ n := by
  obtain ⟨w, s, hw, hp, hs, hn⟩ := h
  obtain ⟨-, hbar⟩ := gives_char_iff.1 hx
  exact ⟨_, hw.trans hbar, hp.further_branches hs, hbar.size_lt (List.cons_ne_nil _ _), hn⟩

section Nested

variable {inner : Peg Γ Pattern} {n : Nat}
  (hgives : ∀ {d q e}, (inner.denote env).Gives d q e → ∃ s, d.Spans s e ∧ q.Spells s)
  (htells : ∀ {w d}, (Cursor.start text).Spans w d → Awaits .pattern w → d.size < n →
    (inner.denote env d).Tells (Located text))

include hgives htells

theorem tells_group (hu : (Cursor.start text).Spans u c) (h : Awaits .term u) (hn : c.size ≤ n) :
    ((group inner).denote env c).Tells (Located text) := by
  have hP := merges_located text
  apply tells_thenIgnore hP
  · apply tells_ignoreThen hP (tells_char (tells_of_spans hu h.extendable) _)
    intro x d hx
    obtain ⟨-, hs⟩ := gives_char_iff.1 hx
    have hsize := hs.size_lt (List.cons_ne_nil _ _)
    exact htells (hu.trans hs) h.group (Nat.lt_of_lt_of_le hsize hn)
  · intro p d hp
    obtain ⟨x, m, hx, hp⟩ := gives_ignoreThen_iff.1 hp
    obtain ⟨-, hs⟩ := gives_char_iff.1 hx
    obtain ⟨s, hs', hp⟩ := hgives hp
    have hext := h.group s (SpellsBranches.derives hp)
    exact tells_char (tells_of_spans ((hu.trans hs).trans hs') hext) _

theorem tells_term (hu : (Cursor.start text).Spans u c) (h : Awaits .term u) (hn : c.size ≤ n) :
    ((term inner).denote env c).Tells (Located text) := by
  have hP := merges_located text
  rw [term, denote_oneOf]
  apply tells_oneOf hP (List.cons_ne_nil _ _)
  simp only [List.map_cons, List.map_nil, List.forall_mem_cons]
  refine ⟨?_, ?_, ?_, List.forall_mem_nil _⟩
  · exact tells_map hP (tells_charClass hu h)
  · exact tells_map hP (tells_map hP (tells_run (tells_of_spans hu h.extendable) _ _))
  · exact tells_map hP (tells_group hgives htells hu h hn)

theorem tells_piece (hu : (Cursor.start text).Spans u c) (h : Awaits .piece u) (hn : c.size ≤ n) :
    ((piece inner).denote env c).Tells (Located text) := by
  apply tells_zip (merges_located text) (tells_term hgives htells hu h.term hn)
  intro t d ht
  obtain ⟨s, ht, hs, -⟩ := spells_of_gives_term hgives ht
  exact tells_repetition (hu.trans hs) (h.repetition (SpellsTerm.derives ht)).extendable

theorem tells_branch (hu : (Cursor.start text).Spans u c) (h : Awaits .branch u)
    (hn : c.size ≤ n) : ((branch inner).denote env c).Tells (Located text) := by
  rw [branch, denote_atLeastOne]
  apply tells_atLeastOne (I := InBranch text n) (merges_located text)
  · intro d hd
    obtain ⟨w, hw, hb, hn⟩ := hd
    exact tells_piece hgives htells hw hb.piece hn
  · intro d p e hd hp
    obtain ⟨w, hw, hb, hn⟩ := hd
    obtain ⟨s, hp, hs, -⟩ := spells_of_gives_piece hgives hp
    exact ⟨w ++ s, hw.trans hs, hb.further_pieces hp.derives, Nat.le_trans hs.size_le hn⟩
  · exact ⟨u, hu, h, hn⟩

omit htells in
theorem afterBranch_of_gives {b : Branch} (hu : (Cursor.start text).Spans u c)
    (h : Awaits .pattern u) (hb : ((branch inner).denote env).Gives c b d) (hn : c.size ≤ n) :
    AfterBranch text n d ∧ d.size ≤ c.size := by
  obtain ⟨s, hne, hs, hspan⟩ := spells_of_gives_branch hgives hb
  have hsize := hspan.size_le
  exact ⟨⟨u, s, hu.trans hspan, h, SpellsPieces.derives hne hs, Nat.le_trans hsize hn⟩, hsize⟩

theorem tells_branches (hu : (Cursor.start text).Spans u c) (h : Awaits .pattern u)
    (hn : c.size ≤ n) :
    (((branch inner).separatedBy (char '|')).denote env c).Tells (Located text) := by
  rw [denote_separatedBy]
  apply tells_separatedBy (I := AfterBranch text n) (merges_located text)
  · exact tells_branch hgives htells hu h.branch hn
  · intro b d hb
    exact (afterBranch_of_gives hgives hu h hb hn).1
  · intro d hd
    obtain ⟨w, hw, hext⟩ := hd.extendable
    exact tells_char (tells_of_spans hw hext) _
  · intro a x d ha hx
    obtain ⟨w, hw, hp, hlt, hn⟩ := ha.bar hx
    exact tells_branch hgives htells hw hp.branch (by omega)
  · intro a x d b e ha hx hb
    obtain ⟨w, hw, hp, hlt, hn⟩ := ha.bar hx
    have hsize : d.size ≤ n := by omega
    obtain ⟨hnext, hle⟩ := afterBranch_of_gives hgives hw hp hb hsize
    exact ⟨hnext, Nat.lt_of_le_of_lt hle hlt⟩

end Nested

theorem tells_alternatives (hu : (Cursor.start text).Spans u c) (h : Awaits .pattern u) :
    (alternatives.denote env c).Tells (Located text) := by
  induction hn : c.size using Nat.strongRecOn generalizing u c with
  | ind n ih =>
    rw [alternatives, denote_recursive, recursive_apply]
    apply tells_branches _ _ hu h (Nat.le_of_eq hn)
    · intro d q e hq
      obtain ⟨-, hq⟩ : _ ∧ (alternatives.denote env).Gives d q e := gives_after_iff.1 hq
      exact spells_of_gives_alternatives hq
    · intro w d hw hp hd
      have hlt : d.size < c.size := hn ▸ hd
      have hafter : after (alternatives.denote env) c d = alternatives.denote env d := if_pos hlt
      change (after (alternatives.denote env) c d).Tells (Located text)
      rw [hafter]
      exact ih d.size hd hw hp rfl

end Grammar

namespace Pattern

theorem exists_located_of_parse_eq_error (h : Pattern.parse text = .error e) :
    ∃ f, Located text.toList f ∧ e = .ofFailure text f := by
  have hstart : (Cursor.start text.toList).Spans [] (.start text.toList) := Cursor.spans_nil rfl
  have htells : ((Grammar.alternatives.thenIgnore .endOfInput).denote .none
      (.start text.toList)).Tells (Located text.toList) := by
    apply Peg.tells_thenIgnore (merges_located _)
    · exact Grammar.tells_alternatives hstart awaits_pattern_nil
    · intro p d hp
      obtain ⟨s, hs, hp⟩ := Grammar.spells_of_gives_alternatives hp
      have hext := awaits_pattern_nil s (SpellsBranches.derives hp)
      exact tells_endOfInput (tells_of_spans (hstart.trans hs) hext)
  rw [Pattern.parse, readWhole, Parser.parse, Parser.parseAt, Cursor.ofOffset_zero,
    Peg.parser] at h
  split at h
  · cases h
  · next f hf =>
    rw [hf] at htells
    cases h
    exact ⟨f, htells, rfl⟩
  · next x hx =>
    rw [hx] at htells
    exact htells.elim

/-- The error of a text that is no pattern stands after some beginning of the text. If it expects
anything, this beginning could have gone on as a pattern; otherwise it ends in bounds that are
refused, and what is before them could have gone on. -/
theorem parse_error_accounts (h : Pattern.parse text = .error e) :
    ∃ w rest, text.toList = w ++ rest ∧ e.offset = byteSize w ∧
      e.position = .ofOffset text.toList e.offset ∧ e.expected.Pairwise (· < ·) ∧
        (e.expected ≠ [] ∧ Extendable w ∨
          e.expected = [] ∧ ∃ u m, w = u ++ m ∧ Extendable u ∧ RefusedBounds m) := by
  obtain ⟨f, ⟨w, rest, htext, ho, hw⟩, rfl⟩ := exists_located_of_parse_eq_error h
  exact ⟨w, rest, htext, ho, rfl, f.expected.ascending, hw⟩

/-- Bounds in the wrong order, in a group that is still open. -/
theorem parse_error_accounts_descending :
    let text := "x|(y\x7b4,2\x7d"
    let e : PatternError := ⟨text, 9, ⟨1, 10⟩, []⟩
    Pattern.parse text = .error e ∧ ∃ w rest, text.toList = w ++ rest ∧ e.offset = byteSize w ∧
      e.position = .ofOffset text.toList e.offset ∧ e.expected.Pairwise (· < ·) ∧
        (e.expected ≠ [] ∧ Extendable w ∨
          e.expected = [] ∧ ∃ u m, w = u ++ m ∧ Extendable u ∧ RefusedBounds m) := by
  intro text e
  have herror : (match Pattern.parse text with
      | .ok _ => none
      | .error e => some e) = some e := by decide +kernel
  have h : Pattern.parse text = .error e := by
    split at herror
    · cases herror
    · next e' he =>
      cases herror
      exact he
  exact ⟨h, parse_error_accounts h⟩

end Pattern

end PatternGen
