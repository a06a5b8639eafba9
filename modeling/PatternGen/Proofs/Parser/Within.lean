import PatternGen.Proofs.Parser.BigStep
import PatternGen.Proofs.Parser.Success
import PatternGen.Proofs.Parser.Telling

namespace PatternGen

namespace Text

/-- The offset falls between two characters of the text or on one of its ends. -/
def IsBoundary (text : List Char) (n : Nat) : Prop := ∃ s rest, text = s ++ rest ∧ byteSize s = n

/-- The text can be cut at the offset, which is neither before `lo` nor past the end. -/
structure Within (text : List Char) (lo n : Nat) : Prop where
  lo_le : lo ≤ n
  le_size : n ≤ byteSize text
  boundary : IsBoundary text n

theorem IsBoundary.within (h : IsBoundary text n) (hlo : lo ≤ n) : Within text lo n := by
  refine ⟨hlo, ?_, h⟩
  obtain ⟨s, rest, rfl, rfl⟩ := h
  rw [byteSize_append]
  exact Nat.le_add_right _ _

end Text

open Text

/-- The place is one of the text, and what follows is the rest of the text. -/
structure Cursor.Within (text : List Char) (lo : Nat) (c : Cursor) : Prop where
  offset : Text.Within text lo c.offset
  eq_ofOffset : c = .ofOffset text c.offset

/-- All offsets are within the text, and no character has been split. -/
def Outcome.Within (text : List Char) (lo : Nat) : Outcome α → Prop
  | done _ d e => d.Within text lo ∧ ∀ f ∈ e, Text.Within text lo f.offset
  | failed f => Text.Within text lo f.offset
  | stuck fault => fault = .endless

namespace Cursor

variable {text : List Char} {lo : Nat} {c d : Cursor}

theorem within_iff :
    c.Within text lo ↔
      ∃ s rest, text = s ++ rest ∧ lo ≤ byteSize s ∧ c = ⟨byteSize s, some rest⟩ := by
  constructor
  · intro h
    obtain ⟨s, rest, rfl, hs⟩ := h.offset.boundary
    refine ⟨s, rest, rfl, hs ▸ h.offset.lo_le, ?_⟩
    rw [h.eq_ofOffset, ← hs, ofOffset, dropBytes_byteSize_append]
  · intro h
    obtain ⟨s, rest, rfl, hlo, rfl⟩ := h
    refine ⟨IsBoundary.within ⟨s, rest, rfl, rfl⟩ hlo, ?_⟩
    rw [ofOffset, dropBytes_byteSize_append]

theorem within_ofOffset (h : IsBoundary text n) : (ofOffset text n).Within text n :=
  ⟨h.within (Nat.le_refl n), rfl⟩

theorem size_ofOffset_le (h : IsBoundary text n) : (ofOffset text n).size ≤ byteSize text - n := by
  obtain ⟨s, rest, rfl, rfl⟩ := h
  have hle := length_le_byteSize rest
  rw [ofOffset, dropBytes_byteSize_append, byteSize_append, Nat.add_sub_cancel_left]
  exact hle

theorem Within.offset_lt_of_size_lt (hc : c.Within text lo) (hd : d.Within text lo)
    (h : d.size < c.size) : c.offset < d.offset := by
  obtain ⟨s, rest, rfl, -, rfl⟩ := within_iff.1 hc
  obtain ⟨s', rest', htext, -, rfl⟩ := within_iff.1 hd
  replace h : rest'.length < rest.length := h
  obtain ⟨t, rfl, rfl⟩ | ⟨t, rfl, rfl⟩ := List.append_eq_append_iff.1 htext
  · have hle := length_le_byteSize t
    rw [List.length_append] at h
    change byteSize s < byteSize (s ++ t)
    rw [byteSize_append]
    omega
  · rw [List.length_append] at h
    omega

theorem Within.readable (h : c.Within text lo) : ∃ rest, c.rest? = some rest := by
  obtain ⟨s, rest, -, -, rfl⟩ := within_iff.1 h
  exact ⟨rest, rfl⟩

theorem Within.advance (h : c.Within text lo) (n : Nat) : (c.advance n).Within text lo := by
  obtain ⟨s, rest, rfl, hlo, rfl⟩ := within_iff.1 h
  refine within_iff.2 ⟨s ++ rest.take n, rest.drop n, ?_, ?_, ?_⟩
  · rw [List.append_assoc, List.take_append_drop]
  · rw [byteSize_append]
    exact Nat.le_trans hlo (Nat.le_add_right _ _)
  · rw [Cursor.advance, byteSize_append]

end Cursor

namespace Failure

theorem merges_within (text : List Char) (lo : Nat) :
    Merges fun f => Text.Within text lo f.offset := by
  intro f g hf hg
  rw [offset_merge]
  rcases Nat.le_total f.offset g.offset with h | h
  · rwa [Nat.max_eq_right h]
  · rwa [Nat.max_eq_left h]

end Failure

theorem Outcome.Within.recalling {o : Outcome α} (h : o.Within text lo)
    (he : ∀ f ∈ e, Text.Within text lo f.offset) : (o.recalling e).Within text lo := by
  have hP := Failure.merges_within text lo
  cases o with
  | done a d x => exact ⟨h.1, hP.furthest he h.2⟩
  | failed f =>
    cases e with
    | none => exact h
    | some g => exact hP g f (he g rfl) h
  | stuck x => exact h

namespace Parser

def StaysWithin (text : List Char) (lo : Nat) (p : Parser α) : Prop :=
  ∀ c, c.Within text lo → (p c).Within text lo

variable {α β : Type} {text : List Char} {lo : Nat} {p q : Parser α} {c : Cursor}

theorem staysWithin_token (what : String) (scan : List Char → Option (α × Nat)) :
    (token what scan).StaysWithin text lo := by
  intro c hc
  obtain ⟨rest, hrest⟩ := hc.readable
  rw [token, hrest]
  dsimp only
  cases scan rest with
  | none => exact hc.offset
  | some r => exact ⟨hc.advance r.2, forall_mem_none _⟩

theorem staysWithin_success (a : α) : (success a).StaysWithin text lo := by
  intro c hc
  exact ⟨hc, forall_mem_none _⟩

theorem staysWithin_fail : (fail : Parser α).StaysWithin text lo := by
  intro c hc
  exact hc.offset

theorem staysWithin_endOfInput : endOfInput.StaysWithin text lo := by
  intro c hc
  rw [endOfInput]
  split
  · exact ⟨hc, forall_mem_none _⟩
  · exact hc.offset

theorem StaysWithin.of_eq {o : Outcome α} (hp : p.StaysWithin text lo) (hc : c.Within text lo)
    (h : p c = o) : o.Within text lo := h ▸ hp c hc

theorem StaysWithin.bind {f : α → Parser β} (hp : p.StaysWithin text lo)
    (hf : ∀ a, (f a).StaysWithin text lo) : (p.bind f).StaysWithin text lo := by
  intro c hc
  have h := hp c hc
  rw [Parser.bind]
  generalize p c = o at h ⊢
  cases o with
  | done a d e => exact (hf a d h.1).recalling h.2
  | failed f => exact h
  | stuck x => exact h

theorem StaysWithin.orElse (hp : p.StaysWithin text lo) (hq : q.StaysWithin text lo) :
    (p.orElse q).StaysWithin text lo := by
  intro c hc
  have h := hp c hc
  rw [Parser.orElse]
  generalize p c = o at h ⊢
  cases o with
  | done a d e => exact h
  | failed f =>
    apply (hq c hc).recalling
    rintro _ ⟨⟩
    exact h
  | stuck x => exact h

theorem within_firstOf {ps : List (Parser α)} (hps : ∀ p ∈ ps, p.StaysWithin text lo)
    (hc : c.Within text lo) {tried : Option Failure}
    (ht : ∀ f ∈ tried, Text.Within text lo f.offset) : (firstOf tried ps c).Within text lo := by
  induction ps generalizing tried with
  | nil =>
    cases tried with
    | none => exact hc.offset
    | some f => exact ht f rfl
  | cons p ps ih =>
    obtain ⟨hp, hps⟩ := List.forall_mem_cons.1 hps
    have h := hp c hc
    rw [firstOf]
    generalize p c = o at h ⊢
    cases o with
    | done a d e => exact h.recalling ht
    | failed f => exact ih hps ((Failure.merges_within text lo).some ht h)
    | stuck x => exact h

theorem staysWithin_oneOf {ps : List (Parser α)} (h : ∀ p ∈ ps, p.StaysWithin text lo) :
    (oneOf ps).StaysWithin text lo := by
  intro c hc
  exact within_firstOf h hc (forall_mem_none _)

theorem StaysWithin.filter (hp : p.StaysWithin text lo) (what : String) (keep : α → Bool) :
    (p.filter what keep).StaysWithin text lo := by
  intro c hc
  have h := hp c hc
  rw [Parser.filter]
  generalize p c = o at h ⊢
  cases o with
  | done a d e =>
    dsimp only
    split
    · exact h
    · exact hc.offset
  | failed f => exact h
  | stuck x => exact h

theorem StaysWithin.collect (hp : p.StaysWithin text lo) (hc : c.Within text lo)
    {values : List α} {e : Option Failure} (he : ∀ f ∈ e, Text.Within text lo f.offset) :
    (collect p values e c).Within text lo := by
  have hP := Failure.merges_within text lo
  fun_induction Parser.collect p values e c with
  | case1 values e c a d x hpc hd ih =>
    have h := hp.of_eq hc hpc
    exact ih h.1 (hP.furthest he h.2)
  | case2 values e c a d x hpc hd =>
    have h := hp.of_eq hc hpc
    exact ⟨h.1, hP.furthest he h.2⟩
  | case3 values e c f hpc =>
    have h := hp.of_eq hc hpc
    exact ⟨hc, hP.some he h⟩
  | case4 values e c x hpc => exact hp.of_eq hc hpc

theorem StaysWithin.many (hp : p.StaysWithin text lo) : (many p).StaysWithin text lo := by
  intro c hc
  exact hp.collect hc (forall_mem_none _)

theorem StaysWithin.atLeastOne (hp : p.StaysWithin text lo) :
    (atLeastOne p).StaysWithin text lo := by
  intro c hc
  have h := hp c hc
  rw [Parser.atLeastOne]
  generalize p c = o at h ⊢
  cases o with
  | done a d e => exact hp.collect h.1 h.2
  | failed f => exact h
  | stuck x => exact h

theorem StaysWithin.collectSeparated {q : Parser β} (hp : p.StaysWithin text lo)
    (hq : q.StaysWithin text lo) (hc : c.Within text lo) {values : List α} {e : Option Failure}
    (he : ∀ f ∈ e, Text.Within text lo f.offset) :
    (collectSeparated p q values e c).Within text lo := by
  have hP := Failure.merges_within text lo
  fun_induction Parser.collectSeparated p q values e c with
  | case1 values e c f hqc =>
    have h := hq.of_eq hc hqc
    exact ⟨hc, hP.some he h⟩
  | case2 values e c x hqc => exact hq.of_eq hc hqc
  | case3 values e c b d y hqc f hpd =>
    have h := hq.of_eq hc hqc
    have h' := hp.of_eq h.1 hpd
    exact ⟨hc, hP.some he h'⟩
  | case4 values e c b d y hqc x hpd =>
    have h := hq.of_eq hc hqc
    exact hp.of_eq h.1 hpd
  | case5 values e c b d y hqc a m x hpd hm ih =>
    have h := hq.of_eq hc hqc
    have h' := hp.of_eq h.1 hpd
    exact ih h'.1 (hP.furthest he (hP.furthest h.2 h'.2))
  | case6 values e c b d y hqc a m x hpd hm => rfl

theorem StaysWithin.separatedBy {q : Parser β} (hp : p.StaysWithin text lo)
    (hq : q.StaysWithin text lo) : (separatedBy p q).StaysWithin text lo := by
  intro c hc
  have h := hp c hc
  rw [Parser.separatedBy]
  generalize p c = o at h ⊢
  cases o with
  | done a d e => exact hp.collectSeparated hq h.1 h.2
  | failed f => exact h
  | stuck x => exact h

theorem staysWithin_recursive {define : Parser α → Parser α}
    (h : ∀ p, p.StaysWithin text lo → (define p).StaysWithin text lo) :
    StaysWithin text lo (recursive define) := by
  intro c hc
  induction hs : c.size using Nat.strongRecOn generalizing c with
  | _ k ih =>
    have hafter : (after (recursive define) c).StaysWithin text lo := by
      intro d hd
      rw [after]
      split
      · next hlt => exact ih d.size (hs ▸ hlt) d hd rfl
      · rfl
    rw [recursive_apply]
    exact h _ hafter c hc

end Parser

def Handles.StayWithin (text : List Char) (lo : Nat) (env : Handles Γ) : Prop :=
  ∀ α (x : Handle α Γ), (env α x).StaysWithin text lo

theorem Handles.stayWithin_none (text : List Char) (lo : Nat) : Handles.none.StayWithin text lo :=
  nofun

theorem Handles.StayWithin.push {env : Handles Γ} (h : env.StayWithin text lo) {p : Parser α}
    (hp : p.StaysWithin text lo) : (env.push p).StayWithin text lo := by
  intro β x
  cases x with
  | innermost => exact hp
  | outer x => exact h β x

namespace Peg

theorem staysWithin_denote (p : Peg Γ α) {env : Handles Γ} (h : env.StayWithin text lo) :
    (p.denote env).StaysWithin text lo := by
  induction p with
  | token what scan => exact Parser.staysWithin_token what scan
  | success a => exact Parser.staysWithin_success a
  | fail => exact Parser.staysWithin_fail
  | endOfInput => exact Parser.staysWithin_endOfInput
  | bind p f ihp ihf => exact (ihp h).bind fun a => ihf a h
  | orElse p q ihp ihq => exact (ihp h).orElse (ihq h)
  | choice n ps ih =>
    apply Parser.staysWithin_oneOf
    intro p hp
    obtain ⟨i, rfl⟩ := List.mem_ofFn.1 hp
    exact ih i h
  | filter what keep p ih => exact (ih h).filter what keep
  | many p ih => exact (ih h).many
  | atLeastOne p ih => exact (ih h).atLeastOne
  | separatedBy p q ihp ihq => exact (ihp h).separatedBy (ihq h)
  | recursive body ih =>
    apply Parser.staysWithin_recursive
    intro p hp
    exact ih (h.push hp)
  | ref x => exact h _ x

/-- Where an expression is run at a place, its run reads the text at another, perhaps in a part of
it whose failure is swept aside. -/
inductive Reads : {Γ : List Type} → {α : Type} → Bodies Γ → Peg Γ α → Cursor → Cursor → Prop where
  | token : Reads ρ (token what scan) c c
  | bind (h : Reads ρ p c d) : Reads ρ (bind p f) c d
  | bind_next (hp : Eval ρ p c (some (a, m))) (h : Reads ρ (f a) m d) : Reads ρ (bind p f) c d
  | orElse (h : Reads ρ p c d) : Reads ρ (orElse p q) c d
  | orElse_next (hp : Eval ρ p c none) (h : Reads ρ q c d) : Reads ρ (orElse p q) c d
  | choice {ps : Fin n → Peg Γ α} (i : Fin n) (hj : ∀ j < i, Eval ρ (ps j) c none)
      (h : Reads ρ (ps i) c d) :
    Reads ρ (choice n ps) c d
  | filter (h : Reads ρ p c d) : Reads ρ (filter what keep p) c d
  | many (h : Reads ρ p c d) : Reads ρ p.many c d
  | many_next (hp : Eval ρ p c (some (a, m))) (hm : m ≠ c) (h : Reads ρ p.many m d) :
    Reads ρ p.many c d
  | atLeastOne (h : Reads ρ p c d) : Reads ρ p.atLeastOne c d
  | atLeastOne_next (hp : Eval ρ p c (some (a, m))) (h : Reads ρ p.many m d) :
    Reads ρ p.atLeastOne c d
  | separatedBy (h : Reads ρ p c d) : Reads ρ (p.separatedBy q) c d
  | separatedBy_next (hp : Eval ρ p c (some (a, m))) (h : Reads ρ (q.ignoreThen p).many m d) :
    Reads ρ (p.separatedBy q) c d
  | recursive (h : Reads (.push body ρ) body c d) : Reads ρ (recursive body) c d
  | innermost (h : Reads (.push body ρ) body c d) : Reads (.push body ρ) (ref .innermost) c d
  | outer (h : Reads ρ (ref x) c d) : Reads (.push body ρ) (ref (.outer x)) c d

theorem Eval.within {ρ : Bodies Γ} {p : Peg Γ α} (h : Eval ρ p c r) (hc : c.Within text lo) :
    ∀ x ∈ r, x.2.Within text lo := by
  induction h with
  | token _ _ =>
    rintro _ ⟨⟩
    exact hc.advance _
  | success | endOfInput _ | many_stop _ =>
    rintro _ ⟨⟩
    exact hc
  | token_fail _ _ | fail | endOfInput_fail _ | bind_fail _ | choice_fail _ | filter_refuse _ _
  | filter_fail _ | atLeastOne_fail _ | separatedBy_fail _ => nofun
  | bind _ _ ih ihf => exact ihf (ih hc _ rfl)
  | orElse _ ih => exact ih hc
  | orElse_fail _ _ _ ihq => exact ihq hc
  | choice _ _ _ _ ih => exact ih hc
  | filter _ _ ih => exact ih hc
  | many_last _ ih =>
    rintro _ ⟨⟩
    exact hc
  | many_more _ _ _ ih ihs =>
    have hlast := ihs (ih hc _ rfl) _ rfl
    rintro _ ⟨⟩
    exact hlast
  | atLeastOne _ _ ih ihs =>
    have hlast := ihs (ih hc _ rfl) _ rfl
    rintro _ ⟨⟩
    exact hlast
  | separatedBy _ _ _ ih ihs _ =>
    have hlast := ihs (ih hc _ rfl) _ rfl
    rintro _ ⟨⟩
    exact hlast
  | recursive _ ih => exact ih hc
  | innermost _ ih => exact ih hc
  | outer _ ih => exact ih hc

theorem Reads.within {ρ : Bodies Γ} {p : Peg Γ α} (h : Reads ρ p c d) (hc : c.Within text lo) :
    d.Within text lo := by
  induction h with
  | token => exact hc
  | bind_next hp _ ih => exact ih (hp.within hc _ rfl)
  | many_next hp _ _ ih => exact ih (hp.within hc _ rfl)
  | atLeastOne_next hp _ ih => exact ih (hp.within hc _ rfl)
  | separatedBy_next hp _ ih => exact ih (hp.within hc _ rfl)
  | bind _ ih | orElse _ ih | orElse_next _ _ ih | choice _ _ _ ih | filter _ ih | many _ ih
  | atLeastOne _ ih | separatedBy _ ih | recursive _ ih | innermost _ ih | outer _ ih => exact ih hc

/-- Begun between two characters, an expression reads, stops and fails between two characters from
there on, and never past the end of the text. -/
theorem parseAt_within (p : Peg [] α) (h : IsBoundary text offset) :
    (p.parser.parseAt text offset).Within text offset ∧
      ∀ d, Reads .none p (.ofOffset text offset) d → d.Within text offset := by
  have hc := Cursor.within_ofOffset h
  constructor
  · exact p.staysWithin_denote nofun _ hc
  · intro d hd
    exact hd.within hc

/-- Letters of two bytes each, from the second character of the text on. -/
theorem parseAt_within_list :
    let p : Peg [] (List Char) := (char 'é').separatedBy (char ',')
    let text := "xé,é,ü".toList
    IsBoundary text 1 ∧ (p.parser.parseAt text 1).Within text 1 ∧
      ∀ d, Reads .none p (.ofOffset text 1) d → d.Within text 1 := by
  intro p text
  have h : IsBoundary text 1 := ⟨['x'], "é,é,ü".toList, rfl, rfl⟩
  exact ⟨h, parseAt_within p h⟩

end Peg

end PatternGen
