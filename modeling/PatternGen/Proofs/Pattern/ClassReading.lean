import PatternGen.Proofs.Parser.Telling
import PatternGen.Proofs.Pattern.Reading

namespace PatternGen

open Text PatternGen.Parser

theorem Failure.merges_offset_le (n : Nat) : Failure.Merges fun f => f.offset ≤ n := by
  intro f g hf hg
  rw [Failure.offset_merge]
  exact Nat.max_le.2 ⟨hf, hg⟩

namespace Parser

variable {α β : Type} {p : Parser α} {f : α → Parser β} {c d : Cursor}

def FailsFrom (p : Parser α) (n : Nat) (c : Cursor) : Prop := ∃ e, p c = .failed e ∧ n ≤ e.offset

theorem FailsFrom.bind (h : p.FailsFrom n c) (f : α → Parser β) : (bind p f).FailsFrom n c := by
  obtain ⟨e, hc, hn⟩ := h
  exact ⟨e, by rw [Parser.bind, hc], hn⟩

theorem Gives.failsFrom_bind (h : p.Gives c a d) (hf : (f a).FailsFrom n d) :
    (bind p f).FailsFrom n c := by
  obtain ⟨x, hc⟩ := h
  obtain ⟨e, hd, hn⟩ := hf
  refine ⟨x.elim e (·.merge e), by rw [Parser.bind, hc]; dsimp only; rw [hd]; rfl, ?_⟩
  cases x with
  | none => exact hn
  | some y =>
    change n ≤ (y.merge e).offset
    rw [Failure.offset_merge]
    exact Nat.le_trans hn (Nat.le_max_right _ _)

theorem failsFrom_endOfInput (h : c.rest? ≠ some []) : endOfInput.FailsFrom c.offset c :=
  ⟨_, if_neg h, Nat.le_refl _⟩

end Parser

theorem Peg.failsFrom_thenIgnore {Γ : List Type} {α β : Type} {env : Handles Γ} {p : Peg Γ α}
    {q : Peg Γ β} {a : α} {c d : Cursor} (h : (p.denote env).Gives c a d)
    (hq : (q.denote env).FailsFrom n d) : ((p.thenIgnore q).denote env).FailsFrom n c :=
  (h.failsFrom_bind (hq.bind _)).bind _

namespace Grammar

open Peg

variable {Γ : List Type} {env : Handles Γ} {P : Failure → Prop} {I : Cursor → Prop} {c d : Cursor}
  {body rest : List Char}

/-- Places in a class that is still open: a character that stays in the class leads from each of
them to another one. -/
structure OpenPlaces (P : Failure → Prop) (I : Cursor → Prop) : Prop where
  tells : ∀ {c}, I c → c.Tells P
  after : ∀ {c d x}, I c → staysInClass x → c.Spans [x] d → I d

namespace OpenPlaces

variable (hI : OpenPlaces P I)

include hI

theorem after_classChar (h : I c) (hx : (classChar.denote env).Gives c x d) : I d := by
  obtain ⟨hx, hspan⟩ := gives_classChar_iff.1 hx
  exact hI.after h hx hspan

theorem after_first (h : I c) (hx : ((classChar.thenIgnore (char '-')).denote env).Gives c x d) :
    I d := by
  obtain ⟨_, m, hx, hdash⟩ := gives_thenIgnore_iff.1 hx
  obtain ⟨-, hdash⟩ := gives_char_iff.1 hdash
  exact hI.after (hI.after_classChar h hx) (by decide) hdash

theorem after_item (h : I c) (he : ((range.orElse single).denote env).Gives c e d) : I d := by
  rw [denote_orElse, gives_orElse_iff] at he
  rcases he with he | ⟨-, he⟩
  · obtain ⟨_, he, -⟩ := gives_map_iff.1 he
    rw [denote_filter, gives_filter_iff] at he
    obtain ⟨m, hx, hy⟩ := gives_zip_iff.1 he.1
    exact hI.after_classChar (hI.after_first h hx) hy
  · obtain ⟨x, hx, -⟩ := gives_map_iff.1 he
    exact hI.after_classChar h hx

theorem tells_classChar (h : I c) : (classChar.denote env c).Tells P :=
  tells_filter (hI.tells h) (tells_anyChar (hI.tells h))

variable (hP : Failure.Merges P)

include hP

theorem tells_range (h : I c) : (range.denote env c).Tells P := by
  apply tells_map hP
  apply tells_filter (hI.tells h)
  apply tells_zip hP
  · apply tells_thenIgnore hP (hI.tells_classChar h)
    intro x d hx
    exact tells_char (hI.tells (hI.after_classChar h hx)) _
  · intro x d hx
    exact hI.tells_classChar (hI.after_first h hx)

theorem tells_items (h : I c) : ((range.orElse single).many.denote env c).Tells P := by
  apply tells_many (I := I) hP
  · intro d hd
    exact tells_orElse hP (hI.tells_range hP hd) (tells_map hP (hI.tells_classChar hd))
  · intro d e m hd he
    exact hI.after_item hd he
  · exact h

theorem tells_classBody (h : I c) : (classBody.denote env c).Tells P := by
  apply tells_map hP
  apply tells_zip hP
  · exact tells_optional hP (tells_char (hI.tells h) _)
  · intro caret d hcaret
    rcases gives_optional_iff.1 hcaret with ⟨x, hx, -⟩ | ⟨-, -, rfl⟩
    · obtain ⟨-, hspan⟩ := gives_char_iff.1 hx
      exact hI.tells_items hP (hI.after h (by decide) hspan)
    · exact hI.tells_items hP h

end OpenPlaces

/-- The next closing bracket, or the end of the text, is not beyond the offset. -/
def ClosesWithin (n : Nat) (c : Cursor) : Prop :=
  ∃ rest, c.rest? = some rest ∧ c.offset + byteSize (rest.takeWhile staysInClass) ≤ n

theorem openPlaces_closesWithin (n : Nat) :
    OpenPlaces (fun f => f.offset ≤ n) (ClosesWithin n) where
  tells h := by
    obtain ⟨rest, hc, hn⟩ := h
    exact ⟨⟨rest, hc⟩, fun what => Nat.le_trans (Nat.le_add_right _ _) hn⟩
  after h hx hspan := by
    obtain ⟨cs, hc, hn⟩ := h
    obtain ⟨rest, hc', rfl⟩ := hspan
    cases hc.symm.trans hc'
    refine ⟨rest, rfl, ?_⟩
    rw [List.singleton_append, List.takeWhile_cons_of_pos hx, byteSize_cons] at hn
    rw [Nat.add_assoc]
    exact hn

/-- A class that ends in the text fails to go on to the end of the text, right where it ends. -/
theorem exists_failed_at_bracket (hb : ∀ x ∈ body, staysInClass x) (h : c.Spans body d)
    (hd : d.rest? = some (']' :: rest)) :
    ∃ f, (classBody.thenIgnore .endOfInput).denote env c = .failed f ∧ f.offset = d.offset := by
  have hhalts : Halts staysInClass (']' :: rest) := halts_cons_iff.2 (by decide)
  have hgives : (classBody.denote env).Gives c _ d := gives_classBody hb h hd hhalts
  have hc : ClosesWithin d.offset c := by
    refine ⟨_, h.rest?_eq hd, Nat.le_of_eq ?_⟩
    rw [hhalts.takeWhile_append hb, h.offset_eq]
  have hclose : ClosesWithin d.offset d := by
    refine ⟨_, hd, Nat.le_of_eq ?_⟩
    rw [List.takeWhile_cons_of_neg (by decide), byteSize_nil, Nat.add_zero]
  have hI := openPlaces_closesWithin d.offset
  have hP := Failure.merges_offset_le d.offset
  have htells : ((classBody.thenIgnore .endOfInput).denote env c).Tells (·.offset ≤ d.offset) := by
    apply tells_thenIgnore hP (hI.tells_classBody hP hc)
    intro k m hk
    obtain ⟨-, rfl⟩ := hk.unique hgives
    exact tells_endOfInput (hI.tells hclose)
  have hend : (Peg.endOfInput.denote env).FailsFrom d.offset d := by
    apply failsFrom_endOfInput
    rw [hd]
    exact nofun
  obtain ⟨f, hf, hle⟩ := Peg.failsFrom_thenIgnore hgives hend
  rw [hf] at htells
  exact ⟨f, hf, Nat.le_antisymm htells hle⟩

end Grammar

theorem readWhole_eq_error {p : Peg [] α} {text : String}
    (h : (p.thenIgnore .endOfInput).denote .none (.start text.toList) = .failed f) :
    readWhole p text = .error (.ofFailure text f) := by
  rw [readWhole, Parser.parse, Parser.parseAt, Cursor.ofOffset_zero, Peg.parser, h]

namespace CharClass

open Grammar

variable {text : String} {body rest : List Char}

/-- A text is read up to its first closing bracket. -/
theorem exists_parseBody_eq_error (htext : text.toList = body ++ ']' :: rest) (hb : ']' ∉ body) :
    ∃ e, parseBody text = .error e ∧ e.pattern = text ∧ e.offset = byteSize body ∧
      e.position = .ofOffset text.toList e.offset := by
  have hstart : (Cursor.start text.toList).rest? = some (body ++ ']' :: rest) :=
    congrArg some htext
  have hspan := Cursor.spans_advance hstart
  have hrest : (Cursor.advance (.start text.toList) body.length).rest? = some (']' :: rest) := by
    simp [Cursor.advance, hstart]
  obtain ⟨f, hf, hoffset⟩ :=
    exists_failed_at_bracket (forall_staysInClass_iff.2 hb) hspan hrest
  refine ⟨_, readWhole_eq_error hf, rfl, ?_, rfl⟩
  rw [hspan.offset_eq] at hoffset
  exact hoffset.trans (Nat.zero_add _)

theorem mem_of_parseBody_eq_error (h : parseBody text = .error e) : ']' ∈ text.toList := by
  apply Decidable.by_contra
  intro hb
  cases h.symm.trans (parseBody_eq_ok_iff.2 ⟨rfl, forall_staysInClass_iff.2 hb⟩)

theorem toString_of_printBody {k : CharClass} (h : k.printBody = text.toList) :
    toString k = "[" ++ text ++ "]" := by
  apply String.toList_injective
  change (String.ofList k.print).toList = _
  simp [print, h]

theorem negated_ofBody_iff : (ofBody body).negated ↔ body.head? = some '^' := by
  fun_cases ofBody body with
  | case1 cs => exact ⟨fun _ => rfl, fun _ => rfl⟩
  | case2 cs hcs =>
    constructor
    · intro h
      cases h
    · intro h
      obtain ⟨cs, rfl⟩ := List.head?_eq_some_iff.1 h
      exact (hcs cs rfl).elim

theorem items_ofBody (body : List Char) :
    (ofBody body).items = scanItems (if (ofBody body).negated then body.tail else body) := by
  fun_cases ofBody body with
  | case1 cs => rfl
  | case2 cs hcs => rfl

/-- A text is the inside of a class unless a closing bracket is in it, which is where reading it
fails. The class keeps the text: it is printed as it was written, and its items are those that a
scan finds after the caret. -/
theorem parseBody_total (text : String) :
    ((∃ k, parseBody text = .ok k) ↔ ']' ∉ text.toList) ∧
    (∀ k, parseBody text = .ok k →
      toString k = "[" ++ text ++ "]" ∧ (k.negated ↔ text.toList.head? = some '^') ∧
        k.items = scanItems (if k.negated then text.toList.tail else text.toList)) ∧
    ∀ e, parseBody text = .error e →
      ∃ body rest, text.toList = body ++ ']' :: rest ∧ ']' ∉ body ∧ e.pattern = text ∧
        e.offset = byteSize body ∧ e.position = .ofOffset text.toList e.offset := by
  simp only [parseBody_eq_ok_iff, forall_staysInClass_iff]
  refine ⟨⟨?_, ?_⟩, ?_, ?_⟩
  · intro h
    obtain ⟨k, -, hb⟩ := h
    exact hb
  · intro hb
    exact ⟨_, rfl, hb⟩
  · intro k h
    obtain ⟨rfl, -⟩ := h
    exact ⟨toString_of_printBody (printBody_ofBody _), negated_ofBody_iff, items_ofBody _⟩
  · intro e h
    obtain ⟨body, rest, htext, hb⟩ := List.eq_append_cons_of_mem (mem_of_parseBody_eq_error h)
    obtain ⟨e', he', hpattern, hoffset, hposition⟩ := exists_parseBody_eq_error htext hb
    cases h.symm.trans he'
    exact ⟨body, rest, htext, hb, hpattern, hoffset, hposition⟩

-- A range does not descend, and a dash at an end or next to a range is a character.
example : scanItems "-z-a--é-".toList =
    [.single '-', .single 'z', .single '-', .single 'a', .range '-' 'é', .single '-'] := by
  decide

end CharClass

end PatternGen
