import PatternGen.Proofs.Pattern.RoundTrip
import PatternGen.Proofs.Pattern.Words

namespace PatternGen

open Grammar

namespace Pattern

theorem printBranch_attach (p : Term × Repetition) (ps : List (Term × Repetition)) :
    printBranch (attach p ps) = printPiece p ++ printBranch ps := by
  by_cases h : RunsOn p ps
  · obtain ⟨s, t, r, qs, rfl, rfl⟩ := exists_literals_of_runsOn h
    have honce : Repetition.once.print = [] := by decide
    rw [attach_literal]
    simp only [printBranch, printPiece, printTerm, honce, String.toList_append, List.append_nil,
      List.append_assoc]
  · rw [attach_of_not_runsOn h, printBranch]

mutual

theorem printTerm_joinTerm (t : Term) : printTerm (joinTerm t) = printTerm t := by
  cases t with
  | charClass k => rw [joinTerm]
  | literal text => rw [joinTerm]
  | group branches => rw [joinTerm, printTerm, printTerm, printBranches_joinBranches branches]

theorem printBranch_joinPieces (ps : List (Term × Repetition)) :
    printBranch (joinPieces ps) = printBranch ps := by
  cases ps with
  | nil => rw [joinPieces]
  | cons p ps =>
    obtain ⟨t, r⟩ := p
    rw [joinPieces, printBranch_attach, printBranch_joinPieces ps, printBranch, printPiece,
      printPiece, printTerm_joinTerm t]

theorem printBranches_joinBranches (bs : List (List (Term × Repetition))) :
    printBranches (joinBranches bs) = printBranches bs := by
  cases bs with
  | nil => rw [joinBranches]
  | cons b bs =>
    rw [joinBranches, printBranches, printBranches, printBranch_joinPieces b,
      printRest_joinBranches bs]

theorem printRest_joinBranches (bs : List (List (Term × Repetition))) :
    printRest (joinBranches bs) = printRest bs := by
  cases bs with
  | nil => rw [joinBranches]
  | cons b bs =>
    rw [joinBranches, printRest, printRest, printBranch_joinPieces b, printRest_joinBranches bs]

end

theorem toText_joined (p : Pattern) : p.joined.toText = p.toText :=
  congrArg String.ofList (printBranches_joinBranches p)

/-- A class is open after the character. -/
def insideAfter (inside : Bool) (x : Char) : Bool := x == '[' || inside && x != ']'

/-- The bounds in braces that stand outside of classes, for a text that may begin in a class. -/
def boundsIn : Bool → List Char → List (List Char)
  | _, [] => []
  | inside, x :: s =>
    if x == '\x7b' && !inside then
      ('\x7b' :: (s.takeWhile (· != '\x7d') ++ ['\x7d'])) :: boundsIn (insideAfter inside x) s
    else boundsIn (insideAfter inside x) s

/-- All bounds in braces are written as some repetition is printed. -/
def PrintedBounds (s : List Char) : Prop := ∀ v ∈ boundsIn false s, ∃ r : Repetition, r.print = v

theorem mem_boundsIn_append {u : List Char} (h : v ∈ boundsIn (u.foldl insideAfter inside) w) :
    v ∈ boundsIn inside (u ++ w) := by
  induction u generalizing inside with
  | nil => exact h
  | cons x u ih =>
    rw [List.cons_append, boundsIn]
    split
    · exact List.mem_cons_of_mem _ (ih h)
    · exact ih h

/-- Where neither a class nor bounds begin, there are no bounds. -/
theorem boundsIn_plain {u : List Char} (h : ∀ x ∈ u, x ≠ '[' ∧ x ≠ '\x7b') (rest : List Char) :
    u.foldl insideAfter false = false ∧ boundsIn false (u ++ rest) = boundsIn false rest := by
  induction u with
  | nil => exact ⟨rfl, rfl⟩
  | cons x u ih =>
    obtain ⟨⟨hclass, hbrace⟩, hu⟩ := List.forall_mem_cons.1 h
    have hx : insideAfter false x = false := by
      rw [insideAfter, beq_eq_false_iff_ne.2 hclass]
      rfl
    rw [List.foldl_cons, List.cons_append, boundsIn, hx, beq_eq_false_iff_ne.2 hbrace]
    exact ih hu

theorem boundsIn_class {body : List Char} (h : ∀ x ∈ body, staysInClass x) (rest : List Char) :
    boundsIn true (body ++ ']' :: rest) = boundsIn false rest := by
  induction body with
  | nil => rfl
  | cons x body ih =>
    obtain ⟨hx, hbody⟩ := List.forall_mem_cons.1 h
    have hinside : insideAfter true x = true := by
      change x != ']' at hx
      rw [insideAfter, hx]
      exact Bool.or_true _
    rw [List.cons_append, boundsIn, hinside, Bool.not_true, Bool.and_false]
    exact ih hbody

/-- A part of a text and what is printed for it: no class is open after it, it is the print wherever
all bounds are as they are printed, and the print has no other bounds. -/
structure Reprints (u print : List Char) : Prop where
  closed : u.foldl insideAfter false = false
  eq_print : ∀ rest, PrintedBounds (u ++ rest) → u = print
  printed : ∀ rest, PrintedBounds rest → PrintedBounds (print ++ rest)

theorem Reprints.append (hu : Reprints u s) (hv : Reprints v t) : Reprints (u ++ v) (s ++ t) := by
  refine ⟨?_, ?_, ?_⟩
  · rw [List.foldl_append, hu.closed, hv.closed]
  · intro rest h
    rw [List.append_assoc] at h
    have hrest : PrintedBounds (v ++ rest) := by
      intro w hw
      rw [← hu.closed] at hw
      exact h w (mem_boundsIn_append hw)
    rw [hu.eq_print _ h, hv.eq_print _ hrest]
  · intro rest h
    rw [List.append_assoc]
    exact hu.printed _ (hv.printed _ h)

theorem reprints_plain {u : List Char} (h : ∀ x ∈ u, x ≠ '[' ∧ x ≠ '\x7b') : Reprints u u := by
  refine ⟨(boundsIn_plain h []).1, fun _ _ => rfl, ?_⟩
  intro rest hrest
  rwa [PrintedBounds, (boundsIn_plain h rest).2]

theorem reprints_char (hx : x ≠ '[' ∧ x ≠ '\x7b') : Reprints [x] [x] :=
  reprints_plain (List.forall_mem_singleton.2 hx)

theorem reprints_class {body : List Char} (h : ∀ x ∈ body, staysInClass x) :
    Reprints ('[' :: (body ++ [']'])) (CharClass.ofBody body).print := by
  have hprint : (CharClass.ofBody body).print = '[' :: (body ++ [']']) := by
    rw [CharClass.print, CharClass.printBody_ofBody]
    rfl
  rw [hprint]
  refine ⟨?_, fun _ _ => rfl, ?_⟩
  · rw [← List.cons_append, List.foldl_append, List.foldl_cons, List.foldl_nil, insideAfter]
    exact Bool.and_false _
  · intro rest hrest
    have hbody := boundsIn_class h rest
    rw [List.append_cons] at hbody
    rwa [PrintedBounds, List.cons_append, boundsIn, if_neg (by decide),
      show insideAfter false '[' = true from rfl, hbody]

end Pattern

namespace Grammar

open Pattern

theorem Braces.exists_inner (h : Braces digits v) :
    ∃ s, v = '\x7b' :: (s ++ ['\x7d']) ∧ ∀ x ∈ s, x.isDigit ∨ x = ',' := by
  cases h with
  | @one low _ hl => exact ⟨low, rfl, fun x hx => .inl (hl x hx)⟩
  | @two low high _ hl hh =>
    refine ⟨low ++ ',' :: high, by simp, ?_⟩
    intro x hx
    rcases List.mem_append.1 hx with hx | hx
    · exact .inl (hl x hx)
    · rcases List.mem_cons.1 hx with rfl | hx
      · exact .inr rfl
      · exact .inl (hh x hx)

/-- Bounds in braces are found as such, and nothing else in them is. -/
theorem Braces.boundsIn_append (h : Braces digits v) (rest : List Char) :
    v.foldl insideAfter false = false ∧ boundsIn false (v ++ rest) = v :: boundsIn false rest := by
  obtain ⟨s, rfl, hs⟩ := h.exists_inner
  have hne {y : Char} (hy : ¬ (y.isDigit ∨ y = ',')) : ∀ x ∈ s, x ≠ y := by
    rintro x hx rfl
    exact hy (hs x hx)
  have hplain : ∀ x ∈ s ++ ['\x7d'], x ≠ '[' ∧ x ≠ '\x7b' := by
    intro x hx
    rcases List.mem_append.1 hx with hx | hx
    · exact ⟨hne (by decide) x hx, hne (by decide) x hx⟩
    · cases List.mem_singleton.1 hx
      decide
  have hstop : Halts (· != '\x7d') ('\x7d' :: rest) := halts_cons_iff.2 (by decide)
  have hinner : (s ++ '\x7d' :: rest).takeWhile (· != '\x7d') = s :=
    hstop.takeWhile_append fun x hx => bne_iff_ne.2 (hne (by decide) x hx)
  obtain ⟨hclosed, hbounds⟩ := boundsIn_plain hplain rest
  refine ⟨hclosed, ?_⟩
  rw [List.append_assoc, List.singleton_append] at hbounds
  rw [List.cons_append, List.append_assoc, List.singleton_append, boundsIn, hinner,
    if_pos (by decide), show insideAfter false '\x7b' = false from rfl, hbounds]

end Grammar

namespace Repetition

open Pattern

theorem braces_print {r : Repetition} (hb : r.print.head? = some '\x7b') :
    ∃ digits, Braces digits r.print ∧ repetitionOf? digits = some r := by
  obtain ⟨min, max⟩ := r
  have hmin : Text.count? (printCount min) = some min := Text.count?_decimal min
  obtain ⟨hne, hl⟩ := digits_of_count? hmin
  cases max with
  | none =>
    rw [print] at hb ⊢
    split at hb
    · cases hb
    split at hb
    · cases hb
    · next h₀ h₁ =>
      rw [if_neg h₀, if_neg h₁]
      refine ⟨_, .two hne hl (List.forall_mem_nil _), ?_⟩
      rw [repetitionOf?, hmin]
      rfl
  | some max =>
    have hmax : Text.count? (printCount max) = some max := Text.count?_decimal max
    obtain ⟨hne', hh⟩ := digits_of_count? hmax
    rw [print] at hb ⊢
    split at hb
    · cases hb
    split at hb
    · next h₁ heq =>
      rw [if_neg h₁, if_pos heq, ← heq]
      refine ⟨_, .one hne hl, ?_⟩
      rw [repetitionOf?, hmin]
      rfl
    · next h₁ heq =>
      rw [if_neg h₁, if_neg heq]
      simp only [List.cons_append, List.append_assoc]
      refine ⟨_, .two hne hl hh, ?_⟩
      rw [repetitionOf?, hmin, hmax]
      · rfl
      · exact hne'

/-- Printed bounds stand for no other repetition. -/
theorem Spells.eq_of_print {q r : Repetition} (h : r.Spells q.print)
    (hb : q.print.head? = some '\x7b') : r = q := by
  obtain ⟨digits, hr, hdr, -⟩ := braces_of_spells h hb
  obtain ⟨digits', hq, hdq⟩ := braces_print hb
  have hscan := (scanBounds_append hr []).symm.trans (scanBounds_append hq [])
  cases hscan
  exact Option.some.inj (hdr.symm.trans hdq)

/-- A repetition without braces is a sign or nothing, and printed as it is. -/
theorem Spells.reprints_sign {r : Repetition} (h : r.Spells v) (hb : v.head? ≠ some '\x7b') :
    Reprints v r.print := by
  cases h with
  | omitted => exact reprints_plain (List.forall_mem_nil _)
  | star => exact reprints_char (by decide)
  | plus => exact reprints_char (by decide)
  | exactly _ => exact (hb rfl).elim
  | atLeast _ => exact (hb rfl).elim
  | between _ _ _ => exact (hb rfl).elim

theorem Spells.reprints {r : Repetition} (h : r.Spells v) : Reprints v r.print := by
  by_cases hb : v.head? = some '\x7b'
  · obtain ⟨digits, hbraces, -, hvalid⟩ := braces_of_spells h hb
    refine ⟨(hbraces.boundsIn_append []).1, ?_, ?_⟩
    · intro rest hbounds
      rw [PrintedBounds, (hbraces.boundsIn_append rest).2, List.forall_mem_cons] at hbounds
      obtain ⟨⟨q, rfl⟩, -⟩ := hbounds
      rw [h.eq_of_print hb]
    · intro rest hrest
      -- bounds that were read may be printed as a sign, or not at all
      by_cases hb : r.print.head? = some '\x7b'
      · obtain ⟨digits, hbraces, -⟩ := braces_print hb
        rw [PrintedBounds, (hbraces.boundsIn_append rest).2, List.forall_mem_cons]
        exact ⟨⟨r, rfl⟩, hrest⟩
      · exact ((spells_print hvalid).reprints_sign hb).printed rest hrest
  · exact h.reprints_sign hb

end Repetition

namespace Pattern

mutual

theorem SpellsTerm.reprints {t : Term} (h : SpellsTerm t u) : Reprints u (printTerm t) := by
  cases t with
  | charClass k =>
    rw [SpellsTerm] at h
    obtain ⟨body, rfl, hb, rfl⟩ := h
    rw [printTerm]
    exact reprints_class hb
  | literal text =>
    rw [SpellsTerm] at h
    obtain ⟨rfl, -, hl⟩ := h
    rw [printTerm]
    apply reprints_plain
    intro x hx
    constructor
    · rintro rfl
      exact absurd (hl _ hx) (by decide)
    · rintro rfl
      exact absurd (hl _ hx) (by decide)
  | group branches =>
    rw [SpellsTerm] at h
    obtain ⟨t, ht, rfl⟩ := h
    have hopen : Reprints ['('] ['('] := reprints_char (by decide)
    have hclose : Reprints [')'] [')'] := reprints_char (by decide)
    rw [printTerm]
    exact hopen.append ((SpellsBranches.reprints ht).append hclose)

theorem SpellsPieces.reprints {ps : List (Term × Repetition)} (h : SpellsPieces ps u) :
    Reprints u (printBranch ps) := by
  cases ps with
  | nil =>
    rw [SpellsPieces] at h
    rw [h, printBranch]
    exact reprints_plain (List.forall_mem_nil _)
  | cons p ps =>
    obtain ⟨t, r⟩ := p
    rw [SpellsPieces] at h
    obtain ⟨_, _, hp, hps, -, rfl⟩ := h
    rw [SpellsPiece] at hp
    obtain ⟨_, _, ht, hr, rfl⟩ := hp
    rw [printBranch, printPiece]
    exact ((SpellsTerm.reprints ht).append hr.reprints).append (SpellsPieces.reprints hps)

theorem SpellsBranches.reprints {bs : List (List (Term × Repetition))}
    (h : SpellsBranches bs u) : Reprints u (printBranches bs) := by
  cases bs with
  | nil =>
    rw [SpellsBranches] at h
    exact h.elim
  | cons b bs =>
    rw [SpellsBranches] at h
    obtain ⟨_, _, -, hb, hbs, rfl⟩ := h
    rw [printBranches]
    exact (SpellsPieces.reprints hb).append (SpellsRest.reprints hbs)

theorem SpellsRest.reprints {bs : List (List (Term × Repetition))} (h : SpellsRest bs u) :
    Reprints u (printRest bs) := by
  cases bs with
  | nil =>
    rw [SpellsRest] at h
    rw [h, printRest]
    exact reprints_plain (List.forall_mem_nil _)
  | cons b bs =>
    rw [SpellsRest] at h
    obtain ⟨_, _, -, hb, hbs, rfl⟩ := h
    have hbar : Reprints ['|'] ['|'] := reprints_char (by decide)
    rw [printRest]
    exact hbar.append ((SpellsPieces.reprints hb).append (SpellsRest.reprints hbs))

end

/-- What was read is printed as a text that is printed as it is. Both have the same words unless a
bare literal stands before a repeated one, and both are the same text if all bounds were written as
they are printed, and only then. -/
theorem parse_toText_normal {text : String} {p : Pattern} (h : Pattern.parse text = .ok p) :
    ∃ q, Pattern.parse p.toText = .ok q ∧ q.toText = p.toText ∧
      (p.Unmixed → q.words .unbounded = p.words .unbounded ∧ ∀ o, q.language o = p.language o) ∧
      (p.toText = text ↔ PrintedBounds text.toList) := by
  have hs : p.Spells text.toList := parse_eq_ok_iff.1 h
  refine ⟨p.joined, parse_toText_eq_joined hs.wellFormed, toText_joined p, ?_, ?_⟩
  · intro hp
    refine ⟨words_joined _ hp, ?_⟩
    intro o
    rw [language_eq_words, language_eq_words, words_joined _ hp]
  · have hreprints : Reprints text.toList p.print := SpellsBranches.reprints hs
    rw [← List.append_nil text.toList]
    constructor
    · rintro rfl
      rw [toText, String.toList_ofList]
      exact hreprints.printed [] (List.forall_mem_nil _)
    · intro hbounds
      rw [toText, ← hreprints.eq_print [] hbounds, String.ofList_toList]

/-- Braces in a class are no bounds. -/
theorem parse_toText_normal_class :
    let p : Pattern := [[(.group [[(.literal "xy", .exactly 2)],
      [(.charClass (.ofBody ['^', '\x7b', '1', '\x7d']), .oneOrMore)]], .once),
      (.literal "z", .once)]]
    Pattern.parse "(xy\x7b2\x7d|[^\x7b1\x7d]+)z" = .ok p ∧
      p.toText = "(xy\x7b2\x7d|[^\x7b1\x7d]+)z" ∧
      ∃ q, Pattern.parse p.toText = .ok q ∧ q.words .unbounded = p.words .unbounded := by
  intro p
  have hk : (CharClass.ofBody ['^', '\x7b', '1', '\x7d']).Canonical :=
    CharClass.canonical_ofBody (by simp [staysInClass])
  have hp : p.WellFormed := by
    simp [p, WellFormed, WellFormedBranches, WellFormedPieces, WellFormedTerm, hk]
    decide
  have htext : p.toText = "(xy\x7b2\x7d|[^\x7b1\x7d]+)z" := by decide
  have h : Pattern.parse "(xy\x7b2\x7d|[^\x7b1\x7d]+)z" = .ok p := by
    rw [← htext]
    exact parse_toText_eq_joined hp
  have hunmixed : p.Unmixed := by
    simp [p, Unmixed, UnmixedBranches, UnmixedPieces, UnmixedTerm, RunsIntoRepeated]
  have hbounds : PrintedBounds "(xy\x7b2\x7d|[^\x7b1\x7d]+)z".toList :=
    List.forall_mem_singleton.2 ⟨.exactly 2, by decide⟩
  obtain ⟨q, hq, -, hwords, hsame⟩ := parse_toText_normal h
  exact ⟨h, hsame.2 hbounds, q, hq, (hwords hunmixed).1⟩

theorem parse_one_round {s t v : List Char} {r : Repetition} (hs : s ≠ [])
    (hsl : ∀ x ∈ s, isLiteral x) (ht : t ≠ []) (htl : ∀ x ∈ t, isLiteral x) (hr : r.Spells v) :
    Pattern.parse (.ofList (s ++ ['\x7b', '1', '\x7d'] ++ (t ++ v))) =
      .ok [[(.literal (.ofList s), .once), (.literal (.ofList t), r)]] := by
  have hliteral {u : List Char} (hu : u ≠ []) (hul : ∀ x ∈ u, isLiteral x) :
      SpellsTerm (.literal (.ofList u)) u := by
    rw [SpellsTerm, String.toList_ofList]
    exact ⟨rfl, hu, hul⟩
  have hone : Repetition.once.Spells ['\x7b', '1', '\x7d'] :=
    @Repetition.Spells.exactly ['1'] 1 (by decide)
  have hfirst : SpellsPiece (.literal (.ofList s), .once) (s ++ ['\x7b', '1', '\x7d']) := by
    rw [SpellsPiece]
    exact ⟨s, _, hliteral hs hsl, hone, rfl⟩
  have hsecond : SpellsPiece (.literal (.ofList t), r) (t ++ v) := by
    rw [SpellsPiece]
    exact ⟨t, v, hliteral ht htl, hr, rfl⟩
  have hapart : Apart (s ++ ['\x7b', '1', '\x7d']) (t ++ v) := by
    apply apart_of_last (x := '\x7d') _ (by decide)
    rw [List.getLast?_append]
    rfl
  rw [parse_eq_ok_iff, String.toList_ofList, Spells, SpellsBranches]
  refine ⟨_, [], List.cons_ne_nil _ _, ?_, by rw [SpellsRest], (List.append_nil _).symm⟩
  rw [SpellsPieces]
  refine ⟨_, _, hfirst, ?_, hapart, rfl⟩
  rw [SpellsPieces]
  exact ⟨_, [], hsecond, by rw [SpellsPieces], fun _ _ _ => halts_nil _, (List.append_nil _).symm⟩

/-- One round that was written out is lost, and with it the words, if a repeated literal follows. -/
theorem parse_toText_words_ne {s t v : List Char} {r : Repetition} (hs : s ≠ [])
    (hsl : ∀ x ∈ s, isLiteral x) (ht : t ≠ []) (htl : ∀ x ∈ t, isLiteral x) (hr : r.Spells v)
    (hne : r ≠ .once) :
    ∃ p q, Pattern.parse (.ofList (s ++ ['\x7b', '1', '\x7d'] ++ (t ++ v))) = .ok p ∧
      Pattern.parse p.toText = .ok q ∧ q.words .unbounded ≠ p.words .unbounded := by
  have h := parse_one_round hs hsl ht htl hr
  refine ⟨_, _, h, parse_toText_eq_joined (Spells.wellFormed (parse_eq_ok_iff.1 h)), ?_⟩
  apply words_joined_ne _ _ (Repetition.isValid_of_spells hr) hne
  · rwa [String.toList_ofList]
  · rwa [String.toList_ofList]

theorem parse_toText_words_ne_star :
    ∃ p q, Pattern.parse "a\x7b1\x7db*" = .ok p ∧ Pattern.parse p.toText = .ok q ∧
      q.words .unbounded ≠ p.words .unbounded := by
  have htext : "a\x7b1\x7db*" =
      String.ofList (['a'] ++ ['\x7b', '1', '\x7d'] ++ (['b'] ++ ['*'])) := by decide
  rw [htext]
  have hliteral {x : Char} (hx : isLiteral x) : ∀ y ∈ [x], isLiteral y :=
    List.forall_mem_singleton.2 hx
  exact parse_toText_words_ne (List.cons_ne_nil 'a' []) (hliteral (by decide))
    (List.cons_ne_nil 'b' []) (hliteral (by decide)) .star (by decide)

end Pattern

end PatternGen
