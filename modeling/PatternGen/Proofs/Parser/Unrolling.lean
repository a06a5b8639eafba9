import PatternGen.Proofs.Parser.Rows
import PatternGen.Proofs.Parser.Separators

namespace PatternGen

namespace Outcome

/-- The first goes in circles, or else it is the second. -/
def Below (o o' : Outcome α) : Prop := o = .stuck .endless ∨ o = o'

variable {o o' : Outcome α}

theorem Below.refl (o : Outcome α) : o.Below o := .inr rfl

@[elab_as_elim]
theorem Below.elim {motive : Outcome α → Outcome α → Prop} (h : o.Below o')
    (endless : motive (.stuck .endless) o') (same : motive o o) : motive o o' := by
  rcases h with rfl | rfl
  · exact endless
  · exact same

theorem Below.eq_endless (h : o.Below (.stuck .endless)) : o = .stuck .endless := Or.elim h id id

theorem Below.recalling (h : o.Below o') (e : Option Failure) :
    (o.recalling e).Below (o'.recalling e) := Below.elim h (.inl rfl) (.refl _)

end Outcome

open Outcome

namespace Parser

/-- From the place on, the first parser does what the second does unless it goes in circles. -/
def BelowFrom (c : Cursor) (p q : Parser α) : Prop := ∀ d, d.Follows c → (p d).Below (q d)

variable {α β : Type} {p p' : Parser α} {q q' : Parser β} {c d : Cursor}

theorem BelowFrom.refl (c : Cursor) (p : Parser α) : BelowFrom c p p := fun _ _ => .refl _

theorem BelowFrom.mono (h : BelowFrom c p p') (hd : d.Follows c) : BelowFrom d p p' :=
  fun e he => h e (he.trans hd)

theorem BelowFrom.bind {f f' : α → Parser β} (hp : p.Forward) (h : BelowFrom c p p')
    (hf : ∀ a, BelowFrom c (f a) (f' a)) : BelowFrom c (p.bind f) (p'.bind f') := by
  intro d hd
  rw [Parser.bind, Parser.bind]
  refine Below.elim (h d hd) (.inl rfl) ?_
  cases hc : p d with
  | done a e x => exact (hf a e ((hp d a e ⟨x, hc⟩).trans hd)).recalling x
  | failed | stuck => exact .refl _

theorem BelowFrom.orElse {r r' : Parser α} (h : BelowFrom c p p') (hr : BelowFrom c r r') :
    BelowFrom c (p.orElse r) (p'.orElse r') := by
  intro d hd
  rw [Parser.orElse, Parser.orElse]
  refine Below.elim (h d hd) (.inl rfl) ?_
  cases p d with
  | done a e x => exact .refl _
  | failed f => exact (hr d hd).recalling (some f)
  | stuck x => exact .refl _

theorem belowFrom_firstOf {ps ps' : Fin n → Parser α} (h : ∀ i, BelowFrom c (ps i) (ps' i))
    (tried : Option Failure) :
    BelowFrom c (firstOf tried (List.ofFn ps)) (firstOf tried (List.ofFn ps')) := by
  induction n generalizing tried with
  | zero => exact .refl c _
  | succ n ih =>
    intro d hd
    rw [List.ofFn_succ, List.ofFn_succ, firstOf, firstOf]
    refine Below.elim (h 0 d hd) (.inl rfl) ?_
    cases ps 0 d with
    | done a e x => exact .refl _
    | failed f => exact ih (fun i => h i.succ) _ d hd
    | stuck x => exact .refl _

theorem BelowFrom.filter (h : BelowFrom c p p') (what : String) (keep : α → Bool) :
    BelowFrom c (p.filter what keep) (p'.filter what keep) := by
  intro d hd
  rw [Parser.filter, Parser.filter]
  exact Below.elim (h d hd) (.inl rfl) (.refl _)

theorem BelowFrom.collect (h : BelowFrom c p p') (values : List α) (e : Option Failure) :
    BelowFrom c (collect p values e) (collect p' values e) := by
  intro d hd
  induction hn : d.size using Nat.strongRecOn generalizing values e d with
  | _ n ih =>
    rw [Parser.collect, Parser.collect]
    refine Below.elim (h d hd) (.inl rfl) ?_
    cases p d with
    | done a m x =>
      dsimp only
      split
      · next hlt => exact ih m.size (hn ▸ hlt) _ _ m (.trans (.inr hlt) hd) rfl
      · exact .refl _
    | failed | stuck => exact .refl _

theorem BelowFrom.atLeastOne (hp : p.Forward) (h : BelowFrom c p p') :
    BelowFrom c (atLeastOne p) (atLeastOne p') := by
  intro d hd
  rw [Parser.atLeastOne, Parser.atLeastOne]
  refine Below.elim (h d hd) (.inl rfl) ?_
  cases hc : p d with
  | done a e x => exact h.collect [a] x e ((hp d a e ⟨x, hc⟩).trans hd)
  | failed | stuck => exact .refl _

theorem BelowFrom.collectSeparated (hq : q.Forward) (h : BelowFrom c p p') (h' : BelowFrom c q q')
    (values : List α) (e : Option Failure) :
    BelowFrom c (collectSeparated p q values e) (collectSeparated p' q' values e) := by
  intro d hd
  induction hn : d.size using Nat.strongRecOn generalizing values e d with
  | _ n ih =>
    rw [Parser.collectSeparated, Parser.collectSeparated]
    refine Below.elim (h' d hd) (.inl rfl) ?_
    cases hc : q d with
    | done b between x =>
      dsimp only
      refine Below.elim (h between ((hq d b between ⟨x, hc⟩).trans hd)) (.inl rfl) ?_
      cases p between with
      | done a m y =>
        dsimp only
        split
        · next hlt => exact ih m.size (hn ▸ hlt) _ _ m (.trans (.inr hlt) hd) rfl
        · exact .refl _
      | failed | stuck => exact .refl _
    | failed | stuck => exact .refl _

theorem BelowFrom.separatedBy (hp : p.Forward) (hq : q.Forward) (h : BelowFrom c p p')
    (h' : BelowFrom c q q') : BelowFrom c (separatedBy p q) (separatedBy p' q') := by
  intro d hd
  rw [Parser.separatedBy, Parser.separatedBy]
  refine Below.elim (h d hd) (.inl rfl) ?_
  cases hc : p d with
  | done a e x => exact h.collectSeparated hq h' [a] x e ((hp d a e ⟨x, hc⟩).trans hd)
  | failed | stuck => exact .refl _

/-- The handle that a recursive parser hands out at a place is below the parser itself. -/
theorem belowFrom_after (p : Parser α) (c d : Cursor) : BelowFrom d (after p c) p := by
  intro e _
  rw [after]
  split
  · exact .refl _
  · exact .inl rfl

/-- Both handles go in circles where no less is left. -/
theorem BelowFrom.after (h : ∀ d, d.size < c.size → (p d).Below (p' d)) (e : Cursor) :
    BelowFrom e (after p c) (after p' c) := by
  intro d _
  rw [Parser.after, Parser.after]
  split
  · next hlt => exact h d hlt
  · exact .inl rfl

/-- By induction on what is left: at a place, the handles are only called where less is left. -/
theorem belowFrom_recursive {define define' : Parser α → Parser α}
    (hforward : ∀ p, p.Forward → (define p).Forward)
    (h : ∀ d p p', d.Follows c → p.Forward → BelowFrom d p p' →
      BelowFrom d (define p) (define' p')) :
    BelowFrom c (recursive define) (recursive define') := by
  intro d hd
  induction hn : d.size using Nat.strongRecOn generalizing d with
  | _ n ih =>
    have hself : Forward (recursive define) := forward_recursive hforward
    rw [recursive_apply, recursive_apply]
    refine h d _ _ hd hself.after (.after (fun e he => ?_) d) d (.refl d)
    exact ih e.size (hn ▸ he) e (.trans (.inr he) hd) rfl

/-- What a definition makes of its handle at a place depends only on what the handle does from there
on, and stays the same, or goes in circles, when the handle goes in circles at more places. -/
structure Causal (define : Parser α → Parser α) : Prop where
  forward : ∀ p, p.Forward → (define p).Forward
  below : ∀ c p p', p.Forward → BelowFrom c p p' → BelowFrom c (define p) (define p')

variable {define : Parser α → Parser α}

theorem Causal.recursive_eq (h : Causal define) : recursive define = define (recursive define) := by
  have hself : Forward (recursive define) := forward_recursive h.forward
  funext c
  have hle : (recursive define c).Below (define (recursive define) c) := by
    have hbelow := h.below c _ _ hself.after (belowFrom_after (recursive define) c c) c (.refl c)
    rwa [← recursive_apply define c] at hbelow
  rcases hle with hstuck | heq
  · -- The handle goes in circles just where the parser does, so it makes no difference.
    have hge : BelowFrom c (recursive define) (after (recursive define) c) := by
      intro d hd
      rcases hd with rfl | hlt
      · exact .inl hstuck
      · rw [after, if_pos hlt]
        exact .refl _
    have hbelow := h.below c _ _ hself hge c (.refl c)
    rw [← recursive_apply define c, hstuck] at hbelow
    rw [hstuck, hbelow.eq_endless]
  · exact heq

theorem Causal.below_of_eq_define (h : Causal define) {p : Parser α} (hp : p = define p)
    (c : Cursor) : (recursive define c).Below (p c) := by
  induction hn : c.size using Nat.strongRecOn generalizing c with
  | _ n ih =>
    have hself : Forward (recursive define) := forward_recursive h.forward
    rw [recursive_apply, hp]
    refine h.below c _ _ hself.after ?_ c (.refl c)
    intro d _
    rw [after]
    split
    · next hlt => exact ih d.size (hn ▸ hlt) d rfl
    · exact .inl rfl

/-- With `p` for its handle, the definition calls it at each place only further on: what the handle
does elsewhere does not matter. -/
def CallsLater (define : Parser α → Parser α) (p : Parser α) : Prop :=
  ∀ c p', (∀ d, d.size < c.size → p' d = p d) → define p' c = define p c

theorem CallsLater.recursive_eq (h : CallsLater define (recursive define)) :
    recursive define = define (recursive define) := by
  funext c
  rw [recursive_apply]
  apply h
  intro d hlt
  rw [after, if_pos hlt]

theorem CallsLater.eq_recursive (h : CallsLater define p) (hp : p = define p) :
    p = recursive define := by
  funext c
  induction hn : c.size using Nat.strongRecOn generalizing c with
  | _ n ih =>
    rw [recursive_apply, h c]
    · exact congrFun hp c
    · intro d hlt
      rw [after, if_pos hlt]
      exact (ih d.size (hn ▸ hlt) d rfl).symm

end Parser

namespace Peg

open PatternGen.Parser

variable {Γ : List Type} {α β : Type} {env env' : Handles Γ} {c : Cursor}

theorem belowFrom_denote (p : Peg Γ α) (henv : env.Forward)
    (h : ∀ β (x : Handle β Γ), BelowFrom c (env β x) (env' β x)) :
    BelowFrom c (p.denote env) (p.denote env') := by
  induction p generalizing c with
  | token | success | fail | endOfInput => exact .refl c _
  | bind p f ihp ihf => exact (ihp henv h).bind (p.forward_denote henv) fun a => ihf a henv h
  | orElse p q ihp ihq => exact (ihp henv h).orElse (ihq henv h)
  | choice n ps ih => exact belowFrom_firstOf (fun i => ih i henv h) none
  | filter what keep p ih => exact (ih henv h).filter what keep
  | many p ih => exact (ih henv h).collect [] none
  | atLeastOne p ih => exact (ih henv h).atLeastOne (p.forward_denote henv)
  | separatedBy p q ihp ihq =>
    exact (ihp henv h).separatedBy (p.forward_denote henv) (q.forward_denote henv) (ihq henv h)
  | recursive body ih =>
    apply belowFrom_recursive
    · intro p hp
      exact body.forward_denote (henv.push hp)
    · intro d p p' hd hp hpp'
      refine ih (henv.push hp) fun β x => ?_
      cases x with
      | innermost => exact hpp'
      | outer x => exact (h β x).mono hd
  | ref x => exact h _ x

/-- The recursive expressions inside a body may refer to it. -/
theorem causal_denote (body : Peg (α :: Γ) α) (henv : env.Forward) :
    Causal fun self => body.denote (env.push self) where
  forward p hp := body.forward_denote (henv.push hp)
  below c p p' hp h := by
    refine body.belowFrom_denote (henv.push hp) fun β x => ?_
    cases x with
    | innermost => exact h
    | outer x => exact .refl c _

/-- A recursive parser is what its definition makes of it, and if the definition calls its handle
only further on, no other parser is. The body of a recursive expression need not do so, whatever
recursive expressions it holds that refer to it or to each other: where it would go on calling its
handle at one place, both sides go in circles. Another parser that it makes into itself does
everything that the recursive parser does without going in circles. -/
theorem recursive_eq_define :
    (∀ (α : Type) (define : Parser α → Parser α),
      (CallsLater define (Parser.recursive define) →
        Parser.recursive define = define (Parser.recursive define)) ∧
      ∀ p, CallsLater define p → p = define p → p = Parser.recursive define) ∧
    ∀ (Γ : List Type) (α : Type) (body : Peg (α :: Γ) α) (env : Handles Γ), env.Forward →
      let define : Parser α → Parser α := fun self => body.denote (env.push self)
      Parser.recursive define = define (Parser.recursive define) ∧
        ∀ p, p = define p → ∀ c, (Parser.recursive define c).Below (p c) := by
  refine ⟨fun α define => ⟨fun h => h.recursive_eq, fun p h hp => h.eq_recursive hp⟩, ?_⟩
  intro Γ α body env henv define
  have h : Causal define := body.causal_denote henv
  exact ⟨h.recursive_eq, fun p hp => h.below_of_eq_define hp⟩

/-- After a character has been read. -/
theorem callsLater_char (x : Char) (p q : Parser α) :
    CallsLater (fun self => ((char x).parser.bind fun _ => self).orElse q) p := by
  intro c p' h
  have hbind : ((char x).parser.bind fun _ => p') c = ((char x).parser.bind fun _ => p) c := by
    rw [Parser.bind, Parser.bind]
    cases hc : (char x).parser c with
    | done a d e =>
      dsimp only
      rw [h d (reads_char x c a d ⟨e, hc⟩)]
    | failed f => rfl
    | stuck fault => rfl
  simp only [Parser.orElse, hbind]

/-- Round brackets with square ones inside, in which round ones may stand again. -/
theorem recursive_eq_define_brackets :
    let opened : Parser Nat → Parser Nat := fun self =>
      ((char '(').parser.bind fun _ => self).orElse (Parser.success 0)
    let squares : Peg [Nat] Nat :=
      recursive ((((char '[').ignoreThen (ref .innermost)).thenIgnore (char ']')).orElse
        (ref (.outer .innermost)))
    let body : Peg [Nat] Nat :=
      ((((char '(').ignoreThen squares).thenIgnore (char ')')).map (· + 1)).orElse
        ((char 'x').map fun _ => 0)
    let rounds : Parser Nat → Parser Nat := fun self => body.denote (Handles.none.push self)
    CallsLater opened (Parser.recursive opened) ∧
      Parser.recursive opened = opened (Parser.recursive opened) ∧
    Handles.none.Forward ∧
      Parser.recursive rounds = rounds (Parser.recursive rounds) ∧
      (rounds (Parser.recursive rounds)).parseAt "([(x)])".toList 0 =
        .done 2 ⟨7, some []⟩ (some ⟨3, .ofList ["'('", "'['"]⟩) ∧
      (rounds (Parser.recursive rounds)).parseAt "([(x])".toList 0 =
        .failed (.expecting 4 "')'") := by
  intro opened squares body rounds
  have hopened : CallsLater opened (Parser.recursive opened) := callsLater_char '(' _ _
  have hrounds : Parser.recursive rounds = rounds (Parser.recursive rounds) :=
    (recursive_eq_define.2 [] Nat body .none Handles.forward_none).1
  refine ⟨hopened, (recursive_eq_define.1 Nat opened).1 hopened, Handles.forward_none, hrounds, ?_⟩
  rw [← hrounds]
  exact ⟨by decide +kernel, by decide +kernel⟩

end Peg

end PatternGen
