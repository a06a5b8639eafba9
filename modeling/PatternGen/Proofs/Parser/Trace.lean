import Mathlib.Data.List.Forall2
import PatternGen.Parser.Peg

namespace PatternGen

/-- The failure lies where the furthest of a list do, and expects what any of these expected. -/
structure Failure.Unites (f : Failure) (fs : List Failure) : Prop where
  reached : ∃ g ∈ fs, g.offset = f.offset
  furthest : ∀ g ∈ fs, g.offset ≤ f.offset
  mem_expected_iff : ∀ s, s ∈ f.expected ↔ ∃ g ∈ fs, g.offset = f.offset ∧ s ∈ g.expected

/-- What is left to report of a list of failures: nothing only if there were none. -/
def Summarizes (fs : List Failure) : Option Failure → Prop
  | none => fs = []
  | some f => f.Unites fs

namespace Failure

variable {f g : Failure} {fs gs : List Failure} {e x : Option Failure}

theorem unites_singleton (f : Failure) : f.Unites [f] where
  reached := ⟨f, List.mem_singleton_self f, rfl⟩
  furthest g hg := Nat.le_of_eq (congrArg offset (List.mem_singleton.1 hg))
  mem_expected_iff s := by simp

theorem Unites.append (hf : f.Unites fs) (hg : g.Unites gs) : (f.merge g).Unites (fs ++ gs) where
  reached := by
    obtain ⟨a, ha, hao⟩ := hf.reached
    obtain ⟨b, hb, hbo⟩ := hg.reached
    rw [offset_merge]
    by_cases h : f.offset ≤ g.offset
    · exact ⟨b, List.mem_append_right fs hb, by omega⟩
    · exact ⟨a, List.mem_append_left gs ha, by omega⟩
  furthest a ha := by
    rw [offset_merge]
    rcases List.mem_append.1 ha with ha | ha
    · have hle := hf.furthest a ha
      omega
    · have hle := hg.furthest a ha
      omega
  mem_expected_iff s := by
    have hle := offset_merge f g
    rw [mem_expected_merge, hf.mem_expected_iff, hg.mem_expected_iff]
    constructor
    · intro h
      rcases h with ⟨ho, a, ha, hao, hs⟩ | ⟨ho, a, ha, hao, hs⟩
      · exact ⟨a, List.mem_append_left gs ha, hao.trans ho.symm, hs⟩
      · exact ⟨a, List.mem_append_right fs ha, hao.trans ho.symm, hs⟩
    · intro h
      obtain ⟨a, ha, hao, hs⟩ := h
      rcases List.mem_append.1 ha with ha | ha
      · have hmax := hf.furthest a ha
        have ho : (f.merge g).offset = f.offset := by omega
        exact .inl ⟨ho, a, ha, hao.trans ho, hs⟩
      · have hmax := hg.furthest a ha
        have ho : (f.merge g).offset = g.offset := by omega
        exact .inr ⟨ho, a, ha, hao.trans ho, hs⟩

/-- A list has one union. -/
theorem Unites.unique (hf : f.Unites fs) (hg : g.Unites fs) : f = g := by
  have ho : f.offset = g.offset := by
    obtain ⟨a, ha, hao⟩ := hf.reached
    obtain ⟨b, hb, hbo⟩ := hg.reached
    have hfb := hf.furthest b hb
    have hga := hg.furthest a ha
    omega
  apply eq_of_mem_iff ho
  intro s
  rw [hf.mem_expected_iff, hg.mem_expected_iff, ho]

theorem summarizes_append (hf : Summarizes fs e) (hg : Summarizes gs x) :
    Summarizes (fs ++ gs) (furthest e x) := by
  cases e with
  | none =>
    cases (show fs = [] from hf)
    rw [furthest_none_left]
    exact hg
  | some f =>
    cases x with
    | none =>
      cases (show gs = [] from hg)
      rw [furthest_none_right, List.append_nil]
      exact hf
    | some g => exact Unites.append hf hg

end Failure

/-- What a run gives, with every failure that happened in it, the earliest first. -/
inductive Trace (α : Type) where
  | done (value : α) (next : Cursor) (failures : List Failure)
  | failed (failures : List Failure)
  | stuck (fault : Fault)
  deriving DecidableEq

namespace Trace

/-- The run that these failures come before. -/
def following (earlier : List Failure) : Trace α → Trace α
  | done a next fs => done a next (earlier ++ fs)
  | failed fs => failed (earlier ++ fs)
  | stuck fault => stuck fault

/-- The rounds of a repetition, after those that gave the values and the failures before. -/
def continuing (values : List α) (earlier : List Failure) : Trace (List α) → Trace (List α)
  | done as next fs => done (values ++ as) next (earlier ++ fs)
  | failed fs => failed (earlier ++ fs)
  | stuck fault => stuck fault

theorem following_following (fs gs : List Failure) (t : Trace α) :
    (t.following gs).following fs = t.following (fs ++ gs) := by
  cases t with
  | done => simp [following]
  | failed => simp [following]
  | stuck => rfl

theorem continuing_continuing (as bs : List α) (fs gs : List Failure) (t : Trace (List α)) :
    (t.continuing bs gs).continuing as fs = t.continuing (as ++ bs) (fs ++ gs) := by
  cases t with
  | done => simp [continuing]
  | failed => simp [continuing]
  | stuck => rfl

theorem continuing_nil (t : Trace (List α)) : t.continuing [] [] = t := by cases t <;> rfl

theorem following_continuing (values : List α) (fs : List Failure) (t : Trace (List α)) :
    (t.continuing values []).following fs = t.continuing values fs := by cases t <;> rfl

end Trace

/-- Parsers that list the failures of their runs. They keep nothing else in mind. -/
abbrev Traced (α : Type) := Cursor → Trace α

namespace Traced

def token (what : String) (scan : List Char → Option (α × Nat)) : Traced α := fun c =>
  match c.rest? with
  | none => .stuck .splitCharacter
  | some rest =>
    match scan rest with
    | none => .failed [.expecting c.offset what]
    | some (a, n) => .done a (c.advance n) []

def success (a : α) : Traced α := fun c => .done a c []

def fail : Traced α := fun c => .failed [.unexplained c.offset]

def endOfInput : Traced Unit := fun c =>
  if c.rest? = some [] then .done () c [] else .failed [.expecting c.offset "end of input"]

def bind (p : Traced α) (f : α → Traced β) : Traced β := fun c =>
  match p c with
  | .done a next fs => (f a next).following fs
  | .failed fs => .failed fs
  | .stuck fault => .stuck fault

def orElse (p q : Traced α) : Traced α := fun c =>
  match p c with
  | .failed fs => (q c).following fs
  | t => t

def firstOf : List (Traced α) → Traced α
  | [], _ => .failed []
  | p :: ps, c =>
    match p c with
    | .failed fs => (firstOf ps c).following fs
    | t => t

/-- A choice of none is a failure of its own. -/
def oneOf (ps : List (Traced α)) : Traced α := if ps.isEmpty then fail else firstOf ps

/-- A refusal stands in place of everything listed before. -/
def filter (what : String) (keep : α → Bool) (p : Traced α) : Traced α := fun c =>
  match p c with
  | .done a next fs => if keep a then .done a next fs else .failed [.expecting c.offset what]
  | t => t

def many (p : Traced α) (c : Cursor) : Trace (List α) :=
  match p c with
  | .done a next fs =>
    if next.size < c.size then (many p next).continuing [a] fs else .done [a] next fs
  | .failed fs => .done [] c fs
  | .stuck fault => .stuck fault
termination_by c.size

def atLeastOne (p : Traced α) : Traced (List α) := bind p fun a c => (many p c).continuing [a] []

/-- The rounds of a repetition with separators, each a separator and a value. -/
def rounds (p : Traced α) (separator : Traced β) (c : Cursor) : Trace (List α) :=
  match separator c with
  | .failed fs => .done [] c fs
  | .stuck fault => .stuck fault
  | .done _ between gs =>
    match p between with
    | .failed fs => .done [] c (gs ++ fs)
    | .stuck fault => .stuck fault
    | .done a next fs =>
      if next.size < c.size then (rounds p separator next).continuing [a] (gs ++ fs)
      else .stuck .endless
termination_by c.size

def separatedBy (p : Traced α) (separator : Traced β) : Traced (List α) :=
  bind p fun a c => (rounds p separator c).continuing [a] []

def recursive (define : Traced α → Traced α) (c : Cursor) : Trace α :=
  define (fun d => if d.size < c.size then recursive define d else .stuck .endless) c
termination_by c.size

def Silent (p : Traced α) : Prop := ∀ c a d fs, p c = .done a d fs → fs = []

theorem silent_token (what : String) (scan : List Char → Option (α × Nat)) :
    (token what scan).Silent := by
  intro c a d fs h
  rw [token] at h
  split at h
  · cases h
  · split at h
    · cases h
    · cases h
      rfl

theorem silent_success (a : α) : (success a).Silent := by
  intro c b d fs h
  cases h
  rfl

theorem silent_endOfInput : endOfInput.Silent := by
  intro c a d fs h
  rw [endOfInput] at h
  split at h
  · cases h
    rfl
  · cases h

theorem Silent.bind {p : Traced α} {f : α → Traced β} (hp : p.Silent) (hf : ∀ a, (f a).Silent) :
    (p.bind f).Silent := by
  intro c b e fs h
  rw [Traced.bind] at h
  cases hc : p c with
  | done a d gs =>
    rw [hc, hp c a d gs hc] at h
    dsimp only at h
    cases hd : f a d with
    | done x m hs =>
      rw [hd, hf a d x m hs hd] at h
      cases h
      rfl
    | failed hs =>
      rw [hd] at h
      cases h
    | stuck x =>
      rw [hd] at h
      cases h
  | failed gs =>
    rw [hc] at h
    cases h
  | stuck x =>
    rw [hc] at h
    cases h

end Traced

/-- The outcome is that of the run, and reports the union of the failures listed. -/
inductive Outcome.Reports {α : Type} : Outcome α → Trace α → Prop where
  | done (h : Summarizes fs e) : Reports (.done a d e) (.done a d fs)
  | failed (h : f.Unites fs) : Reports (.failed f) (.failed fs)
  | stuck : Reports (.stuck x) (.stuck x)

namespace Outcome

variable {α β : Type} {o : Outcome α} {t : Trace α}

theorem Reports.recalling (h : o.Reports t) (he : Summarizes fs e) :
    (o.recalling e).Reports (t.following fs) := by
  cases h with
  | done h => exact .done (Failure.summarizes_append he h)
  | stuck => exact .stuck
  | @failed f gs h =>
    have hsum : Summarizes (fs ++ gs) (Failure.furthest e (some f)) :=
      Failure.summarizes_append he h
    cases e with
    | none => exact .failed hsum
    | some g => exact .failed hsum

end Outcome

namespace Parser

/-- Everywhere, the parser reports what the run lists. -/
def Reports (p : Parser α) (t : Traced α) : Prop := ∀ c, (p c).Reports (t c)

variable {α β : Type} {p q : Parser α} {t u : Traced α}

theorem reports_token (what : String) (scan : List Char → Option (α × Nat)) :
    (token what scan).Reports (.token what scan) := by
  intro c
  rw [token, Traced.token]
  cases c.rest? with
  | none => exact .stuck
  | some rest =>
    dsimp only
    cases scan rest with
    | none => exact .failed (Failure.unites_singleton _)
    | some r => exact .done rfl

theorem reports_success (a : α) : (success a).Reports (.success a) := fun _ => .done rfl

theorem reports_fail : (fail : Parser α).Reports .fail :=
  fun _ => .failed (Failure.unites_singleton _)

theorem reports_endOfInput : endOfInput.Reports .endOfInput := by
  intro c
  rw [endOfInput, Traced.endOfInput]
  split
  · exact .done rfl
  · exact .failed (Failure.unites_singleton _)

theorem Reports.bind {f : α → Parser β} {g : α → Traced β} (hp : p.Reports t)
    (hf : ∀ a, (f a).Reports (g a)) : (p.bind f).Reports (t.bind g) := by
  intro c
  rw [Parser.bind, Traced.bind]
  have hc := hp c
  generalize p c = o, t c = r at hc ⊢
  cases hc with
  | done h => exact (hf _ _).recalling h
  | failed h => exact .failed h
  | stuck => exact .stuck

theorem Reports.orElse (hp : p.Reports t) (hq : q.Reports u) :
    (p.orElse q).Reports (t.orElse u) := by
  intro c
  rw [Parser.orElse, Traced.orElse]
  have hc := hp c
  generalize p c = o, t c = r at hc ⊢
  cases hc with
  | done h => exact .done h
  | failed h => exact (hq c).recalling h
  | stuck => exact .stuck

/-- Parsers that were tried before have failures to report too. -/
theorem reports_firstOf {ps : List (Parser α)} {ts : List (Traced α)}
    (h : List.Forall₂ Reports ps ts) {tried : Failure} (he : tried.Unites fs) (c : Cursor) :
    (firstOf (some tried) ps c).Reports ((Traced.firstOf ts c).following fs) := by
  induction h generalizing tried fs with
  | nil =>
    rw [firstOf, Traced.firstOf, Trace.following, List.append_nil]
    exact .failed he
  | @cons p t ps ts hp _ ih =>
    rw [firstOf, Traced.firstOf]
    have hc := hp c
    generalize p c = o, t c = r at hc ⊢
    cases hc with
    | done h => exact Outcome.Reports.recalling (.done h) he
    | failed h =>
      rw [Trace.following_following]
      exact ih (he.append h)
    | stuck => exact .stuck

theorem Reports.oneOf {ps : List (Parser α)} {ts : List (Traced α)}
    (h : List.Forall₂ Reports ps ts) : (oneOf ps).Reports (.oneOf ts) := by
  intro c
  cases h with
  | nil => exact reports_fail c
  | @cons p t ps ts hp h =>
    change (firstOf none (p :: ps) c).Reports (Traced.firstOf (t :: ts) c)
    rw [firstOf, Traced.firstOf]
    have hc := hp c
    generalize p c = o, t c = r at hc ⊢
    cases hc with
    | done h =>
      dsimp only
      rw [Outcome.recalling_none]
      exact .done h
    | failed hf => exact reports_firstOf h hf c
    | stuck => exact .stuck

theorem Reports.filter (hp : p.Reports t) (what : String) (keep : α → Bool) :
    (p.filter what keep).Reports (t.filter what keep) := by
  intro c
  rw [Parser.filter, Traced.filter]
  have hc := hp c
  generalize p c = o, t c = r at hc ⊢
  cases hc with
  | done h =>
    dsimp only
    split
    · exact .done h
    · exact .failed (Failure.unites_singleton _)
  | failed h => exact .failed h
  | stuck => exact .stuck

/-- A repetition that has rounds behind it. -/
theorem Reports.collect (hp : p.Reports t) (values : List α) (he : Summarizes fs e) (c : Cursor) :
    (collect p values e c).Reports ((t.many c).continuing values.reverse fs) := by
  induction hn : c.size using Nat.strongRecOn generalizing values e fs c with
  | _ n ih =>
    rw [Parser.collect, Traced.many]
    have hc := hp c
    generalize p c = o, t c = r at hc ⊢
    cases hc with
    | @done gs x a next h =>
      dsimp only
      split
      · next hlt =>
        rw [Trace.continuing_continuing, ← List.reverse_cons]
        exact ih next.size (hn ▸ hlt) _ (Failure.summarizes_append he h) next rfl
      · rw [Trace.continuing, ← List.reverse_cons]
        exact .done (Failure.summarizes_append he h)
    | failed h =>
      dsimp only
      rw [Trace.continuing, List.append_nil]
      exact .done (Failure.summarizes_append he h)
    | stuck => exact .stuck

theorem Reports.many (hp : p.Reports t) : (many p).Reports t.many := by
  intro c
  have h := hp.collect [] (e := none) rfl c
  rw [List.reverse_nil, Trace.continuing_nil] at h
  exact h

theorem Reports.atLeastOne (hp : p.Reports t) : (atLeastOne p).Reports t.atLeastOne := by
  intro c
  rw [Parser.atLeastOne, Traced.atLeastOne, Traced.bind]
  have hc := hp c
  generalize p c = o, t c = r at hc ⊢
  cases hc with
  | @done fs e a next h =>
    dsimp only
    rw [Trace.following_continuing]
    exact hp.collect [a] h next
  | failed h => exact .failed h
  | stuck => exact .stuck

theorem Reports.collectSeparated {q : Parser β} {u : Traced β} (hp : p.Reports t)
    (hq : q.Reports u) (hu : u.Silent) (values : List α) (he : Summarizes fs e) (c : Cursor) :
    (collectSeparated p q values e c).Reports ((t.rounds u c).continuing values.reverse fs) := by
  induction hn : c.size using Nat.strongRecOn generalizing values e fs c with
  | _ n ih =>
    rw [Parser.collectSeparated, Traced.rounds]
    have hc := hq c
    have hs := hu c
    generalize q c = o, u c = r at hc hs ⊢
    cases hc with
    | @done gs x b between hx =>
      obtain rfl := hs b between gs rfl
      have hb := hp between
      dsimp only
      generalize p between = o, t between = r at hb ⊢
      cases hb with
      | @done gs y a next h =>
        dsimp only
        split
        · next hlt =>
          rw [Trace.continuing_continuing, ← List.reverse_cons]
          have hxy := Failure.summarizes_append hx h
          exact ih next.size (hn ▸ hlt) _ (Failure.summarizes_append he hxy) next rfl
        · exact .stuck
      | failed h =>
        dsimp only
        rw [Trace.continuing, List.append_nil]
        exact .done (Failure.summarizes_append he h)
      | stuck => exact .stuck
    | failed h =>
      dsimp only
      rw [Trace.continuing, List.append_nil]
      exact .done (Failure.summarizes_append he h)
    | stuck => exact .stuck

theorem Reports.separatedBy {q : Parser β} {u : Traced β} (hp : p.Reports t) (hq : q.Reports u)
    (hu : u.Silent) : (separatedBy p q).Reports (t.separatedBy u) := by
  intro c
  rw [Parser.separatedBy, Traced.separatedBy, Traced.bind]
  have hc := hp c
  generalize p c = o, t c = r at hc ⊢
  cases hc with
  | @done fs e a next h =>
    dsimp only
    rw [Trace.following_continuing]
    exact hp.collectSeparated hq hu [a] h next
  | failed h => exact .failed h
  | stuck => exact .stuck

theorem reports_recursive {f : Parser α → Parser α} {g : Traced α → Traced α}
    (h : ∀ p t, p.Reports t → (f p).Reports (g t)) : Reports (recursive f) (.recursive g) := by
  intro c
  induction hn : c.size using Nat.strongRecOn generalizing c with
  | _ n ih =>
    rw [Parser.recursive, Traced.recursive]
    apply h
    intro d
    dsimp only
    split
    · next hlt => exact ih d.size (hn ▸ hlt) d rfl
    · exact .stuck

end Parser

def TracedHandles (Γ : List Type) : Type 1 := ∀ α, Handle α Γ → Traced α

namespace TracedHandles

def none : TracedHandles [] := nofun

def push (t : Traced α) (env : TracedHandles Γ) : TracedHandles (α :: Γ)
  | _, .innermost => t
  | _, .outer h => env _ h

end TracedHandles

namespace Peg

def trace : Peg Γ α → TracedHandles Γ → Traced α
  | token what scan, _ => Traced.token what scan
  | success a, _ => Traced.success a
  | fail, _ => Traced.fail
  | endOfInput, _ => Traced.endOfInput
  | bind p f, env => (p.trace env).bind fun a => (f a).trace env
  | orElse p q, env => (p.trace env).orElse (q.trace env)
  | choice _ ps, env => Traced.oneOf (List.ofFn fun i => (ps i).trace env)
  | filter what keep p, env => (p.trace env).filter what keep
  | many p, env => (p.trace env).many
  | atLeastOne p, env => (p.trace env).atLeastOne
  | separatedBy p separator, env => (p.trace env).separatedBy (separator.trace env)
  | recursive body, env => Traced.recursive fun self => body.trace (env.push self)
  | ref h, env => env _ h

def traceAt (p : Peg [] α) (text : List Char) (offset : Nat) : Trace α :=
  p.trace .none (.ofOffset text offset)

/-- A primitive, or several of them one after the other. -/
def Direct : Peg Γ α → Prop
  | token _ _ => True
  | success _ => True
  | fail => True
  | endOfInput => True
  | bind p f => p.Direct ∧ ∀ a, (f a).Direct
  | _ => False

def DirectSeparators : Peg Γ α → Prop
  | bind p f => p.DirectSeparators ∧ ∀ a, (f a).DirectSeparators
  | orElse p q => p.DirectSeparators ∧ q.DirectSeparators
  | choice _ ps => ∀ i, (ps i).DirectSeparators
  | filter _ _ p => p.DirectSeparators
  | many p => p.DirectSeparators
  | atLeastOne p => p.DirectSeparators
  | separatedBy p separator => p.DirectSeparators ∧ separator.Direct
  | recursive body => body.DirectSeparators
  | _ => True

theorem Direct.directSeparators {p : Peg Γ α} (h : p.Direct) : p.DirectSeparators := by
  induction p with
  | bind p f ihp ihf => exact ⟨ihp h.1, fun a => ihf a (h.2 a)⟩
  | token | success | fail | endOfInput => trivial
  | _ => exact h.elim

theorem Direct.silent {p : Peg Γ α} (h : p.Direct) (env : TracedHandles Γ) :
    (p.trace env).Silent := by
  induction p with
  | token what scan => exact Traced.silent_token what scan
  | success a => exact Traced.silent_success a
  | fail => nofun
  | endOfInput => exact Traced.silent_endOfInput
  | bind p f ihp ihf => exact (ihp h.1 env).bind fun a => ihf a (h.2 a) env
  | _ => exact h.elim

theorem reports_trace {p : Peg Γ α} (h : p.DirectSeparators) {env : Handles Γ}
    {tenv : TracedHandles Γ} (henv : ∀ β (x : Handle β Γ), (env β x).Reports (tenv β x)) :
    (p.denote env).Reports (p.trace tenv) := by
  induction p with
  | token what scan => exact Parser.reports_token what scan
  | success a => exact Parser.reports_success a
  | fail => exact Parser.reports_fail
  | endOfInput => exact Parser.reports_endOfInput
  | bind p f ihp ihf => exact (ihp h.1 henv).bind fun a => ihf a (h.2 a) henv
  | orElse p q ihp ihq => exact (ihp h.1 henv).orElse (ihq h.2 henv)
  | choice n ps ih =>
    apply Parser.Reports.oneOf
    rw [List.forall₂_iff_get]
    refine ⟨by simp, ?_⟩
    intro i hi hi'
    rw [List.get_eq_getElem, List.get_eq_getElem, List.getElem_ofFn, List.getElem_ofFn]
    exact ih _ (h _) henv
  | filter what keep p ih => exact (ih h henv).filter what keep
  | many p ih => exact (ih h henv).many
  | atLeastOne p ih => exact (ih h henv).atLeastOne
  | separatedBy p q ihp ihq =>
    exact (ihp h.1 henv).separatedBy (ihq h.2.directSeparators henv) (h.2.silent tenv)
  | recursive body ih =>
    apply Parser.reports_recursive
    intro p t hpt
    apply ih h
    intro β x
    cases x with
    | innermost => exact hpt
    | outer x => exact henv β x
  | ref x => exact henv _ x

/-- Where only primitives separate, a success keeps in mind, and a failure tells, the union of the
furthest of all the failures of the run. -/
theorem reports_traceAt {p : Peg [] α} (h : p.DirectSeparators) (text : List Char) (offset : Nat) :
    (p.parser.parseAt text offset).Reports (p.traceAt text offset) := by
  have henv : ∀ β (x : Handle β []), (Handles.none β x).Reports (TracedHandles.none β x) := nofun
  exact reports_trace h henv (.ofOffset text offset)

/-- The last separator is given back, and what was expected after it is reported. -/
theorem reports_traceAt_list :
    let p : Peg [] (List Char) := ((char 'a').orElse (char 'b')).separatedBy (char ',')
    let t : Trace (List Char) := .done ['a', 'b'] ⟨3, some [',', 'c']⟩
      [.expecting 2 "'a'", .expecting 4 "'a'", .expecting 4 "'b'"]
    p.DirectSeparators ∧ p.traceAt "a,b,c".toList 0 = t ∧
      (p.parser.parseAt "a,b,c".toList 0).Reports t := by
  intro p t
  have hp : p.DirectSeparators := ⟨⟨trivial, trivial⟩, trivial⟩
  have ht : p.traceAt "a,b,c".toList 0 = t := by decide +kernel +zetaReduce
  have h := reports_traceAt hp "a,b,c".toList 0
  rw [ht] at h
  exact ⟨hp, ht, h⟩

end Peg

end PatternGen
