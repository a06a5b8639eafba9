import PatternGen.Proofs.Parser.Rules

namespace PatternGen

deriving instance DecidableEq for Outcome

/-- The outcome with another value in case of success. -/
def Outcome.map (f : α → β) : Outcome α → Outcome β
  | done a next furthest => done (f a) next furthest
  | failed e => failed e
  | stuck fault => stuck fault

namespace Parser

def map (f : α → β) (p : Parser α) : Parser β := fun c => (p c).map f

def zip (p : Parser α) (q : Parser β) : Parser (α × β) := p.bind fun a => q.map fun b => (a, b)

def thenIgnore (p : Parser α) (q : Parser β) : Parser α := (p.zip q).map (·.1)

def ignoreThen (p : Parser α) (q : Parser β) : Parser β := p.bind fun _ => q

variable {α β γ δ : Type}

theorem success_bind (a : α) (f : α → Parser β) : (success a).bind f = f a := by
  funext c
  rw [bind, success]
  exact Outcome.recalling_none _

theorem bind_success (p : Parser α) : p.bind success = p := by
  funext c
  rw [bind]
  cases p c with
  | done a d e => simp [success, Outcome.recalling]
  | failed f => rfl
  | stuck fault => rfl

/-- Whichever step fails, the failures swept aside before it are merged from the left or from the
right. -/
theorem bind_assoc (p : Parser α) (f : α → Parser β) (g : β → Parser γ) :
    (p.bind f).bind g = p.bind fun a => (f a).bind g := by
  funext c
  rw [bind, bind, bind]
  cases p c with
  | done a d e =>
    dsimp only
    rw [bind]
    cases f a d with
    | done b m x => exact (Outcome.recalling_recalling e x (g b m)).symm
    | failed x => rfl
    | stuck fault => rfl
  | failed x => rfl
  | stuck fault => rfl

theorem map_eq_bind (f : α → β) (p : Parser α) : p.map f = p.bind fun a => success (f a) := by
  funext c
  rw [map, bind]
  cases p c with
  | done a d e => simp [success, Outcome.recalling, Outcome.map]
  | failed x => rfl
  | stuck fault => rfl

theorem map_bind (p : Parser α) (f : α → Parser β) (g : β → γ) :
    (p.bind f).map g = p.bind fun a => (f a).map g := by
  simp only [map_eq_bind, bind_assoc]

theorem bind_map (p : Parser α) (f : α → β) (g : β → Parser γ) :
    (p.map f).bind g = p.bind fun a => g (f a) := by
  simp only [map_eq_bind, bind_assoc, success_bind]

theorem map_map (p : Parser α) (f : α → β) (g : β → γ) :
    (p.map f).map g = p.map fun a => g (f a) := by
  simp only [map_eq_bind, bind_assoc, success_bind]

theorem zip_assoc (p : Parser α) (q : Parser β) (r : Parser γ) :
    (p.zip q).zip r = (p.zip (q.zip r)).map fun x => ((x.1, x.2.1), x.2.2) := by
  simp only [zip, map_bind, map_map, bind_assoc, bind_map]

theorem thenIgnore_assoc (p : Parser α) (q : Parser β) (r : Parser γ) :
    (p.thenIgnore q).thenIgnore r = p.thenIgnore (q.thenIgnore r) := by
  simp only [thenIgnore, zip, map_bind, map_map, bind_assoc, bind_map]

theorem ignoreThen_assoc (p : Parser α) (q : Parser β) (r : Parser γ) :
    (p.ignoreThen q).ignoreThen r = p.ignoreThen (q.ignoreThen r) := bind_assoc p _ _

/-- Runs the parsers one after the other. -/
def inOrder (ps : List (Parser Unit)) : Parser Unit := ps.foldr ignoreThen (success ())

theorem inOrder_append (ps qs : List (Parser Unit)) :
    inOrder (ps ++ qs) = (inOrder ps).ignoreThen (inOrder qs) := by
  induction ps with
  | nil => exact (success_bind () fun _ => inOrder qs).symm
  | cons p ps ih =>
    change p.ignoreThen (inOrder (ps ++ qs)) = _
    rw [ih, ← ignoreThen_assoc]
    rfl

theorem inOrder_singleton (p : Parser Unit) : inOrder [p] = p := bind_success p

end Parser

namespace Peg

variable {Γ : List Type} {α β : Type}

theorem denote_map (f : α → β) (p : Peg Γ α) (env : Handles Γ) :
    (p.map f).denote env = (p.denote env).map f :=
  (Parser.map_eq_bind f (p.denote env)).symm

theorem denote_zip (p : Peg Γ α) (q : Peg Γ β) (env : Handles Γ) :
    (p.zip q).denote env = (p.denote env).zip (q.denote env) := by
  rw [zip, denote_bind, Parser.zip]
  simp only [denote_map]

theorem denote_thenIgnore (p : Peg Γ α) (q : Peg Γ β) (env : Handles Γ) :
    (p.thenIgnore q).denote env = (p.denote env).thenIgnore (q.denote env) := by
  rw [thenIgnore, denote_map, denote_zip, Parser.thenIgnore]

theorem denote_ignoreThen (p : Peg Γ α) (q : Peg Γ β) (env : Handles Γ) :
    (p.ignoreThen q).denote env = (p.denote env).ignoreThen (q.denote env) := rfl

end Peg

/-- Parsers one after the other, with the brackets between them and the values that are kept. -/
inductive Row : Type → Type 1 where
  | one {α : Type} (p : Parser α) : Row α
  | zip {α β : Type} (s : Row α) (t : Row β) : Row (α × β)
  | thenIgnore {α β : Type} (s : Row α) (t : Row β) : Row α
  | ignoreThen {α β : Type} (s : Row α) (t : Row β) : Row β

namespace Row

def parser : Row α → Parser α
  | one p => p
  | zip s t => s.parser.zip t.parser
  | thenIgnore s t => s.parser.thenIgnore t.parser
  | ignoreThen s t => s.parser.ignoreThen t.parser

/-- The parsers from the first to the last, without their values. -/
def parts : Row α → List (Parser Unit)
  | one p => [p.map fun _ => ()]
  | zip s t => s.parts ++ t.parts
  | thenIgnore s t => s.parts ++ t.parts
  | ignoreThen s t => s.parts ++ t.parts

theorem map_parser_eq_inOrder (s : Row α) : (s.parser.map fun _ => ()) = .inOrder s.parts := by
  induction s with
  | one p => exact (Parser.inOrder_singleton _).symm
  | zip s t ihs iht =>
    rw [parts, Parser.inOrder_append, ← ihs, ← iht]
    simp only [parser, Parser.zip, Parser.ignoreThen, Parser.map_bind, Parser.map_map,
      Parser.bind_map]
  | thenIgnore s t ihs iht =>
    rw [parts, Parser.inOrder_append, ← ihs, ← iht]
    simp only [parser, Parser.thenIgnore, Parser.zip, Parser.ignoreThen, Parser.map_bind,
      Parser.map_map, Parser.bind_map]
  | ignoreThen s t ihs iht =>
    rw [parts, Parser.inOrder_append, ← ihs, ← iht]
    simp only [parser, Parser.ignoreThen, Parser.map_bind, Parser.bind_map]

end Row

namespace Parser

/-- The laws hold of the failure that is reported and of those swept aside as well. -/
theorem bind_laws {α β γ δ : Type} (a : α) (p : Parser α) (f : α → Parser β) (g : β → Parser γ)
    (q : Parser β) (r : Parser γ) (s : Row δ) :
    (success a).bind f = f a ∧ p.bind success = p ∧
    ((p.bind f).bind g = p.bind fun a => (f a).bind g) ∧
    ((p.zip q).zip r = (p.zip (q.zip r)).map fun x => ((x.1, x.2.1), x.2.2)) ∧
    (p.thenIgnore q).thenIgnore r = p.thenIgnore (q.thenIgnore r) ∧
    (p.ignoreThen q).ignoreThen r = p.ignoreThen (q.ignoreThen r) ∧
    (s.parser.map fun _ => ()) = inOrder s.parts :=
  ⟨success_bind a f, bind_success p, bind_assoc p f g, zip_assoc p q r, thenIgnore_assoc p q r,
    ignoreThen_assoc p q r, s.map_parser_eq_inOrder⟩

end Parser

end PatternGen
