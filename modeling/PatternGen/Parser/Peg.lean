import PatternGen.Parser.Basic
import PatternGen.Text.Basic
import PatternGen.Text.Quoted

namespace PatternGen

open Text

/-- A reference to one of the recursive parsers around an expression, counted from the inside, that
reads an `α`. -/
inductive Handle (α : Type) : List Type → Type 1 where
  | innermost {Γ : List Type} : Handle α (α :: Γ)
  | outer {β : Type} {Γ : List Type} (h : Handle α Γ) : Handle α (β :: Γ)

/-- Parser expressions that read an `α` inside recursive parsers of the types `Γ`. -/
inductive Peg : List Type → Type → Type 1 where
  | token {Γ : List Type} {α : Type} (what : String) (scan : List Char → Option (α × Nat)) : Peg Γ α
  | success {Γ : List Type} {α : Type} (a : α) : Peg Γ α
  | fail {Γ : List Type} {α : Type} : Peg Γ α
  | endOfInput {Γ : List Type} : Peg Γ Unit
  | bind {Γ : List Type} {α β : Type} (p : Peg Γ α) (f : α → Peg Γ β) : Peg Γ β
  | orElse {Γ : List Type} {α : Type} (p q : Peg Γ α) : Peg Γ α
  | choice {Γ : List Type} {α : Type} (n : Nat) (ps : Fin n → Peg Γ α) : Peg Γ α
  | filter {Γ : List Type} {α : Type} (what : String) (keep : α → Bool) (p : Peg Γ α) : Peg Γ α
  | many {Γ : List Type} {α : Type} (p : Peg Γ α) : Peg Γ (List α)
  | atLeastOne {Γ : List Type} {α : Type} (p : Peg Γ α) : Peg Γ (List α)
  | separatedBy {Γ : List Type} {α β : Type} (p : Peg Γ α) (separator : Peg Γ β) : Peg Γ (List α)
  | recursive {Γ : List Type} {α : Type} (body : Peg (α :: Γ) α) : Peg Γ α
  | ref {Γ : List Type} {α : Type} (h : Handle α Γ) : Peg Γ α

def Handles (Γ : List Type) : Type 1 := ∀ α, Handle α Γ → Parser α

namespace Handles

def none : Handles [] := nofun

def push (p : Parser α) (env : Handles Γ) : Handles (α :: Γ)
  | _, .innermost => p
  | _, .outer h => env _ h

end Handles

namespace Peg

/-- The parser that an expression stands for, given those that its handles stand for. -/
def denote : Peg Γ α → Handles Γ → Parser α
  | token what scan, _ => Parser.token what scan
  | success a, _ => Parser.success a
  | fail, _ => Parser.fail
  | endOfInput, _ => Parser.endOfInput
  | bind p f, env => Parser.bind (p.denote env) fun a => (f a).denote env
  | orElse p q, env => Parser.orElse (p.denote env) (q.denote env)
  | choice _ ps, env => Parser.oneOf (List.ofFn fun i => (ps i).denote env)
  | filter what keep p, env => Parser.filter what keep (p.denote env)
  | many p, env => Parser.many (p.denote env)
  | atLeastOne p, env => Parser.atLeastOne (p.denote env)
  | separatedBy p separator, env => Parser.separatedBy (p.denote env) (separator.denote env)
  | recursive body, env => Parser.recursive fun self => body.denote (env.push self)
  | ref h, env => env _ h

def parser (p : Peg [] α) : Parser α := p.denote .none

def oneOf (ps : List (Peg Γ α)) : Peg Γ α := choice ps.length ps.get

def map (f : α → β) (p : Peg Γ α) : Peg Γ β := p.bind fun a => success (f a)

def zip (p : Peg Γ α) (q : Peg Γ β) : Peg Γ (α × β) := p.bind fun a => q.map fun b => (a, b)

/-- One expression after the other, for the value of the first. -/
def thenIgnore (p : Peg Γ α) (q : Peg Γ β) : Peg Γ α := (p.zip q).map (·.1)

def ignoreThen (p : Peg Γ α) (q : Peg Γ β) : Peg Γ β := p.bind fun _ => q

def optional (p : Peg Γ α) : Peg Γ (Option α) := (p.map some).orElse (success none)

/-- Refuses one value, which messages call `name`. -/
def except [BEq α] (p : Peg Γ α) (name : String) (item : α) : Peg Γ α :=
  p.filter ("anything but " ++ name) (· != item)

def literal (s : String) : Peg Γ String :=
  token (quoted s) fun cs => if s.toList.isPrefixOf cs then some (s, s.length) else none

def anyChar : Peg Γ Char := token "any character" fun cs => cs.head?.map (·, 1)

def char (c : Char) : Peg Γ Char :=
  token (quotedChar c) fun cs => if cs.head? = some c then some (c, 1) else none

/-- The longest run of characters of a kind, unless it is empty. -/
def run (what : String) (kind : Char → Bool) : Peg Γ (List Char) :=
  token what fun cs =>
    let s := cs.takeWhile kind
    if s.isEmpty then none else some (s, s.length)

/-- A number below 2^32 in decimal digits. A longer run of digits fails after its last one. -/
def integer : Peg Γ UInt32 :=
  (run "/[0-9]+/" Char.isDigit).bind fun digits => (count? digits).elim fail success

end Peg

end PatternGen
