import PatternGen.Random.Source

namespace PatternGen

inductive Gen (α : Type) where
  | constant (a : α)
  | draw (d : Draw) (next : Fin d.size → Gen α)

namespace Gen

/-- The value drawn from a source in a state, and its state afterwards; none if a draw was asked
for that has no answer. -/
def run (m : Sampler σ) : Gen α → σ → Option (α × σ)
  | constant a, s => some (a, s)
  | draw d next, s =>
    if h : 0 < d.size then
      match m.draw d h s with
      | (i, s) => (next i).run m s
    else none

def runTimes (m : Sampler σ) (g : Gen α) (acc : List α) : Nat → σ → Option (List α × σ)
  | 0, s => some (acc.reverse, s)
  | n + 1, s => (g.run m s).bind fun (a, s) => runTimes m g (a :: acc) n s

def bind : Gen α → (α → Gen β) → Gen β
  | constant a, f => f a
  | draw d next, f => draw d fun i => (next i).bind f

theorem bind_assoc (g : Gen α) (f : α → Gen β) (h : β → Gen γ) :
    (g.bind f).bind h = g.bind fun a => (f a).bind h := by
  induction g with
  | constant a => rfl
  | draw d next ih => exact congrArg (draw d) (funext ih)

theorem run_bind (m : Sampler σ) (g : Gen α) (f : α → Gen β) (s : σ) :
    (g.bind f).run m s = (g.run m s).bind fun r => (f r.1).run m r.2 := by
  induction g generalizing s with
  | constant a => rfl
  | draw d next ih =>
    rw [bind, run, run]
    split
    · next h => exact ih _ _
    · rfl

def map (f : α → β) (g : Gen α) : Gen β := g.bind fun a => constant (f a)

def zip (g : Gen α) (h : Gen β) : Gen (α × β) := g.bind fun a => h.map fun b => (a, b)

def choose (w : Width) (n : Nat) : Gen (Fin n) := draw (.below w n) constant

/-- What is there, and otherwise a draw without an answer. -/
def found : Option α → Gen α
  | some a => constant a
  | none => draw (.below .word64 0) fun i => i.elim0

/-- The values of several generators in a row, after those drawn before, the latest first. -/
def pivotOnto (drawn : List α) : List (Gen α) → Gen (List α)
  | [] => constant drawn.reverse
  | g :: gs => g.bind fun a => pivotOnto (a :: drawn) gs

def pivot (gs : List (Gen α)) : Gen (List α) := pivotOnto [] gs

def sequenceOnto (g : Gen α) (drawn : List α) : Nat → Gen (List α)
  | 0 => constant drawn.reverse
  | n + 1 => g.bind fun a => sequenceOnto g (a :: drawn) n

def sequence (g : Gen α) (length : Nat) : Gen (List α) := sequenceOnto g [] length

/-- First a length from `min` up to but not including `max`, then that many values. -/
def sequenceIn (g : Gen α) (min max : Nat) : Gen (List α) :=
  (choose .word64 (max - min)).bind fun i => g.sequence (min + i)

/-- A list in which an item has landed on a slot whose former occupant moves to the end. The slot
past the end is the item's own. -/
def land (done : List α) (a : α) (slot : Nat) : List α :=
  match done[slot]? with
  | none => done ++ [a]
  | some b => done.set slot a ++ [b]

def shuffleOnto (done : List α) : List α → Gen (List α)
  | [] => constant done
  | a :: items =>
    (choose .word64 (done.length + 1)).bind fun slot => shuffleOnto (land done a slot) items

/-- The items in any order: each lands on a slot among those before it and its own. -/
def shuffle (items : List α) : Gen (List α) := shuffleOnto [] items

end Gen

end PatternGen
