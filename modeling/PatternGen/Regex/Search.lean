import PatternGen.Regex.Reader
import PatternGen.Regex.Size
import PatternGen.Regex.Token
import Std.Data.TreeSet.Lemmas

namespace PatternGen.Regex

/-- A program ends when it goes on after its last instruction. The others go on with the next one
unless they say otherwise. -/
inductive Instruction where
  | read (set : CharSet)
  | check (a : Assertion)
  /-- A group begins or ends at the place: group `i` has the marks `2 * i` and `2 * i + 1`. -/
  | mark (m : Nat)
  | jump (target : Nat)
  | split (preferred other : Nat)
  deriving DecidableEq

abbrev Program := Array Instruction

namespace Program

/-- A choice between going on with the next part, which is preferred if `greedy` holds, and leaving
it out. -/
def fork (greedy : Bool) (part leave : Nat) : Instruction :=
  if greedy then .split part leave else .split leave part

def appendTimes (append : Program → Program) : Nat → Program → Program
  | 0, p => p
  | n + 1, p => appendTimes append n (append p)

/-- Appends a part up to `n` times. To leave out one of them is to leave out those after it, so all
leave to one place. -/
def appendUpTo (append : Program → Program) (greedy : Bool) (leave : Nat) : Nat → Program → Program
  | 0, p => p
  | n + 1, p =>
    appendUpTo append greedy leave n (append (p.push (fork greedy (p.size + 1) leave)))

end Program

def width : Regex → Nat
  | empty => 0
  | text cs => cs.length
  | charIn _ | check _ => 1
  | append r s => r.width + s.width
  | orElse r s => r.width + s.width + 2
  | group _ r => r.width + 2
  | repeated r lo hi _ =>
    match lo, hi with
    | 0, none => r.width + 2
    | lo + 1, none => (lo + 1) * r.width + 1
    | lo, some hi => lo * r.width + (hi - lo) * (r.width + 1)

/-- Appends an expression to a program. A loop that can go round without taking a character decides
after each round whether another follows, and any other loop returns to its beginning to decide. -/
def appendTo (p : Program) : Regex → Program
  | empty => p
  | text cs => cs.foldl (fun p c => p.push (.read (.single c))) p
  | charIn set => p.push (.read set)
  | check a => p.push (.check a)
  | append r s => s.appendTo (r.appendTo p)
  | orElse r s =>
    let other := p.size + 1 + r.width + 1
    let p := r.appendTo (p.push (.split (p.size + 1) other))
    s.appendTo (p.push (.jump (other + s.width)))
  | group i r => (r.appendTo (p.push (.mark (2 * i)))).push (.mark (2 * i + 1))
  | repeated r lo hi greedy =>
    match lo, hi with
    | 0, none =>
      let fork := Program.fork greedy (p.size + 1) (p.size + 1 + r.width + 1)
      (r.appendTo (p.push fork)).push (if r.mayBeEmpty then fork else .jump p.size)
    | lo + 1, none =>
      let p := Program.appendTimes r.appendTo lo p
      let start := p.size
      let p := r.appendTo p
      p.push (Program.fork greedy start (p.size + 1))
    | lo, some hi =>
      let p := Program.appendTimes r.appendTo lo p
      Program.appendUpTo r.appendTo greedy (p.size + (hi - lo) * (r.width + 1)) (hi - lo) p

def program (r : Regex) : Program := r.appendTo #[]

/-- The marks that were set, with their places, the latest first. -/
abbrev Marks := List (Nat × Nat)

def Marks.span? (marks : Marks) (group : Nat) : Option (Nat × Nat) := do
  return (← marks.lookup (2 * group), ← marks.lookup (2 * group + 1))

/-- A way through a program: the next instruction, the number of characters passed, the last of
them, and the characters left. -/
structure Way where
  next : Nat
  passed : Nat
  before : Option Char
  rest : List Char
  marks : Marks

namespace Way

def start (text : List Char) (place : Nat) : Way :=
  ⟨0, place, (text.take place).getLast?, text.drop place, []⟩

/-- How a way can go on after an instruction, the preferred one first. -/
def follow (w : Way) : Instruction → List Way
  | .read set =>
    match w.rest with
    | [] => []
    | c :: rest =>
      if set.contains c then
        [{ w with next := w.next + 1, passed := w.passed + 1, before := some c, rest }]
      else []
  | .check a => if a.holds w.before w.rest.head? then [{ w with next := w.next + 1 }] else []
  | .mark m => [{ w with next := w.next + 1, marks := (m, w.passed) :: w.marks }]
  | .jump target => [{ w with next := target }]
  | .split preferred other => [{ w with next := preferred }, { w with next := other }]

theorem length_follow_le (w : Way) (i : Instruction) : (w.follow i).length ≤ 2 := by
  cases i <;> grind [follow]

end Way

namespace Program

/-- Tries ways one after the other. `seen` holds the instructions and places that ways have been at,
as one number each; there are `states` of them in all. -/
def run (p : Program) (states : Nat) (seen : Std.TreeSet Nat) : List Way → Option Way
  | [] => none
  | w :: ws =>
    match p[w.next]? with
    | none => some w
    | some i =>
      let state := w.passed * p.size + w.next
      if seen.contains state then run p states seen ws
      else if seen.size < states then run p states (seen.insert state) (w.follow i ++ ws)
      else none
termination_by ws => 2 * (states - seen.size) + ws.length
decreasing_by
  · simp
  · next hseen hsize =>
    have hi := w.length_follow_le i
    have hinsert : (seen.insert state).size = seen.size + 1 := by
      rw [Std.TreeSet.size_insert, if_neg hseen]
    rw [hinsert, List.length_append, List.length_cons]
    omega

end Program

/-- The number of constructs that may stand inside each other. -/
def depthLimit : Nat := 250

structure Search where
  program : Program
  groups : Nat

namespace Search

/-- The search for the expression that a text stands for; none if the text is no expression, or one
that nests too deeply or is too large. -/
def ofText? (text : List Char) : Option Search :=
  (read? text).bind fun r =>
    if depthLimit < r.depth || r.plain.isTooLarge then none else some ⟨r.plain.program, r.groups⟩

def matchAt? (s : Search) (text : List Char) (place : Nat) : Option Captures :=
  (s.program.run (s.program.size * (text.length + 1)) {} [.start text place]).map fun w =>
    some (place, w.passed) :: (List.range s.groups).map fun i => w.marks.span? (i + 1)

def find? (s : Search) (text : List Char) : Option Captures :=
  (List.range (text.length + 1)).findSome? (s.matchAt? text)

end Search

/-- An engine for a part of the usual notation. -/
def engine : Engine where
  search? text := (Search.ofText? text.toList).map Search.find?

end PatternGen.Regex
