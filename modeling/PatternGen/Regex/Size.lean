import PatternGen.Regex.Basic
import PatternGen.Text.Basic

namespace PatternGen.Text

/-- Ranges of bytes with both ends included, one for each byte. -/
abbrev ByteRow := List (Nat × Nat)

def utf8 (n : Nat) : List Nat :=
  let trailing (shift : Nat) : Nat := 0x80 + n / (1 <<< shift) % 64
  if n < 0x80 then [n]
  else if n < 0x800 then [0xc0 + n / 64, trailing 0]
  else if n < 0x10000 then [0xe0 + n / 4096, trailing 6, trailing 0]
  else [0xf0 + n / 262144, trailing 12, trailing 6, trailing 0]

/-- The rows of the byte texts from `lo` to `hi`, which are of one length. Bytes but the first run
from 0x80 to 0xbf. -/
def rowsBetween : (lo hi : List Nat) → List ByteRow
  | a :: as, b :: bs =>
    let beginning (c : Nat) (rows : List ByteRow) := rows.map ((c, c) :: ·)
    if as = [] then [[(a, b)]]
    else if a = b then beginning a (rowsBetween as bs)
    else
      let low := if as.all (· = 0x80) then [] else
        beginning a (rowsBetween as (as.map fun _ => 0xbf))
      let high := if bs.all (· = 0xbf) then [] else
        beginning b (rowsBetween (as.map fun _ => 0x80) bs)
      let first := if low.isEmpty then a else a + 1
      let last := if high.isEmpty then b else b - 1
      let middle := if first ≤ last then [(first, last) :: as.map fun _ => (0x80, 0xbf)] else []
      low ++ middle ++ high
  | _, _ => []
termination_by lo => lo.length

/-- The code points whose forms are of one length, without surrogates. -/
def utf8Blocks : List (Nat × Nat) :=
  [(0, 0x7f), (0x80, 0x7ff), (0x800, 0xd7ff), (0xe000, 0xffff), (0x10000, 0x10ffff)]

/-- The rows of the characters from code point `lo` to `hi`. -/
def rowsOfRange (lo hi : Nat) : List ByteRow :=
  utf8Blocks.flatMap fun (a, b) =>
    if max lo a ≤ min hi b then rowsBetween (utf8 (max lo a)) (utf8 (min hi b)) else []

/-- What can follow each of the byte ranges that rows begin with. -/
def rowsAfter (rows : List ByteRow) : List (List ByteRow) :=
  (rows.splitBy fun r s => r.head? == s.head?).map (·.map List.tail)

/-- The number of ranges that two rows share at their beginning. -/
def sharedRanges : ByteRow → ByteRow → Nat
  | a :: as, b :: bs => if a = b then sharedRanges as bs + 1 else 0
  | _, _ => 0

end PatternGen.Text

namespace PatternGen.Regex

open Text

/-- Bytes of memory. Where a part ends with a choice that is left open, what follows costs an entry
more. -/
structure Size where
  bytes : Nat
  isOpen : Bool

namespace Size

/-- A state; an entry of a choice takes 4 bytes, and a range of bytes with what follows it 8. -/
def state : Nat := 32

def closed (bytes : Nat) : Size := ⟨bytes, false⟩

/-- With the entry that leads on to what follows. -/
def joined (s : Size) : Nat := s.bytes + if s.isOpen then 4 else 0

def followedBy (s t : Size) : Size := ⟨s.joined + t.bytes, t.isOpen⟩

def copies (s : Size) (n : Nat) : Size :=
  if n = 0 then closed state else ⟨(n - 1) * s.joined + s.bytes, s.isOpen⟩

def choice (parts : List Size) : Size :=
  closed <| parts.foldl (fun bytes s => bytes + s.joined + 4) (2 * state)

/-- Rounds of a part that can match the empty text if `idle` holds. -/
def rounds (s : Size) (idle : Bool) : (lo : Nat) → (hi : Option Nat) → Size
  | 0, none => if idle then closed (s.joined + 3 * state + 16) else ⟨s.joined + state + 4, true⟩
  | 0, some 1 => closed (s.joined + 2 * state + 8)
  | n + 1, none => ⟨n * s.joined + s.joined + state + 4, true⟩
  | lo, some hi =>
    if lo = hi then s.copies lo
    else closed ((s.copies lo).joined + state + (hi - lo) * (state + 8 + s.joined))

end Size

/-- What the size of an automaton depends on besides the expression. -/
structure Direction where
  /-- The size of a set of characters, given by the rows of its members. -/
  rows : List ByteRow → Nat
  /-- The size of the marks around a group. -/
  marks : Nat
  /-- Whether every match has to stand at the end of the text from which it is read. -/
  isAnchored : Regex → Bool

def isAnchoredAtEnd : Regex → Bool
  | check a => a = .endOfText
  | append r s => s.isAnchoredAtEnd || s.maxLength? = some 0 && r.isAnchoredAtEnd
  | orElse r s => r.isAnchoredAtEnd && s.isAnchoredAtEnd
  | group _ r => r.isAnchoredAtEnd
  | repeated r min _ _ => min != 0 && r.isAnchoredAtEnd
  | _ => false

namespace Direction

/-- Of a set, what can follow its first bytes is shared. -/
def forward : Direction where
  rows rows :=
    let next (nodes : List (List ByteRow)) := nodes.flatMap fun rows =>
      (rowsAfter rows).filter (· != [[]])
    let second := next [rows]
    let third := next second
    let nodes := (rows :: second ++ third ++ next third).eraseDups
    nodes.foldl (fun bytes rows => bytes + Size.state + 8 * (rowsAfter rows).length) Size.state
  marks := 2 * Size.state
  isAnchored := Regex.isAnchored

/-- Of a set, what its last bytes can follow is shared. -/
def backward : Direction where
  rows rows :=
    let new (row previous : ByteRow) := 4 + Size.state * (row.length - sharedRanges row previous)
    (rows.zipWith new ([] :: rows)).foldl (· + ·) (2 * Size.state)
  marks := 0
  isAnchored := isAnchoredAtEnd

end Direction

def CharSet.codePointRuns (s : CharSet) : List (Nat × Nat) :=
  let codePoint (n : Nat) := if n < 0xd800 then n else n + 0x800
  s.runs.map fun (lo, hi) => (codePoint lo, codePoint hi)

def CharSet.size (d : Direction) (s : CharSet) : Nat :=
  let runs := s.codePointRuns
  if runs.all (·.2 < 0x80) then 2 * Size.state + 8 * runs.length
  else d.rows (runs.flatMap fun (lo, hi) => rowsOfRange lo hi)

def branchSizes (d : Direction) : Regex → List Size
  | empty | check _ => [.closed Size.state]
  | text cs => [.closed (Size.state * byteSize cs)]
  | charIn set => [.closed (set.size d)]
  | append r s => [(join (r.branchSizes d)).followedBy (join (s.branchSizes d))]
  | orElse r s => join (r.branchSizes d) :: s.branchSizes d
  | group _ r => [.closed ((join (r.branchSizes d)).joined + d.marks)]
  | repeated r lo hi _ => [(join (r.branchSizes d)).rounds r.mayBeEmpty lo hi]
where
  /-- A single branch is no choice. -/
  join : List Size → Size
    | [s] => s
    | parts => Size.choice parts

def size (d : Direction) (r : Regex) : Size := branchSizes.join (r.branchSizes d)

/-- The memory for a search: the states that pass over what is read before a match, the expression
as a group, and the state at the end. -/
def searchBytes (d : Direction) (r : Regex) : Nat :=
  (if d.isAnchored r then Size.state else 3 * Size.state + 16) + ((group 0 r).size d).bytes +
    Size.state

def memoryLimit : Nat := 10 * 1024 * 1024

def isTooLarge (r : Regex) : Bool :=
  memoryLimit < r.searchBytes .forward || memoryLimit < r.searchBytes .backward

end PatternGen.Regex
