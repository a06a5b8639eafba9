import PatternGen.Text.Basic

namespace PatternGen

open Text

inductive ClassItem where
  | single (c : Char)
  /-- Both ends are included; a range whose ends are exchanged is empty. -/
  | range (first last : Char)
  deriving DecidableEq, Repr

namespace ClassItem

def count : ClassItem → Nat
  | single _ => 1
  | range first last => ordinal last + 1 - ordinal first

/-- The characters of an item in ascending order. -/
def get? (e : ClassItem) (i : Nat) : Option Char :=
  if i < e.count then
    match e with
    | single c => some c
    | range first _ => ofOrdinal? (ordinal first + i)
  else none

theorem isSome_get?_iff {e : ClassItem} {i : Nat} : (e.get? i).isSome ↔ i < e.count := by
  unfold get?
  split
  · next h =>
    cases e with
    | single c => simpa using h
    | range first last =>
      have hl := ordinal_lt last
      have hc : i < ordinal last + 1 - ordinal first := h
      exact ⟨fun _ => h, fun _ => isSome_ofOrdinal? (by omega)⟩
  · next h => exact ⟨nofun, fun hi => (h hi).elim⟩

def chars (e : ClassItem) : List Char := (List.range e.count).filterMap e.get?

def contains : ClassItem → Char → Bool
  | single s, c => s == c
  | range first last, c => first ≤ c && c ≤ last

def print : ClassItem → List Char
  | single c => [c]
  | range first last => [first, '-', last]

end ClassItem

structure CharClass where
  negated : Bool
  items : List ClassItem
  deriving DecidableEq, Repr

namespace CharClass

def countItems : List ClassItem → Nat
  | [] => 0
  | e :: items => e.count + countItems items

/-- The characters that items list, those of the first item first. -/
def getItem? : List ClassItem → Nat → Option Char
  | [], _ => none
  | e :: items, i => if i < e.count then e.get? i else getItem? items (i - e.count)

theorem isSome_getItem?_iff {items : List ClassItem} {i : Nat} :
    (getItem? items i).isSome ↔ i < countItems items := by
  induction items generalizing i with
  | nil => simp [getItem?, countItems]
  | cons e items ih =>
    rw [getItem?, countItems]
    split
    · next h => exact ⟨fun _ => by omega, fun _ => ClassItem.isSome_get?_iff.2 h⟩
    · next h => rw [ih]; omega

def count (k : CharClass) : Nat := countItems k.items

def get? (k : CharClass) (i : Nat) : Option Char := getItem? k.items i

/-- The listed characters, as often as they are listed. -/
def chars (k : CharClass) : List Char := k.items.flatMap ClassItem.chars

def contains (k : CharClass) (c : Char) : Bool := k.items.any (·.contains c)

/-- The character belongs to the class. -/
def accepts (k : CharClass) (c : Char) : Bool := k.contains c != k.negated

def printBody (k : CharClass) : List Char :=
  (if k.negated then ['^'] else []) ++ k.items.flatMap ClassItem.print

def print (k : CharClass) : List Char := '[' :: k.printBody ++ [']']

/-- The classes have the same items, perhaps in another order. -/
def same (k l : CharClass) : Bool := k.negated == l.negated && k.items.isPerm l.items

instance : ToString CharClass where
  toString k := String.ofList k.print

end CharClass

end PatternGen
