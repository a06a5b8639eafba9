import PatternGen.Text.Category
import PatternGen.Text.Basic

namespace PatternGen.Regex

open Text

structure CharSet where
  /-- The ordinals of the characters that differ in membership from the one before them. Before the
  first character there is nothing, so the first of these ordinals begins the first run inside. -/
  changes : List Nat
  ascending : changes.Pairwise (· < ·)
  deriving DecidableEq

namespace CharSet

/-- Whether `n` lies inside, where `now` tells it of the numbers before the first change. -/
def inside (now : Bool) : List Nat → Nat → Bool
  | [], _ => now
  | x :: xs, n => if n < x then now else inside (!now) xs n

def contains (s : CharSet) (c : Char) : Bool := inside false s.changes (ordinal c)

def none : CharSet := ⟨[], .nil⟩

def all : CharSet := ⟨[0], List.pairwise_singleton ..⟩

def range (c d : Char) : CharSet :=
  if h : c ≤ d then
    if ordinal d + 1 < 0x10f800 then
      ⟨[ordinal c, ordinal d + 1], by simpa using Nat.lt_succ_of_le (ordinal_le_iff.2 h)⟩
    else ⟨[ordinal c], List.pairwise_singleton ..⟩
  else none

def single (c : Char) : CharSet := range c c

/-- A place before later changes, at which a membership that was `old` is `new`. -/
def place (x : Nat) (old new : Bool) (later : List Nat) : List Nat :=
  if new = old then later else x :: later

theorem mem_place {x z : Nat} {old new : Bool} {later : List Nat} (h : z ∈ place x old new later) :
    z = x ∨ z ∈ later := by
  grind [place]

theorem pairwise_place {x : Nat} {old new : Bool} {later : List Nat} (hx : ∀ z ∈ later, x < z)
    (h : later.Pairwise (· < ·)) : (place x old new later).Pairwise (· < ·) := by
  rw [place]
  split
  · exact h
  · exact .cons hx h

/-- The changes of a membership that `f` keeps apart. -/
def visible (f : Bool → Bool) (xs : List Nat) : List Nat := if f true = f false then [] else xs

theorem pairwise_visible {f : Bool → Bool} {xs : List Nat} (h : xs.Pairwise (· < ·)) :
    (visible f xs).Pairwise (· < ·) := by
  rw [visible]
  split
  · exact .nil
  · exact h

/-- The changes of `f` applied to two memberships, which are `a` and `b` before their changes. -/
def merge (f : Bool → Bool → Bool) (a b : Bool) : List Nat → List Nat → List Nat
  | [], ys => visible (f a) ys
  | xs, [] => visible (f · b) xs
  | x :: xs, y :: ys =>
    if x < y then place x (f a b) (f (!a) b) (merge f (!a) b xs (y :: ys))
    else if y < x then place y (f a b) (f a !b) (merge f a (!b) (x :: xs) ys)
    else place x (f a b) (f (!a) !b) (merge f (!a) (!b) xs ys)
termination_by xs ys => xs.length + ys.length

theorem mem_merge {f : Bool → Bool → Bool} {a b : Bool} {xs ys : List Nat} {z : Nat}
    (h : z ∈ merge f a b xs ys) : z ∈ xs ∨ z ∈ ys := by
  fun_induction merge f a b xs ys <;> grind [mem_place, visible]

theorem lt_of_mem_merge {f : Bool → Bool → Bool} {a b : Bool} {x z : Nat} {xs ys : List Nat}
    (hx : ∀ z ∈ xs, x < z) (hy : ∀ z ∈ ys, x < z) (h : z ∈ merge f a b xs ys) : x < z :=
  (mem_merge h).elim (hx z) (hy z)

theorem lt_of_mem_cons {x y z : Nat} {ys : List Nat} (h : x < y) (hy : (y :: ys).Pairwise (· < ·))
    (hz : z ∈ y :: ys) : x < z := by
  rcases List.mem_cons.1 hz with rfl | hz
  · exact h
  · exact Nat.lt_trans h (List.rel_of_pairwise_cons hy hz)

theorem pairwise_merge {f : Bool → Bool → Bool} {a b : Bool} {xs ys : List Nat}
    (hx : xs.Pairwise (· < ·)) (hy : ys.Pairwise (· < ·)) :
    (merge f a b xs ys).Pairwise (· < ·) := by
  fun_induction merge f a b xs ys with
  | case1 => exact pairwise_visible hy
  | case2 => exact pairwise_visible hx
  | case3 a b x xs y ys h ih =>
    refine pairwise_place (fun z => lt_of_mem_merge ?_ ?_) (ih hx.of_cons hy)
    · exact fun z => List.rel_of_pairwise_cons hx
    · exact fun z => lt_of_mem_cons h hy
  | case4 a b x xs y ys _ h ih =>
    refine pairwise_place (fun z => lt_of_mem_merge ?_ ?_) (ih hx hy.of_cons)
    · exact fun z => lt_of_mem_cons h hx
    · exact fun z => List.rel_of_pairwise_cons hy
  | case5 a b x xs y ys hxy hyx ih =>
    obtain rfl : x = y := by omega
    refine pairwise_place (fun z => lt_of_mem_merge ?_ ?_) (ih hx.of_cons hy.of_cons)
    · exact fun z => List.rel_of_pairwise_cons hx
    · exact fun z => List.rel_of_pairwise_cons hy

/-- The characters that `f` takes by their membership in two sets, if it takes none that is in
neither. -/
def combine (f : Bool → Bool → Bool) (s t : CharSet) : CharSet :=
  ⟨merge f false false s.changes t.changes, pairwise_merge s.ascending t.ascending⟩

def union : CharSet → CharSet → CharSet := combine (· || ·)

def inter : CharSet → CharSet → CharSet := combine (· && ·)

def diff : CharSet → CharSet → CharSet := combine fun a b => a && !b

def symmDiff : CharSet → CharSet → CharSet := combine (· ^^ ·)

def complement (s : CharSet) : CharSet := all.diff s

def unionAll (sets : List CharSet) : CharSet := sets.foldr union none

def runs (s : CharSet) : List (Nat × Nat) := go s.changes
where
  go : List Nat → List (Nat × Nat)
    | [] => []
    | [x] => [(x, 0x10f7ff)]
    | x :: y :: rest => (x, y - 1) :: go rest

def only? (s : CharSet) : Option Char :=
  match s.runs with
  | [(x, y)] => if x = y then ofOrdinal? x else .none
  | _ => .none

end CharSet

end PatternGen.Regex

namespace PatternGen.Regex.CharSet

open Text

def ofRanges (ranges : List (Char × Char)) : CharSet :=
  unionAll (ranges.map fun (c, d) => range c d)

def ofCategories (kind : Category → Bool) : CharSet :=
  let ends := (categoryRuns.drop 1).map (·.1) ++ [0x110000]
  ofRanges <| (categoryRuns.zip ends).filterMap fun ((first, c), next) =>
    if kind c && c != .cs then some (Char.ofNat first, Char.ofNat (next - 1)) else .none

def digit : CharSet := ofCategories (· == .nd)

def blank : CharSet := ofRanges [('\t', '\r'), (' ', ' '), ('\u0085', '\u0085'),
  ('\u00a0', '\u00a0'), ('\u1680', '\u1680'), ('\u2000', '\u200a'), ('\u2028', '\u2029'),
  ('\u202f', '\u202f'), ('\u205f', '\u205f'), ('\u3000', '\u3000')]

/-- The signs that are no letters and count as letters: circled, squared and in parentheses. -/
def enclosedLetters : CharSet := ofRanges [('\u24b6', '\u24e9'),
  (Char.ofNat 0x1f130, Char.ofNat 0x1f149), (Char.ofNat 0x1f150, Char.ofNat 0x1f169),
  (Char.ofNat 0x1f170, Char.ofNat 0x1f189)]

/-- The characters without width that join or divide those around them. -/
def joiners : CharSet := range '\u200c' '\u200d'

def word : CharSet :=
  unionAll [ofCategories wordCategories.contains, enclosedLetters, joiners]
where
  wordCategories : List Category := [.lu, .ll, .lt, .lm, .lo, .mn, .mc, .me, .nd, .nl, .pc]

/-- All characters but the line feed. -/
def withinLine : CharSet := (single '\n').complement

def asciiClasses : List (String × CharSet) := [
  ("alnum", ofRanges [('0', '9'), ('A', 'Z'), ('a', 'z')]),
  ("alpha", ofRanges [('A', 'Z'), ('a', 'z')]),
  ("ascii", range '\x00' '\x7f'),
  ("blank", ofRanges [('\t', '\t'), (' ', ' ')]),
  ("cntrl", ofRanges [('\x00', '\x1f'), ('\x7f', '\x7f')]),
  ("digit", range '0' '9'),
  ("graph", range '!' '~'),
  ("lower", range 'a' 'z'),
  ("print", range ' ' '~'),
  ("punct", ofRanges [('!', '/'), (':', '@'), ('[', '\x60'), ('\x7b', '~')]),
  ("space", ofRanges [('\t', '\r'), (' ', ' ')]),
  ("upper", range 'A' 'Z'),
  ("word", ofRanges [('0', '9'), ('A', 'Z'), ('_', '_'), ('a', 'z')]),
  ("xdigit", ofRanges [('0', '9'), ('A', 'F'), ('a', 'f')])]

/-- The short and the long names of the general categories and of their groups. -/
def categoryNames : List (List String × List Category) := [
  (["lu", "uppercaseletter"], [.lu]),
  (["ll", "lowercaseletter"], [.ll]),
  (["lt", "titlecaseletter"], [.lt]),
  (["lc", "casedletter"], [.lu, .ll, .lt]),
  (["lm", "modifierletter"], [.lm]),
  (["lo", "otherletter"], [.lo]),
  (["l", "letter"], [.lu, .ll, .lt, .lm, .lo]),
  (["mn", "nonspacingmark"], [.mn]),
  (["mc", "spacingmark"], [.mc]),
  (["me", "enclosingmark"], [.me]),
  (["m", "mark", "combiningmark"], [.mn, .mc, .me]),
  (["nd", "decimalnumber", "digit"], [.nd]),
  (["nl", "letternumber"], [.nl]),
  (["no", "othernumber"], [.no]),
  (["n", "number"], [.nd, .nl, .no]),
  (["pc", "connectorpunctuation"], [.pc]),
  (["pd", "dashpunctuation"], [.pd]),
  (["ps", "openpunctuation"], [.ps]),
  (["pe", "closepunctuation"], [.pe]),
  (["pi", "initialpunctuation"], [.pi]),
  (["pf", "finalpunctuation"], [.pf]),
  (["po", "otherpunctuation"], [.po]),
  (["p", "punct", "punctuation"], [.pc, .pd, .ps, .pe, .pi, .pf, .po]),
  (["sm", "mathsymbol"], [.sm]),
  (["sc", "currencysymbol"], [.sc]),
  (["sk", "modifiersymbol"], [.sk]),
  (["so", "othersymbol"], [.so]),
  (["s", "symbol"], [.sm, .sc, .sk, .so]),
  (["zs", "spaceseparator"], [.zs]),
  (["zl", "lineseparator"], [.zl]),
  (["zp", "paragraphseparator"], [.zp]),
  (["z", "separator"], [.zs, .zl, .zp]),
  (["cc", "cntrl", "control"], [.cc]),
  (["cf", "format"], [.cf]),
  (["co", "privateuse"], [.co]),
  (["cn", "unassigned"], [.cn]),
  (["c", "other"], [.cc, .cf, .co, .cn])]

/-- A name of a category in small letters, without what may be written between its words and
without a leading "is". -/
def plainName (name : List Char) : List Char :=
  let letters := (name.filter fun c => !" _-".toList.contains c).map Char.toLower
  let leadingIs := (name.take 2).map Char.toLower = ['i', 's']
  if leadingIs ∧ letters ≠ ['i', 's', 'c'] then letters.drop 2 else letters

/-- The characters that a name of categories stands for: one, a group of them, or all but the
unassigned. -/
def ofCategoryName? (name : List Char) : Option CharSet :=
  match String.ofList (plainName name) with
  | "any" => some all
  | "ascii" => some (range '\x00' '\x7f')
  | "assigned" => some (ofCategories (· != .cn))
  | short =>
    (categoryNames.find? (·.1.contains short)).map fun (_, cs) => ofCategories cs.contains

end PatternGen.Regex.CharSet
