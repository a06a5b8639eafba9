namespace PatternGen.Text

def decimal (n : Nat) : List Char := Nat.toDigits 10 n

/-- The number that a run of digits stands for, unless the run is empty. -/
def numeral? (cs : List Char) : Option Nat :=
  if !cs.isEmpty && cs.all Char.isDigit then some (Nat.ofDigitChars 10 cs 0) else none

def count? (cs : List Char) : Option UInt32 :=
  (numeral? cs).bind fun n => if n < UInt32.size then some (UInt32.ofNat n) else none

theorem isDigit_of_mem_decimal {n : Nat} {c : Char} (h : c ∈ decimal n) : c.isDigit :=
  Nat.isDigit_of_mem_toDigits (by decide) (by decide) h

theorem numeral?_decimal (n : Nat) : numeral? (decimal n) = some n := by
  have hall : (decimal n).all Char.isDigit := List.all_eq_true.2 fun _ => isDigit_of_mem_decimal
  have hne : (decimal n).isEmpty = false := List.isEmpty_eq_false_iff.2 Nat.toDigits_ne_nil
  rw [numeral?, hall, hne]
  exact congrArg some (Nat.ofDigitChars_toDigits (by decide) (by decide))

theorem count?_decimal (n : UInt32) : count? (decimal n.toNat) = some n := by
  rw [count?, numeral?_decimal, Option.bind_some, if_pos n.toNat_lt_size, UInt32.ofNat_toNat]

/-- The text at the right end of its field. -/
def padLeft (width : Nat) (pad : Char) (cs : List Char) : List Char :=
  List.replicate (width - cs.length) pad ++ cs

/-- The text at the left end of its field. -/
def padRight (width : Nat) (pad : Char) (cs : List Char) : List Char :=
  cs ++ List.replicate (width - cs.length) pad

theorem length_padLeft (width : Nat) (pad : Char) (cs : List Char) :
    (padLeft width pad cs).length = max width cs.length := by
  simp [padLeft]
  omega

theorem length_padRight (width : Nat) (pad : Char) (cs : List Char) :
    (padRight width pad cs).length = max width cs.length := by
  simp [padRight]
  omega

/-- The number of characters before a character. -/
def ordinal (c : Char) : Nat := if c.toNat < 0xd800 then c.toNat else c.toNat - 0x800

/-- The character with so many characters before it. -/
def ofOrdinal? (n : Nat) : Option Char :=
  if n < 0xd800 then some (Char.ofNat n)
  else if n < 0x10f800 then some (Char.ofNat (n + 0x800))
  else none

theorem toNat_ofNat {n : Nat} (h : n.isValidChar) : (Char.ofNat n).toNat = n := by
  rw [Char.ofNat, dif_pos h]
  rfl

theorem ofOrdinal?_ordinal (c : Char) : ofOrdinal? (ordinal c) = some c := by
  have hv : c.toNat < 0xd800 ∨ 0xdfff < c.toNat ∧ c.toNat < 0x110000 := c.valid
  by_cases h : c.toNat < 0xd800
  · rw [ordinal, if_pos h, ofOrdinal?, if_pos h, Char.ofNat_toNat]
  · rw [ordinal, if_neg h, ofOrdinal?, if_neg (by omega), if_pos (by omega),
      Nat.sub_add_cancel (by omega), Char.ofNat_toNat]

theorem ofOrdinal?_eq_some_iff {n : Nat} {c : Char} : ofOrdinal? n = some c ↔ ordinal c = n := by
  constructor
  · intro h
    rw [ofOrdinal?] at h
    split at h
    · next hn =>
      obtain rfl := Option.some.inj h
      have hv : n.isValidChar := .inl hn
      rw [ordinal, toNat_ofNat hv, if_pos hn]
    · split at h
      · next hlo hhi =>
        obtain rfl := Option.some.inj h
        have hv : (n + 0x800).isValidChar := .inr (by omega)
        rw [ordinal, toNat_ofNat hv, if_neg (by omega)]
        omega
      · cases h
  · rintro rfl
    exact ofOrdinal?_ordinal c

theorem ordinal_le_iff {c d : Char} : ordinal c ≤ ordinal d ↔ c ≤ d := by
  have hc : c.toNat < 0xd800 ∨ 0xdfff < c.toNat ∧ c.toNat < 0x110000 := c.valid
  have hd : d.toNat < 0xd800 ∨ 0xdfff < d.toNat ∧ d.toNat < 0x110000 := d.valid
  have hle : c ≤ d ↔ c.toNat ≤ d.toNat := Iff.rfl
  rw [hle, ordinal, ordinal]
  split <;> split <;> omega

theorem ordinal_lt_iff {c d : Char} : ordinal c < ordinal d ↔ c < d := by
  rw [← Nat.not_le, ordinal_le_iff, Char.not_le]

theorem ordinal_lt (c : Char) : ordinal c < 0x10f800 := by
  have hv : c.toNat < 0xd800 ∨ 0xdfff < c.toNat ∧ c.toNat < 0x110000 := c.valid
  rw [ordinal]
  split <;> omega

theorem isSome_ofOrdinal? {n : Nat} (h : n < 0x10f800) : (ofOrdinal? n).isSome := by
  rw [ofOrdinal?, if_pos h]
  split <;> rfl

def byteSize : List Char → Nat
  | [] => 0
  | c :: cs => c.utf8Size + byteSize cs

@[simp] theorem byteSize_nil : byteSize [] = 0 := rfl

@[simp] theorem byteSize_cons (c : Char) (cs : List Char) :
    byteSize (c :: cs) = c.utf8Size + byteSize cs := rfl

@[simp] theorem byteSize_append (s t : List Char) :
    byteSize (s ++ t) = byteSize s + byteSize t := by
  induction s with
  | nil => simp
  | cons c s ih => simp [ih, Nat.add_assoc]

theorem length_le_byteSize (s : List Char) : s.length ≤ byteSize s := by
  induction s with
  | nil => exact Nat.le_refl 0
  | cons x s ih =>
    have hx := x.utf8Size_pos
    rw [List.length_cons, byteSize_cons]
    omega

/-- The text after its first `n` bytes; none if `n` falls inside a character or past the end. -/
def dropBytes : Nat → List Char → Option (List Char)
  | 0, cs => some cs
  | _ + 1, [] => none
  | n + 1, c :: cs => if c.utf8Size ≤ n + 1 then dropBytes (n + 1 - c.utf8Size) cs else none

@[simp] theorem dropBytes_zero (cs : List Char) : dropBytes 0 cs = some cs := by
  cases cs <;> rfl

theorem dropBytes_cons (n : Nat) (c : Char) (cs : List Char) :
    dropBytes (c.utf8Size + n) (c :: cs) = dropBytes n cs := by
  obtain ⟨m, hm⟩ : ∃ m, c.utf8Size + n = m + 1 :=
    ⟨c.utf8Size + n - 1, by have := c.utf8Size_pos; omega⟩
  rw [hm, dropBytes, if_pos (by omega), ← hm, Nat.add_sub_cancel_left]

theorem dropBytes_byteSize_append (s t : List Char) : dropBytes (byteSize s) (s ++ t) = some t := by
  induction s with
  | nil => simp
  | cons c s ih => rw [byteSize_cons, List.cons_append, dropBytes_cons, ih]

structure Position where
  line : Nat
  column : Nat
  deriving DecidableEq, Repr

namespace Position

def start : Position := ⟨1, 1⟩

def newline (p : Position) : Position := ⟨p.line + 1, 1⟩

def advance (p : Position) (columns : Nat) : Position := ⟨p.line, p.column + columns⟩

/-- The position after the character `c` at `p`. -/
def step (p : Position) (c : Char) : Position := if c = '\n' then p.newline else p.advance 1

/-- The position after those characters of a text at `p` that start before its byte `offset`. -/
def scan (p : Position) : List Char → (offset : Nat) → Position
  | [], _ => p
  | c :: cs, offset => if offset = 0 then p else (p.step c).scan cs (offset - c.utf8Size)

/-- The position of a byte offset; an offset past the end stands for the end. -/
def ofOffset (text : List Char) (offset : Nat) : Position := start.scan text offset

instance : ToString Position where
  toString p := toString p.line ++ ":" ++ toString p.column

end Position

end PatternGen.Text
