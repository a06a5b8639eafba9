namespace PatternGen

/-- How many bits of the source a try at a draw takes. -/
inductive Width where
  | word32
  | word64
  deriving DecidableEq, Repr

def Width.bits : Width → Nat
  | word32 => 32
  | word64 => 64

inductive Draw where
  /-- A number below `n`, each equally likely. -/
  | below (w : Width) (n : Nat)
  /-- The numerator of a fraction below one whose denominator is 2^53. -/
  | fraction
  deriving DecidableEq, Repr

namespace Draw

def size : Draw → Nat
  | below _ n => n
  | fraction => 1 <<< 53

end Draw

/-- A source of randomness with the states `σ`. -/
structure Sampler (σ : Type) where
  draw (d : Draw) : 0 < d.size → σ → Fin d.size × σ

structure Source where
  state : BitVec 128
  deriving DecidableEq, Repr

namespace Source

/-- One step of the generator that spreads a seed over a state, with the word it gives. -/
def spread (s : BitVec 64) : BitVec 64 × BitVec 32 :=
  let s := s * 6364136223846793005 + 11634580027462260723
  (s, ((((s >>> 18) ^^^ s) >>> 27).setWidth 32).rotateRight (s >>> 59).toNat)

/-- The source of a seed: four words of the spread seed, the first one lowest. States are odd. -/
def ofSeed (seed : UInt64) : Source :=
  let (s, a) := spread seed.toBitVec
  let (s, b) := spread s
  let (s, c) := spread s
  let (_, d) := spread s
  ⟨(d ++ c ++ b ++ a) ||| 1⟩

def next (s : Source) : BitVec 64 × Source :=
  let state := s.state * 0x2360ed051fc65da44385df649fccf645
  (((state >>> 64).setWidth 64 ^^^ state.setWidth 64).rotateRight (state >>> 122).toNat, ⟨state⟩)

/-- The next word of a width, the low bits of a word of 64 bits. -/
def word (w : Width) (s : Source) : BitVec w.bits × Source := (s.next.1.setWidth w.bits, s.next.2)

/-- The greatest low half of a product that is accepted: products up to it fall evenly on the
numbers below `n`. -/
def zone (w : Width) (n : Nat) : Nat := n <<< (w.bits - (n.log2 + 1)) - 1

def scale (w : Width) (n : Nat) (word : BitVec w.bits) (h : 0 < n) : Fin n :=
  ⟨(word.toNat * n) >>> w.bits, by
    rw [Nat.shiftRight_eq_div_pow]
    exact Nat.div_lt_of_lt_mul (Nat.mul_lt_mul_of_lt_of_le word.isLt (Nat.le_refl n) h)⟩

/-- A number below `n` from the first word whose product is accepted, or the word after so many
refused ones. -/
def below (w : Width) (n : Nat) (h : 0 < n) : (attempts : Nat) → Source → Fin n × Source
  | 0, s => (scale w n (s.word w).1 h, (s.word w).2)
  | attempts + 1, s =>
    let (word, s) := s.word w
    if (word * BitVec.ofNat w.bits n).toNat ≤ zone w n then (scale w n word h, s)
    else below w n h attempts s

/-- The source repeats itself after this many words, so no more need be tried. -/
def period : Nat := 1 <<< 126

def draw : (d : Draw) → 0 < d.size → Source → Fin d.size × Source
  | .below w n, h, s => below w n h period s
  | .fraction, _, s => (((s.next.1 >>> 11).setWidth 53).toFin, s.next.2)

def sampler : Sampler Source := ⟨draw⟩

end Source

end PatternGen
