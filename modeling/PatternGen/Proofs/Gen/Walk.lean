import PatternGen.Proofs.Gen.Compile

namespace PatternGen

/-- A number from `lo` up to but not including `hi`, from one draw; none if there is no such
number. -/
def Sampler.between (m : Sampler σ) (lo hi : Nat) : StateT σ Option Nat := fun s =>
  if h : lo < hi then
    let (i, s) := m.draw (.below .word64 (hi - lo)) (Nat.sub_pos_of_lt h) s
    some (lo + i, s)
  else none

/-- What so many walks give, one after the other. -/
def inTurn (walk : StateT σ Option (List Char)) : Nat → StateT σ Option (List Char)
  | 0 => return []
  | n + 1 => return (← walk) ++ (← inTurn walk n)

namespace Pattern

mutual

def walkTerm (m : Sampler σ) (o : Options) : Term → StateT σ Option (List Char)
  | .charClass k => do
    let cs := o.negation.characters k
    let i ← m.between 0 cs.length
    return [← cs[i]?]
  | .literal text => return text.toList
  | .group branches => do
    let i ← m.between 0 branches.length
    walkBranch m o branches i

def walkPiece (m : Sampler σ) (o : Options) : Term × Repetition → StateT σ Option (List Char)
  | (t, r) => do
    let n ← m.between r.min.toNat (r.last o.repeatCap + 1)
    inTurn (walkTerm m o t) n

def walkPieces (m : Sampler σ) (o : Options) :
    List (Term × Repetition) → StateT σ Option (List Char)
  | [] => return []
  | p :: ps => return (← walkPiece m o p) ++ (← walkPieces m o ps)

def walkBranch (m : Sampler σ) (o : Options) :
    List (List (Term × Repetition)) → Nat → StateT σ Option (List Char)
  | [], _ => failure
  | b :: _, 0 => walkPieces m o b
  | _ :: bs, i + 1 => walkBranch m o bs i

end

/-- A whole pattern is walked as a group is. -/
def walk (m : Sampler σ) (o : Options) (p : Pattern) : StateT σ Option (List Char) :=
  walkTerm m o (.group p)

end Pattern

namespace Gen

variable {α β σ : Type}

/-- What is drawn, with the source as a state that is passed on. -/
def drawing (m : Sampler σ) (g : Gen α) : StateT σ Option α := g.run m

theorem drawing_constant (m : Sampler σ) (a : α) : (constant a).drawing m = pure a := rfl

theorem drawing_bind (m : Sampler σ) (g : Gen α) (f : α → Gen β) :
    (g.bind f).drawing m = g.drawing m >>= fun a => (f a).drawing m :=
  funext (run_bind m g f)

theorem drawing_map (m : Sampler σ) (g : Gen α) (f : α → β) :
    (g.map f).drawing m = f <$> g.drawing m := by
  rw [map, drawing_bind, map_eq_pure_bind]
  rfl

theorem drawing_choose_bind (m : Sampler σ) (lo hi : Nat) {f : Fin (hi - lo) → Gen α}
    {k : Nat → StateT σ Option α} (h : ∀ i, (f i).drawing m = k (lo + i)) :
    ((choose .word64 (hi - lo)).bind f).drawing m = m.between lo hi >>= k := by
  rw [drawing_bind]
  funext s
  change ((choose .word64 (hi - lo)).run m s).bind _ = (m.between lo hi s).bind _
  by_cases hlt : lo < hi
  · have hdraw : (choose .word64 (hi - lo)).run m s =
        some (m.draw (.below .word64 (hi - lo)) (Nat.sub_pos_of_lt hlt) s) :=
      dif_pos (Nat.sub_pos_of_lt hlt)
    rw [hdraw, Sampler.between, dif_pos hlt]
    exact congrFun (h _) _
  · have hdraw : (choose .word64 (hi - lo)).run m s = none :=
      dif_neg fun hpos : 0 < hi - lo => hlt (Nat.lt_of_sub_pos hpos)
    rw [hdraw, Sampler.between, dif_neg hlt]
    rfl

theorem sequenceOnto_eq_map (g : Gen α) (drawn : List α) (n : Nat) :
    g.sequenceOnto drawn n = (g.sequence n).map (drawn.reverse ++ ·) := by
  induction n generalizing drawn with
  | zero => simp [sequence, sequenceOnto, map, bind]
  | succ n ih =>
    rw [sequence, sequenceOnto, sequenceOnto, map, bind_assoc]
    congr 1
    funext a
    rw [ih (a :: drawn), ih [a], map, map, bind_assoc]
    simp [bind]

theorem sequence_succ (g : Gen α) (n : Nat) :
    g.sequence (n + 1) = g.bind fun a => (g.sequence n).map (a :: ·) := by
  simp only [sequence, sequenceOnto]
  congr 1
  funext a
  exact sequenceOnto_eq_map g [a] n

theorem pivotOnto_eq_map (drawn : List α) (gs : List (Gen α)) :
    pivotOnto drawn gs = (pivot gs).map (drawn.reverse ++ ·) := by
  induction gs generalizing drawn with
  | nil => simp [pivot, pivotOnto, map, bind]
  | cons g gs ih =>
    rw [pivot, pivotOnto, pivotOnto, map, bind_assoc]
    congr 1
    funext a
    rw [ih (a :: drawn), ih [a], map, map, bind_assoc]
    simp [bind]

theorem pivot_cons (g : Gen α) (gs : List (Gen α)) :
    pivot (g :: gs) = g.bind fun a => (pivot gs).map (a :: ·) := by
  simp only [pivot, pivotOnto]
  congr 1
  funext a
  exact pivotOnto_eq_map [a] gs

/-- The rounds are drawn one after the other, and nothing between them. -/
theorem drawing_sequence (m : Sampler σ) (g : Gen (List Char)) (n : Nat) :
    ((g.sequence n).map List.flatten).drawing m = inTurn (g.drawing m) n := by
  induction n with
  | zero => rfl
  | succ n ih =>
    rw [inTurn, ← ih, sequence_succ]
    simp [drawing_map, drawing_bind]

theorem drawing_pivot_cons (m : Sampler σ) (g : Gen (List Char)) (gs : List (Gen (List Char))) :
    ((pivot (g :: gs)).map List.flatten).drawing m =
      return (← g.drawing m) ++ (← ((pivot gs).map List.flatten).drawing m) := by
  rw [pivot_cons]
  simp [drawing_map, drawing_bind]

end Gen

namespace CharPool

variable {σ : Type}

theorem drawing_generator (m : Sampler σ) (h : ofClass k n = .ok p) (hg : p.generator = .ok g) :
    (g.map fun c => [c]).drawing m = do
      let i ← m.between 0 (n.characters k).length
      return [← (n.characters k)[i]?] := by
  have hcount : p.count = (n.characters k).length := by
    rw [← toList_ofClass h, length_toList]
  rw [generator] at hg
  split at hg
  · cases hg
  · cases hg
    rw [← hcount, Gen.map, Gen.map, Gen.bind_assoc]
    apply Gen.drawing_choose_bind m 0 p.count
    intro i
    have hi : (n.characters k)[0 + i.val]? = some (p.get i) := by
      rw [← toList_ofClass h, getElem?_toList, Nat.zero_add]
      exact (Option.some_get _).symm
    rw [hi]
    rfl

end CharPool

namespace Pattern

open Gen

variable {σ : Type} {o : Options}

theorem drawing_chooseBranch (m : Sampler σ) {bs : List (List (Term × Repetition))}
    (h : chooseBranch gs = .ok g) (hlen : gs.length = bs.length)
    (hgs : ∀ i (hi : i < gs.length), gs[i].drawing m = walkBranch m o bs i) :
    g.drawing m = m.between 0 bs.length >>= walkBranch m o bs := by
  rw [chooseBranch] at h
  split at h
  · cases h
  · cases h
    rw [← hlen]
    apply drawing_choose_bind m 0 gs.length
    intro i
    rw [Nat.zero_add]
    exact hgs i i.isLt

mutual

theorem drawing_compileTerm (m : Sampler σ) :
    ∀ {t : Term} {g}, compileTerm o t = .ok g → g.drawing m = walkTerm m o t
  | .charClass k, g, h => by
    rw [compileTerm] at h
    obtain ⟨pool, hpool, h⟩ := bind_eq_ok_iff.1 h
    obtain ⟨c, hc, rfl⟩ := map_eq_ok_iff.1 h
    rw [walkTerm]
    exact CharPool.drawing_generator m hpool hc
  | .literal text, g, h => by
    cases h
    rw [walkTerm]
    exact drawing_constant m text.toList
  | .group bs, g, h => by
    rw [compileTerm] at h
    obtain ⟨gs, hgs, h⟩ := bind_eq_ok_iff.1 h
    obtain ⟨hlen, hwalk⟩ := drawing_compileBranches m hgs
    rw [walkTerm]
    exact drawing_chooseBranch m h hlen hwalk

theorem drawing_compilePiece (m : Sampler σ) :
    ∀ {p : Term × Repetition} {g}, compilePiece o p = .ok g → g.drawing m = walkPiece m o p
  | (t, r), g, h => by
    rw [compilePiece] at h
    obtain ⟨hi, hhi, h⟩ := bind_eq_ok_iff.1 h
    obtain ⟨g, hg, rfl⟩ := map_eq_ok_iff.1 h
    obtain ⟨-, hlast⟩ := le_maxRounds hhi
    have hterm := drawing_compileTerm m hg
    rw [walkPiece, ← hlast, sequenceIn, map, bind_assoc]
    apply drawing_choose_bind m r.min.toNat (hi.toNat + 1)
    intro i
    rw [← hterm]
    exact drawing_sequence m g (r.min.toNat + i)

theorem drawing_compilePieces (m : Sampler σ) :
    ∀ {ps : List (Term × Repetition)} {gs}, compilePieces o ps = .ok gs →
      ((pivot gs).map List.flatten).drawing m = walkPieces m o ps
  | [], gs, h => by
    cases h
    rw [walkPieces]
    rfl
  | p :: ps, gs, h => by
    rw [compilePieces] at h
    obtain ⟨g, hg, h⟩ := bind_eq_ok_iff.1 h
    obtain ⟨gs, hgs, rfl⟩ := map_eq_ok_iff.1 h
    rw [walkPieces, drawing_pivot_cons, drawing_compilePiece m hg, drawing_compilePieces m hgs]

theorem drawing_compileBranches (m : Sampler σ) :
    ∀ {bs : List (List (Term × Repetition))} {gs}, compileBranches o bs = .ok gs →
      gs.length = bs.length ∧
        ∀ i (hi : i < gs.length), gs[i].drawing m = walkBranch m o bs i
  | [], gs, h => by
    cases h
    exact ⟨rfl, nofun⟩
  | b :: bs, gs, h => by
    rw [compileBranches] at h
    obtain ⟨ps, hps, h⟩ := bind_eq_ok_iff.1 h
    obtain ⟨gs, hgs, rfl⟩ := map_eq_ok_iff.1 h
    obtain ⟨hlen, hwalk⟩ := drawing_compileBranches m hgs
    refine ⟨congrArg (· + 1) hlen, ?_⟩
    intro i hi
    cases i with
    | zero =>
      rw [walkBranch]
      exact drawing_compilePieces m hps
    | succ i =>
      rw [walkBranch]
      exact hwalk i (Nat.lt_of_succ_lt_succ hi)

end

theorem drawing_compile (m : Sampler σ) {p : Pattern} (h : p.compile o = .ok g) :
    g.drawing m = p.walk m o := by
  rw [compile] at h
  obtain ⟨gs, hgs, h⟩ := bind_eq_ok_iff.1 h
  obtain ⟨hlen, hwalk⟩ := drawing_compileBranches m hgs
  rw [walk, walkTerm]
  exact drawing_chooseBranch m h hlen hwalk

/-- From each state of a source, the generator draws the word that the walk draws, and leaves the
source as the walk leaves it. -/
theorem generator_run_eq_walk {p : Pattern} (h : p.generator o = .ok g) (m : Sampler σ) (s : σ) :
    ∃ w t, g.run m s = some (w, t) ∧ p.walk m o s = some (w.toList, t) := by
  obtain ⟨hanswerable, -⟩ := generates_generator h
  obtain ⟨w, t, hrun, -⟩ := hanswerable.run m s
  refine ⟨w, t, hrun, ?_⟩
  rw [generator] at h
  obtain ⟨g, hg, rfl⟩ := map_eq_ok_iff.1 h
  have hwords : (g.map String.ofList).drawing m s = some (w, t) := hrun
  rw [drawing_map, drawing_compile m hg] at hwords
  change (p.walk m o s).bind (fun r => some (String.ofList r.1, r.2)) = some (w, t) at hwords
  obtain ⟨⟨cs, u⟩, hcs, heq⟩ := Option.bind_eq_some_iff.1 hwords
  cases heq
  rw [String.toList_ofList]
  exact hcs

theorem generator_run_eq_walk_nested_group :
    let p : Pattern := [[(.literal "x", .once), (.group [[(.charClass ⟨false, [.range 'a' 'z']⟩,
      .between 1 2)], [(.literal "yz", .zeroOrMore)]], .exactly 3)]]
    ∃ g w t, p.generator = .ok g ∧ g.run Source.sampler (.ofSeed 42) = some (w, t) ∧
      p.walk Source.sampler {} (.ofSeed 42) = some (w.toList, t) := by
  intro p
  have hok : ∃ g, p.generator = .ok g := ⟨_, rfl⟩
  obtain ⟨g, hg⟩ := hok
  obtain ⟨w, t, hr, hw⟩ := generator_run_eq_walk hg Source.sampler (.ofSeed 42)
  exact ⟨g, w, t, hg, hr, hw⟩

/-- Where nothing is left to choose, the branch and the number of rounds are drawn all the same. -/
example :
    let m : Sampler (List Draw) := ⟨fun d h asked => (⟨0, h⟩, asked ++ [d])⟩
    walk m {} [[(.literal "abc", .once)]] [] =
      some ("abc".toList, [.below .word64 1, .below .word64 1]) := by
  rfl

end Pattern

end PatternGen
