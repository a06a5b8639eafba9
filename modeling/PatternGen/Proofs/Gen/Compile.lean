import PatternGen.Gen.Compile
import PatternGen.Proofs.Gen.Pools
import PatternGen.Random.Source

namespace PatternGen

/-- The generator has an answer to every draw and yields exactly the words of the language. -/
structure Gen.Generates (g : Gen (List Char)) (L : Language Char) : Prop where
  answerable : g.Answerable
  yields_iff : ∀ w, g.Yields w ↔ w ∈ L

namespace Gen

theorem generates_constant (w : List Char) : (constant w).Generates {w} :=
  ⟨trivial, fun _ => Iff.rfl⟩

theorem generates_pivot_nil : ((pivot []).map List.flatten).Generates 1 := by
  have ha : ∀ g ∈ ([] : List (Gen (List Char))), g.Answerable := nofun
  refine ⟨(answerable_pivot ha).map, ?_⟩
  intro w
  rw [yields_map_iff, Language.mem_one]
  constructor
  · intro h
    obtain ⟨ws, hws, rfl⟩ := h
    cases yields_pivot_iff.1 hws
    rfl
  · rintro rfl
    exact ⟨[], yields_pivot_iff.2 .nil, rfl⟩

theorem Generates.pivot_cons {gs : List (Gen (List Char))} (hg : Generates g L)
    (ha : ∀ h ∈ gs, h.Answerable) (hgs : ((pivot gs).map List.flatten).Generates M) :
    ((pivot (g :: gs)).map List.flatten).Generates (L * M) := by
  refine ⟨(answerable_pivot (List.forall_mem_cons.2 ⟨hg.answerable, ha⟩)).map, ?_⟩
  intro w
  rw [yields_map_iff, Language.mem_mul]
  constructor
  · intro h
    obtain ⟨ws, hws, rfl⟩ := h
    cases yields_pivot_iff.1 hws with
    | cons hu hv =>
      refine ⟨_, (hg.yields_iff _).1 hu, _, (hgs.yields_iff _).1 ?_, List.flatten_cons.symm⟩
      exact yields_map_iff.2 ⟨_, yields_pivot_iff.2 hv, rfl⟩
  · intro h
    obtain ⟨u, hu, v, hv, rfl⟩ := h
    obtain ⟨vs, hvs, rfl⟩ := yields_map_iff.1 ((hgs.yields_iff _).2 hv)
    refine ⟨u :: vs, yields_pivot_iff.2 ?_, List.flatten_cons.symm⟩
    exact .cons ((hg.yields_iff _).2 hu) (yields_pivot_iff.1 hvs)

theorem Generates.sequenceIn {lo hi : Nat} (hg : Generates g L) (hle : lo ≤ hi) :
    ((g.sequenceIn lo (hi + 1)).map List.flatten).Generates
      {w | ∃ n, lo ≤ n ∧ n ≤ hi ∧ w ∈ L ^ n} := by
  refine ⟨(answerable_sequenceIn hg.answerable (by omega)).map, ?_⟩
  intro w
  rw [yields_map_iff]
  constructor
  · intro h
    obtain ⟨ws, hws, rfl⟩ := h
    obtain ⟨hlo, hhi, hy⟩ := yields_sequenceIn_iff.1 hws
    refine ⟨ws.length, hlo, by omega, Language.mem_pow.2 ⟨ws, rfl, rfl, ?_⟩⟩
    intro v hv
    exact (hg.yields_iff v).1 (hy v hv)
  · intro h
    obtain ⟨n, hlo, hhi, hw⟩ := h
    obtain ⟨ws, rfl, rfl, hws⟩ := Language.mem_pow.1 hw
    refine ⟨ws, yields_sequenceIn_iff.2 ⟨hlo, by omega, ?_⟩, rfl⟩
    intro v hv
    exact (hg.yields_iff v).2 (hws v hv)

end Gen

namespace Pattern

open Gen

theorem le_maxRounds {o : Options} (h : o.maxRounds r = .ok hi) :
    r.min.toNat ≤ hi.toNat ∧ hi.toNat = r.last o.repeatCap := by
  have hlimit {n : UInt32} (h : o.withinLimit n = .ok hi) : n = hi := by
    rw [Options.withinLimit] at h
    split at h
    · cases h
    · exact Except.ok.inj h
  rw [Options.maxRounds] at h
  rw [Repetition.last]
  cases hm : r.max with
  | some n =>
    rw [hm] at h
    dsimp only at h
    split at h
    · cases h
    · next hn =>
      cases hlimit h
      exact ⟨UInt32.le_iff_toNat_le.1 (UInt32.not_lt.1 hn), rfl⟩
  | none =>
    rw [hm] at h
    dsimp only at h
    split at h
    · cases h
    · next hn =>
      cases hlimit h
      exact ⟨UInt32.le_iff_toNat_le.1 (UInt32.not_lt.1 hn), rfl⟩

theorem generates_charClass {o : Options} (h : compileTerm o (.charClass k) = .ok g) :
    g.Generates (termLanguage o (.charClass k)) := by
  rw [compileTerm] at h
  obtain ⟨pool, hpool, h⟩ := bind_eq_ok_iff.1 h
  obtain ⟨c, hc, rfl⟩ := map_eq_ok_iff.1 h
  refine ⟨(CharPool.answerable_generator hc).map, ?_⟩
  intro w
  rw [yields_map_iff, termLanguage]
  simp only [CharPool.yields_generator_iff hc, CharPool.holds_ofClass hpool]
  exact Iff.rfl

theorem generates_chooseBranch {gs : List (Gen (List Char))} (h : chooseBranch gs = .ok g)
    (ha : ∀ g ∈ gs, g.Answerable) :
    g.Answerable ∧ ∀ w, g.Yields w ↔ ∃ g ∈ gs, g.Yields w := by
  rw [chooseBranch] at h
  split at h
  · cases h
  · next hne =>
    cases h
    rw [List.isEmpty_iff] at hne
    constructor
    · apply (answerable_choose _ (List.length_pos_iff.2 hne)).bind
      intro i _
      exact ha _ (List.get_mem gs i)
    · intro w
      rw [yields_bind_iff]
      constructor
      · intro h'
        obtain ⟨i, -, hw⟩ := h'
        exact ⟨_, List.get_mem gs i, hw⟩
      · intro h'
        obtain ⟨_, hg, hw⟩ := h'
        obtain ⟨i, rfl⟩ := List.get_of_mem hg
        exact ⟨i, yields_choose _ _, hw⟩

mutual

theorem generates_compileTerm {o : Options} :
    ∀ {t : Term} {g}, compileTerm o t = .ok g → g.Generates (termLanguage o t)
  | .charClass _, _, h => generates_charClass h
  | .literal _, _, h => by
    cases h
    rw [termLanguage]
    exact generates_constant _
  | .group bs, g, h => by
    rw [compileTerm] at h
    obtain ⟨gs, hgs, h⟩ := bind_eq_ok_iff.1 h
    obtain ⟨ha, hy⟩ := generates_compileBranches hgs
    obtain ⟨hg, hw⟩ := generates_chooseBranch h ha
    rw [termLanguage]
    exact ⟨hg, fun w => (hw w).trans (hy w)⟩

theorem generates_compilePiece {o : Options} :
    ∀ {p : Term × Repetition} {g}, compilePiece o p = .ok g → g.Generates (pieceLanguage o p)
  | (t, r), g, h => by
    rw [compilePiece] at h
    obtain ⟨hi, hhi, h⟩ := bind_eq_ok_iff.1 h
    obtain ⟨g, hg, rfl⟩ := map_eq_ok_iff.1 h
    obtain ⟨hle, hlast⟩ := le_maxRounds hhi
    rw [pieceLanguage, ← hlast]
    exact (generates_compileTerm hg).sequenceIn hle

theorem generates_compilePieces {o : Options} :
    ∀ {ps : List (Term × Repetition)} {gs}, compilePieces o ps = .ok gs →
      (∀ g ∈ gs, g.Answerable) ∧ ((pivot gs).map List.flatten).Generates (branchLanguage o ps)
  | [], gs, h => by
    cases h
    rw [branchLanguage]
    exact ⟨nofun, generates_pivot_nil⟩
  | p :: ps, gs, h => by
    rw [compilePieces] at h
    obtain ⟨g, hg, h⟩ := bind_eq_ok_iff.1 h
    obtain ⟨gs, hgs, rfl⟩ := map_eq_ok_iff.1 h
    have hp := generates_compilePiece hg
    obtain ⟨ha, hps⟩ := generates_compilePieces hgs
    rw [branchLanguage]
    exact ⟨List.forall_mem_cons.2 ⟨hp.answerable, ha⟩, hp.pivot_cons ha hps⟩

theorem generates_compileBranches {o : Options} :
    ∀ {bs : List (List (Term × Repetition))} {gs}, compileBranches o bs = .ok gs →
      (∀ g ∈ gs, g.Answerable) ∧ ∀ w, (∃ g ∈ gs, g.Yields w) ↔ w ∈ branchesLanguage o bs
  | [], gs, h => by
    cases h
    refine ⟨nofun, ?_⟩
    intro w
    simp [branchesLanguage]
  | b :: bs, gs, h => by
    rw [compileBranches] at h
    obtain ⟨ps, hps, h⟩ := bind_eq_ok_iff.1 h
    obtain ⟨gs, hgs, rfl⟩ := map_eq_ok_iff.1 h
    obtain ⟨-, hb⟩ := generates_compilePieces hps
    obtain ⟨ha, hbs⟩ := generates_compileBranches hgs
    refine ⟨List.forall_mem_cons.2 ⟨hb.answerable, ha⟩, ?_⟩
    intro w
    rw [List.exists_mem_cons_iff, hb.yields_iff, hbs, branchesLanguage, Language.mem_add]

end

theorem generates_compile {o : Options} {p : Pattern} (h : p.compile o = .ok g) :
    g.Generates (p.language o) := by
  rw [compile] at h
  obtain ⟨gs, hgs, h⟩ := bind_eq_ok_iff.1 h
  obtain ⟨ha, hy⟩ := generates_compileBranches hgs
  obtain ⟨hg, hw⟩ := generates_chooseBranch h ha
  exact ⟨hg, fun w => (hw w).trans (hy w)⟩

theorem generates_generator {o : Options} {p : Pattern} (h : p.generator o = .ok g) :
    g.Answerable ∧ ∀ w, g.Yields w ↔ w.toList ∈ p.language o := by
  rw [generator] at h
  obtain ⟨g, hg, rfl⟩ := map_eq_ok_iff.1 h
  obtain ⟨ha, hy⟩ := generates_compile hg
  refine ⟨ha.map, ?_⟩
  intro w
  rw [yields_map_iff, ← hy w.toList]
  constructor
  · intro hw
    obtain ⟨cs, hcs, rfl⟩ := hw
    rwa [String.toList_ofList]
  · intro hw
    exact ⟨w.toList, hw, String.ofList_toList.symm⟩

theorem generator_run_mem_language {p : Pattern} {o : Options} (h : p.generator o = .ok g)
    (m : Sampler σ) (s : σ) :
    ∃ w t, g.run m s = some (w, t) ∧ w.toList ∈ p.language o := by
  rw [generator] at h
  obtain ⟨g, hg, rfl⟩ := map_eq_ok_iff.1 h
  obtain ⟨ha, hy⟩ := generates_compile hg
  have hs : (g.map String.ofList).Answerable := ha.map
  obtain ⟨w, t, hr, hw⟩ := hs.run m s
  obtain ⟨cs, hcs, rfl⟩ := yields_map_iff.1 hw
  refine ⟨_, t, hr, ?_⟩
  rw [String.toList_ofList]
  exact (hy cs).1 hcs

theorem generator_run_nested_group :
    let p : Pattern := [[(.group [[(.literal "x", .once)],
      [(.charClass ⟨true, [.range 'a' 'z']⟩, .between 1 2)]], .oneOrMore), (.literal "z", .once)]]
    ∃ g w t, p.generator = .ok g ∧ g.run Source.sampler (.ofSeed 42) = some (w, t) ∧
      w.toList ∈ p.language {} := by
  intro p
  have hok : ∃ g, p.generator = .ok g := ⟨_, rfl⟩
  obtain ⟨g, hg⟩ := hok
  obtain ⟨w, t, hr, hw⟩ := generator_run_mem_language hg Source.sampler (.ofSeed 42)
  exact ⟨g, w, t, hg, hr, hw⟩

theorem flatten_mem_pieceLanguage {o : Options} (ws : List (List Char))
    (hws : ∀ w ∈ ws, w ∈ termLanguage o t) (hlo : r.min.toNat ≤ ws.length)
    (hhi : ws.length ≤ r.last o.repeatCap) : ws.flatten ∈ pieceLanguage o (t, r) := by
  rw [pieceLanguage]
  exact ⟨ws.length, hlo, hhi, Language.mem_pow.2 ⟨ws, rfl, rfl, hws⟩⟩

/-- What sources draw from the generator of a pattern is the language of the pattern: no word is
left out. -/
theorem draws_generator_iff {p : Pattern} {o : Options} (h : p.generator o = .ok g) :
    g.Draws w ↔ w.toList ∈ p.language o := by
  obtain ⟨-, hy⟩ := generates_generator h
  rw [draws_iff_yields]
  exact hy w

/-- As many rounds as the cap, each of another branch, with the last and the first character of the
alphabet. -/
theorem draws_generator_capped_group :
    let o : Options := { repeatCap := 2 }
    let p : Pattern := [[(.group [[(.literal "x", .once)],
      [(.charClass ⟨true, [.range 'a' 'z']⟩, .between 1 2)]], .oneOrMore)]]
    ∃ g, p.generator o = .ok g ∧ g.Draws "~ x" := by
  intro o p
  have hok : ∃ g, p.generator o = .ok g := ⟨_, rfl⟩
  obtain ⟨g, hg⟩ := hok
  refine ⟨g, hg, (draws_generator_iff hg).2 ?_⟩
  have hx : ['x'] ∈ pieceLanguage o (.literal "x", .once) := by
    apply flatten_mem_pieceLanguage [['x']] _ (by decide) (by decide)
    rw [List.forall_mem_singleton, termLanguage]
    rfl
  have hclass {c : Char}
      (hc : printableAscii.contains c ∧ ¬ CharClass.contains ⟨true, [.range 'a' 'z']⟩ c) :
      [c] ∈ termLanguage o (.charClass ⟨true, [.range 'a' 'z']⟩) := by
    rw [termLanguage]
    exact ⟨c, hc, rfl⟩
  have hsigns : ['~', ' '] ∈
      pieceLanguage o (.charClass ⟨true, [.range 'a' 'z']⟩, .between 1 2) := by
    apply flatten_mem_pieceLanguage [['~'], [' ']] _ (by decide) (by decide)
    simp only [List.forall_mem_cons]
    exact ⟨hclass (by decide), hclass (by decide), nofun⟩
  have hgroup : ∀ w ∈ [['~', ' '], ['x']], w ∈ termLanguage o (.group
      [[(.literal "x", .once)], [(.charClass ⟨true, [.range 'a' 'z']⟩, .between 1 2)]]) := by
    simp only [List.forall_mem_cons, termLanguage, branchesLanguage, branchLanguage, mul_one,
      Language.mem_add]
    exact ⟨.inr (.inl hsigns), .inl hx, nofun⟩
  have hword := flatten_mem_pieceLanguage (r := .oneOrMore) _ hgroup (by decide) (by decide)
  rw [language]
  simp only [p, branchesLanguage, branchLanguage, mul_one, Language.mem_add]
  exact .inl hword

end Pattern

end PatternGen
