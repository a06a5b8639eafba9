import Mathlib.Data.Nat.Find
import PatternGen.Regex.Search

namespace PatternGen.Regex

/-- A search gives the match that begins first, and of those that begin at one place the preferred
one, which is what `matchAt` gives. The offsets of the whole match come first. -/
structure Engine.LeftmostFirst (e : Engine)
    (matchAt : String → List Char → Nat → Option Captures) : Prop where
  span : ∀ pattern text place caps, place ≤ text.length → matchAt pattern text place = some caps →
    ∃ last, caps[0]? = some (some (place, last)) ∧ place ≤ last ∧ last ≤ text.length
  find_iff : ∀ pattern search text caps, e.search? pattern = some search →
    (search text = some caps ↔ ∃ place ≤ text.length, matchAt pattern text place = some caps ∧
      ∀ k < place, matchAt pattern text k = none)

variable {e : Engine} {matchAt : String → List Char → Nat → Option Captures} {pattern : String}
  {search : List Char → Option Captures} {text : List Char} {place : Nat} {caps : Captures}

/-- Something is found if a match begins anywhere. -/
theorem Engine.LeftmostFirst.exists_find (he : e.LeftmostFirst matchAt)
    (hsearch : e.search? pattern = some search) (hplace : place ≤ text.length)
    (h : (matchAt pattern text place).isSome) : ∃ caps, search text = some caps := by
  -- the least place will do
  have hexists : ∃ k, (matchAt pattern text k).isSome := ⟨place, h⟩
  obtain ⟨caps, hc⟩ := Option.isSome_iff_exists.1 (Nat.find_spec hexists)
  have hle : Nat.find hexists ≤ text.length := Nat.le_trans (Nat.find_min' hexists h) hplace
  refine ⟨caps, (he.find_iff _ _ _ _ hsearch).2 ⟨_, hle, hc, ?_⟩⟩
  intro k hk
  exact Option.not_isSome_iff_eq_none.1 (Nat.find_min hexists hk)

variable {s : Search} {p : Program} {w w' : Way} {i : Instruction}

/-- A way that began at a place has passed the text up to what is left of it. -/
def Way.Placed (text : List Char) (place : Nat) (w : Way) : Prop :=
  place ≤ w.passed ∧ w.passed ≤ text.length ∧ w.rest = text.drop w.passed

theorem Way.Placed.follow (h : w.Placed text place) (hw : w' ∈ w.follow i) :
    w'.Placed text place := by
  cases i with
  | read set =>
    rw [Way.follow] at hw
    split at hw
    · cases hw
    · next c rest hrest =>
      obtain ⟨hle, -, heq⟩ := h
      rw [hrest] at heq
      have hlt : w.passed < text.length := by
        apply Nat.lt_of_not_le
        intro hle
        rw [List.drop_of_length_le hle] at heq
        cases heq
      split at hw
      · rw [List.mem_singleton.1 hw]
        refine ⟨Nat.le_succ_of_le hle, hlt, ?_⟩
        rw [List.drop_eq_getElem_cons hlt] at heq
        exact (List.cons.inj heq).2
      · cases hw
  | check a =>
    rw [Way.follow] at hw
    split at hw
    · rw [List.mem_singleton.1 hw]
      exact h
    · cases hw
  | mark m | jump target =>
    rw [List.mem_singleton.1 hw]
    exact h
  | split preferred other =>
    rcases List.mem_cons.1 hw with rfl | hw
    · exact h
    · rw [List.mem_singleton.1 hw]
      exact h

/-- What every step keeps is true of the way that is found. -/
theorem run_induction {motive : Way → Prop} {states : Nat} {seen : Std.TreeSet Nat}
    {ws : List Way} (hstep : ∀ w i, motive w → ∀ w' ∈ w.follow i, motive w')
    (hws : ∀ w ∈ ws, motive w) (h : p.run states seen ws = some w) : motive w := by
  -- a way is given up, or replaced by those that follow it
  fun_induction Program.run p states seen ws with
  | case1 => cases h
  | case2 seen v ws hend =>
    cases h
    exact hws _ List.mem_cons_self
  | case3 seen v ws i hi state hseen ih => exact ih (List.forall_mem_cons.1 hws).2 h
  | case4 seen v ws i hi state hseen hsize ih =>
    obtain ⟨hv, hws⟩ := List.forall_mem_cons.1 hws
    refine ih ?_ h
    intro v' hv'
    rcases List.mem_append.1 hv' with hv' | hv'
    · exact hstep v i hv v' hv'
    · exact hws v' hv'
  | case5 => cases h

/-- A way that cannot go on finds nothing. -/
theorem run_eq_none {states : Nat} {seen : Std.TreeSet Nat} (hi : p[w.next]? = some i)
    (hw : w.follow i = []) : p.run states seen [w] = none := by
  rw [Program.run, hi]
  dsimp only
  rw [hw, List.nil_append, Program.run, Program.run, ite_self, ite_self]

theorem Search.span_matchAt? (hplace : place ≤ text.length)
    (h : s.matchAt? text place = some caps) :
    ∃ last, caps[0]? = some (some (place, last)) ∧ place ≤ last ∧ last ≤ text.length := by
  obtain ⟨w, hw, rfl⟩ := Option.map_eq_some_iff.1 h
  have hstart : ∀ w ∈ [Way.start text place], w.Placed text place :=
    List.forall_mem_singleton.2 ⟨Nat.le_refl _, hplace, rfl⟩
  obtain ⟨hle, hlast, -⟩ := run_induction (fun w i h w' => h.follow) hstart hw
  exact ⟨w.passed, rfl, hle, hlast⟩

/-- An expression that begins with an anchor matches nowhere else. -/
theorem Search.matchAt?_eq_none (hs : s.program[0]? = some (.check .startOfText))
    (hpos : 0 < place) (hplace : place ≤ text.length) : s.matchAt? text place = none := by
  obtain ⟨x, hx⟩ : ∃ x, (text.take place).getLast? = some x := by
    rw [← Option.ne_none_iff_exists', Ne, List.getLast?_eq_none_iff, List.take_eq_nil_iff]
    rintro (rfl | rfl)
    · exact Nat.lt_irrefl 0 hpos
    · exact absurd hplace (Nat.not_le.2 hpos)
  have hfollow : (Way.start text place).follow (.check .startOfText) = [] := by
    rw [Way.follow, Way.start, hx]
    rfl
  rw [Search.matchAt?, run_eq_none hs hfollow, Option.map_none]

/-- The first of the numbers below `n` for which there is something. -/
theorem findSome?_range_eq_some_iff {f : Nat → Option α} {n : Nat} {a : α} :
    (List.range n).findSome? f = some a ↔ ∃ k < n, f k = some a ∧ ∀ j < k, f j = none := by
  induction n with
  | zero => simp
  | succ n ih =>
    rw [List.range_succ, List.findSome?_append, Option.or_eq_some_iff, ih,
      List.findSome?_eq_none_iff, List.findSome?_singleton]
    constructor
    · rintro (⟨k, hk, h⟩ | ⟨hnone, h⟩)
      · exact ⟨k, Nat.lt_succ_of_lt hk, h⟩
      · exact ⟨n, Nat.lt_succ_self n, h, fun j hj => hnone j (List.mem_range.2 hj)⟩
    · rintro ⟨k, hk, h, hnone⟩
      rcases Nat.lt_succ_iff_lt_or_eq.1 hk with hk | rfl
      · exact .inl ⟨k, hk, h, hnone⟩
      · exact .inr ⟨fun j hj => hnone j (List.mem_range.1 hj), h⟩

def Search.matchOf (pattern : String) (text : List Char) (place : Nat) : Option Captures :=
  (Search.ofText? pattern.toList).bind fun s => s.matchAt? text place

theorem leftmostFirst_engine : engine.LeftmostFirst Search.matchOf where
  span pattern text place caps hplace h := by
    obtain ⟨s, -, h⟩ := Option.bind_eq_some_iff.1 h
    exact Search.span_matchAt? hplace h
  find_iff pattern search text caps h := by
    obtain ⟨s, hs, rfl⟩ := Option.map_eq_some_iff.1 h
    have hmatch (place : Nat) : Search.matchOf pattern text place = s.matchAt? text place := by
      rw [Search.matchOf, hs, Option.bind_some]
    simp only [hmatch, Search.find?, findSome?_range_eq_some_iff, Nat.lt_succ_iff]

end PatternGen.Regex
