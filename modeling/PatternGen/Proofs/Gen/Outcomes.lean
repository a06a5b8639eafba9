import Mathlib.Data.List.Forall2
import PatternGen.Gen.Range

namespace PatternGen.Gen

variable {α β σ : Type} {g : Gen α}

def Yields : Gen α → α → Prop
  | constant a, b => b = a
  | draw _ next, b => ∃ i, (next i).Yields b

/-- Every draw has an answer, whatever the answers to the draws before it. -/
def Answerable : Gen α → Prop
  | constant _ => True
  | draw d next => 0 < d.size ∧ ∀ i, (next i).Answerable

theorem Answerable.run (h : g.Answerable) (m : Sampler σ) (s : σ) :
    ∃ a t, g.run m s = some (a, t) ∧ g.Yields a := by
  induction g generalizing s with
  | constant a => exact ⟨a, s, rfl, rfl⟩
  | draw d next ih =>
    obtain ⟨hd, hn⟩ := h
    obtain ⟨a, t, hr, ha⟩ := ih (m.draw d hd s).1 (hn _) (m.draw d hd s).2
    refine ⟨a, t, ?_, (m.draw d hd s).1, ha⟩
    rw [Gen.run, dif_pos hd]
    exact hr

def Draws (g : Gen α) (a : α) : Prop :=
  ∃ (σ : Type) (m : Sampler σ) (s t : σ), g.run m s = some (a, t)

/-- The source that answers as a list says, where an answer that is too great wraps around. -/
def scripted : Sampler (List Nat) :=
  ⟨fun d h answers => (⟨answers.headD 0 % d.size, Nat.mod_lt _ h⟩, answers.tail)⟩

theorem run_scripted_cons {d : Draw} (next : Fin d.size → Gen α) (i : Fin d.size) (s : List Nat) :
    (draw d next).run scripted (i.val :: s) = (next i).run scripted s := by
  have hi : scripted.draw d i.pos (i.val :: s) = (i, s) :=
    Prod.ext (Fin.ext (Nat.mod_eq_of_lt i.isLt)) rfl
  rw [Gen.run, dif_pos i.pos, hi]

theorem Yields.run_scripted (h : g.Yields a) : ∃ s t, g.run scripted s = some (a, t) := by
  induction g with
  | constant b =>
    cases h
    exact ⟨[], [], rfl⟩
  | draw d next ih =>
    obtain ⟨i, h⟩ := h
    obtain ⟨s, t, hr⟩ := ih i h
    exact ⟨i.val :: s, t, (run_scripted_cons next i s).trans hr⟩

theorem yields_of_run {m : Sampler σ} (h : g.run m s = some (a, t)) : g.Yields a := by
  induction g generalizing s with
  | constant b =>
    cases h
    rfl
  | draw d next ih =>
    rw [Gen.run] at h
    split at h
    · exact ⟨_, ih _ h⟩
    · cases h

/-- Sources give a generator's values and nothing else. -/
theorem draws_iff_yields : g.Draws a ↔ g.Yields a := by
  constructor
  · intro h
    obtain ⟨_, m, s, t, h⟩ := h
    exact yields_of_run h
  · intro h
    obtain ⟨s, t, h⟩ := h.run_scripted
    exact ⟨_, scripted, s, t, h⟩

/-- A generator gives a value from every source only if all its draws have an answer. -/
theorem runs_iff_answerable :
    (∀ {σ : Type} (m : Sampler σ) (s : σ), ∃ a t, g.run m s = some (a, t)) ↔ g.Answerable := by
  constructor
  · intro h
    replace h (s : List Nat) : ∃ a t, g.run scripted s = some (a, t) := h scripted s
    induction g with
    | constant a => trivial
    | draw d next ih =>
      have hd : 0 < d.size := by
        obtain ⟨a, t, hr⟩ := h []
        rw [Gen.run] at hr
        split at hr
        · assumption
        · cases hr
      refine ⟨hd, fun i => ih i ?_⟩
      intro s
      obtain ⟨a, t, hr⟩ := h (i.val :: s)
      exact ⟨a, t, (run_scripted_cons next i s).symm.trans hr⟩
  · intro h σ m s
    obtain ⟨a, t, hr, -⟩ := h.run m s
    exact ⟨a, t, hr⟩

theorem yields_bind_iff {f : α → Gen β} :
    (g.bind f).Yields b ↔ ∃ a, g.Yields a ∧ (f a).Yields b := by
  induction g with
  | constant a =>
    constructor
    · intro h
      exact ⟨a, rfl, h⟩
    · intro h
      obtain ⟨_, rfl, h⟩ := h
      exact h
  | draw d next ih =>
    constructor
    · intro h
      obtain ⟨i, h⟩ := h
      obtain ⟨a, ha, hb⟩ := (ih i).1 h
      exact ⟨a, ⟨i, ha⟩, hb⟩
    · intro h
      obtain ⟨a, ⟨i, ha⟩, hb⟩ := h
      exact ⟨i, (ih i).2 ⟨a, ha, hb⟩⟩

theorem Answerable.bind {f : α → Gen β} (hg : g.Answerable)
    (hf : ∀ a, g.Yields a → (f a).Answerable) : (g.bind f).Answerable := by
  induction g with
  | constant a => exact hf a rfl
  | draw d next ih =>
    obtain ⟨hd, hn⟩ := hg
    refine ⟨hd, fun i => ih i (hn i) ?_⟩
    intro a ha
    exact hf a ⟨i, ha⟩

theorem bind_congr {f h : α → Gen β} (hfh : ∀ a, g.Yields a → f a = h a) :
    g.bind f = g.bind h := by
  induction g with
  | constant a => exact hfh a rfl
  | draw d next ih =>
    apply congrArg (draw d)
    funext i
    apply ih i
    intro a ha
    exact hfh a ⟨i, ha⟩

theorem yields_map_iff {f : α → β} :
    (g.map f).Yields b ↔ ∃ a, g.Yields a ∧ b = f a :=
  yields_bind_iff

theorem Answerable.map {f : α → β} (h : g.Answerable) : (g.map f).Answerable :=
  h.bind fun _ _ => trivial

theorem yields_zip_iff {h : Gen β} {p : α × β} :
    (g.zip h).Yields p ↔ g.Yields p.1 ∧ h.Yields p.2 := by
  rw [zip, yields_bind_iff]
  simp only [yields_map_iff]
  constructor
  · intro hp
    obtain ⟨a, ha, b, hb, rfl⟩ := hp
    exact ⟨ha, hb⟩
  · intro hp
    exact ⟨p.1, hp.1, p.2, hp.2, rfl⟩

theorem Answerable.zip {h : Gen β} (hg : g.Answerable) (hh : h.Answerable) :
    (g.zip h).Answerable :=
  hg.bind fun _ _ => hh.map

theorem Answerable.of_bind {f : α → Gen β} (h : (g.bind f).Answerable) (ha : g.Yields a) :
    (f a).Answerable := by
  induction g with
  | constant b =>
    cases ha
    exact h
  | draw d next ih =>
    obtain ⟨i, ha⟩ := ha
    exact ih i (h.2 i) ha

theorem yields_found_iff {o : Option α} : (found o).Yields a ↔ o = some a := by
  cases o with
  | none => exact iff_of_false (fun ⟨i, _⟩ => i.elim0) nofun
  | some b => exact eq_comm.trans Option.some_inj.symm

theorem answerable_found_iff {o : Option α} : (found o).Answerable ↔ ∃ a, o = some a := by
  cases o with
  | none => exact iff_of_false (fun h => Nat.lt_irrefl 0 h.1) nofun
  | some b => exact iff_of_true trivial ⟨b, rfl⟩

theorem yields_choose (w : Width) (i : Fin n) : (choose w n).Yields i :=
  ⟨i, rfl⟩

theorem answerable_choose (w : Width) (h : 0 < n) : (choose w n).Answerable :=
  ⟨h, fun _ => trivial⟩

theorem yields_pivotOnto_iff {drawn as : List α} :
    (pivotOnto drawn gs).Yields as ↔
      ∃ bs, List.Forall₂ Yields gs bs ∧ as = drawn.reverse ++ bs := by
  induction gs generalizing drawn with
  | nil =>
    constructor
    · intro h
      exact ⟨[], .nil, h.trans (List.append_nil _).symm⟩
    · intro h
      obtain ⟨_, ⟨⟩, rfl⟩ := h
      exact List.append_nil _
  | cons g gs ih =>
    rw [pivotOnto, yields_bind_iff]
    constructor
    · intro h
      obtain ⟨a, ha, h⟩ := h
      obtain ⟨bs, hbs, rfl⟩ := ih.1 h
      exact ⟨a :: bs, .cons ha hbs, by simp⟩
    · intro h
      obtain ⟨_, _ | ⟨ha, hbs⟩, rfl⟩ := h
      exact ⟨_, ha, ih.2 ⟨_, hbs, by simp⟩⟩

theorem yields_pivot_iff {gs : List (Gen α)} :
    (pivot gs).Yields as ↔ List.Forall₂ Yields gs as := by
  rw [pivot, yields_pivotOnto_iff]
  simp

theorem answerable_pivotOnto {drawn : List α} (h : ∀ g ∈ gs, g.Answerable) :
    (pivotOnto drawn gs).Answerable := by
  induction gs generalizing drawn with
  | nil => trivial
  | cons g gs ih =>
    obtain ⟨hg, hgs⟩ := List.forall_mem_cons.1 h
    exact hg.bind fun a _ => ih hgs

theorem answerable_pivot {gs : List (Gen α)} (h : ∀ g ∈ gs, g.Answerable) :
    (pivot gs).Answerable :=
  answerable_pivotOnto h

theorem yields_sequenceOnto_iff {drawn as : List α} :
    (sequenceOnto g drawn n).Yields as ↔
      ∃ bs, bs.length = n ∧ (∀ b ∈ bs, g.Yields b) ∧ as = drawn.reverse ++ bs := by
  induction n generalizing drawn with
  | zero =>
    constructor
    · intro h
      exact ⟨[], rfl, nofun, h.trans (List.append_nil _).symm⟩
    · intro h
      obtain ⟨bs, hn, -, rfl⟩ := h
      rw [List.length_eq_zero_iff.1 hn]
      exact List.append_nil _
  | succ n ih =>
    rw [sequenceOnto, yields_bind_iff]
    constructor
    · intro h
      obtain ⟨a, ha, h⟩ := h
      obtain ⟨bs, hn, hbs, rfl⟩ := ih.1 h
      exact ⟨a :: bs, congrArg (· + 1) hn, List.forall_mem_cons.2 ⟨ha, hbs⟩, by simp⟩
    · intro h
      obtain ⟨bs, hn, hbs, rfl⟩ := h
      cases bs with
      | nil => cases hn
      | cons b bs =>
        obtain ⟨hb, hbs⟩ := List.forall_mem_cons.1 hbs
        exact ⟨b, hb, ih.2 ⟨bs, Nat.succ.inj hn, hbs, by simp⟩⟩

theorem yields_sequence_iff :
    (g.sequence n).Yields as ↔ as.length = n ∧ ∀ a ∈ as, g.Yields a := by
  rw [sequence, yields_sequenceOnto_iff]
  simp

theorem answerable_sequence (h : g.Answerable) (n : Nat) :
    (g.sequence n).Answerable := by
  have honto (drawn : List α) : (sequenceOnto g drawn n).Answerable := by
    induction n generalizing drawn with
    | zero => trivial
    | succ n ih => exact h.bind fun a _ => ih _
  exact honto []

theorem yields_sequenceIn_iff {lo hi : Nat} :
    (g.sequenceIn lo hi).Yields as ↔
      lo ≤ as.length ∧ as.length < hi ∧ ∀ a ∈ as, g.Yields a := by
  rw [sequenceIn, yields_bind_iff]
  constructor
  · intro h
    obtain ⟨i, -, h⟩ := h
    obtain ⟨hl, has⟩ := yields_sequence_iff.1 h
    have hi := i.isLt
    exact ⟨by omega, by omega, has⟩
  · intro h
    obtain ⟨hlo, hhi, has⟩ := h
    refine ⟨⟨as.length - lo, by omega⟩, yields_choose _ _, yields_sequence_iff.2 ⟨?_, has⟩⟩
    change as.length = lo + (as.length - lo)
    omega

theorem answerable_sequenceIn {lo hi : Nat} (h : g.Answerable) (hlt : lo < hi) :
    (g.sequenceIn lo hi).Answerable := by
  apply (answerable_choose _ (Nat.sub_pos_of_lt hlt)).bind
  intro i _
  exact answerable_sequence h _

variable {α β σ : Type} {m : Sampler σ} {g : Gen α}

/-- The values are drawn in a row, each from the state of the source that the one before left. -/
inductive Consecutive (g : Gen α) (m : Sampler σ) : σ → List α → σ → Prop where
  | nil : Consecutive g m s [] s
  | cons (h : g.run m s = some (a, t)) (hs : Consecutive g m t as u) :
    Consecutive g m s (a :: as) u

theorem Consecutive.yields (h : g.Consecutive m s as t) : ∀ a ∈ as, g.Yields a := by
  induction h with
  | nil => exact List.forall_mem_nil _
  | cons h _ ih => exact List.forall_mem_cons.2 ⟨yields_of_run h, ih⟩

theorem Answerable.exists_consecutive (h : g.Answerable) (m : Sampler σ) (n : Nat) (s : σ) :
    ∃ as t, as.length = n ∧ g.Consecutive m s as t := by
  induction n generalizing s with
  | zero => exact ⟨[], s, rfl, .nil⟩
  | succ n ih =>
    obtain ⟨a, t, hrun, -⟩ := h.run m s
    obtain ⟨as, u, hlength, hs⟩ := ih t
    exact ⟨a :: as, u, congrArg (· + 1) hlength, .cons hrun hs⟩

theorem Consecutive.map (h : g.Consecutive m s as t) (f : α → β) :
    (g.map f).Consecutive m s (as.map f) t := by
  induction h with
  | nil => exact .nil
  | cons hrun _ ih =>
    refine .cons ?_ ih
    rw [Gen.map, run_bind, hrun]
    rfl

theorem runTimes_of_consecutive (h : g.Consecutive m s as t) (drawn : List α) :
    g.runTimes m drawn as.length s = some (drawn.reverse ++ as, t) := by
  induction h generalizing drawn with
  | nil => rw [List.length_nil, runTimes, List.append_nil]
  | cons hrun _ ih =>
    rw [List.length_cons, runTimes, hrun, Option.bind_some]
    simp [ih]

end PatternGen.Gen
