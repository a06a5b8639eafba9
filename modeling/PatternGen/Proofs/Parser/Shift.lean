import PatternGen.Proofs.Parser.Success

namespace PatternGen

open Text

/-- The place with `n` bytes more before it. -/
def Cursor.shift (n : Nat) (c : Cursor) : Cursor := ⟨n + c.offset, c.rest?⟩

def Failure.shift (n : Nat) (f : Failure) : Failure := ⟨n + f.offset, f.expected⟩

def Outcome.shift (n : Nat) : Outcome α → Outcome α
  | done a next furthest => done a (next.shift n) (furthest.map (Failure.shift n))
  | failed f => failed (f.shift n)
  | stuck fault => stuck fault

namespace Cursor

@[simp] theorem rest?_shift (n : Nat) (c : Cursor) : (c.shift n).rest? = c.rest? := rfl

@[simp] theorem size_shift (n : Nat) (c : Cursor) : (c.shift n).size = c.size := rfl

theorem advance_shift (n m : Nat) (c : Cursor) : (c.shift n).advance m = (c.advance m).shift n := by
  obtain ⟨offset, _ | rest⟩ := c
  · rfl
  · simp [advance, shift, Nat.add_assoc]

theorem ofOffset_append (a b : List Char) :
    ofOffset (a ++ b) (byteSize a) = (ofOffset b 0).shift (byteSize a) := by
  rw [ofOffset, dropBytes_byteSize_append, ofOffset, dropBytes_zero, shift, Nat.add_zero]

end Cursor

namespace Failure

theorem merge_shift (n : Nat) (f g : Failure) :
    (f.shift n).merge (g.shift n) = (f.merge g).shift n := by
  simp only [merge, shift, Nat.add_lt_add_iff_left]
  split
  · rfl
  · split <;> rfl

theorem furthest_shift (n : Nat) (d e : Option Failure) :
    furthest (d.map (shift n)) (e.map (shift n)) = (furthest d e).map (shift n) := by
  cases d with
  | none => rw [Option.map_none, furthest_none_left, furthest_none_left]
  | some f =>
    cases e with
    | none => rw [Option.map_none, furthest_none_right, furthest_none_right]
    | some g => exact congrArg some (merge_shift n f g)

theorem furthest_shift_some (n : Nat) (e : Option Failure) (f : Failure) :
    furthest (e.map (shift n)) (some (f.shift n)) = (furthest e (some f)).map (shift n) :=
  furthest_shift n e (some f)

end Failure

namespace Outcome

@[simp] theorem shift_done (n : Nat) (a : α) (d : Cursor) (e : Option Failure) :
    (done a d e).shift n = done a (d.shift n) (e.map (Failure.shift n)) := rfl

@[simp] theorem shift_failed (n : Nat) (f : Failure) :
    (failed f : Outcome α).shift n = failed (f.shift n) := rfl

theorem recalling_shift (n : Nat) (e : Option Failure) (o : Outcome α) :
    (o.shift n).recalling (e.map (Failure.shift n)) = (o.recalling e).shift n := by
  cases o with
  | done a d x => rw [recalling, shift_done, shift_done, recalling, Failure.furthest_shift]
  | failed f =>
    cases e with
    | none => rfl
    | some g => exact congrArg failed (Failure.merge_shift n g f)
  | stuck x => rfl

end Outcome

namespace Parser

/-- More text before a place changes nothing but the offsets. -/
def Local (p : Parser α) : Prop := ∀ n c, p (c.shift n) = (p c).shift n

variable {α β : Type} {p : Parser α}

theorem local_token (what : String) (scan : List Char → Option (α × Nat)) :
    (token what scan).Local := by
  intro n c
  rw [token, token, Cursor.rest?_shift]
  cases c.rest? with
  | none => rfl
  | some rest =>
    dsimp only
    cases scan rest with
    | none => rfl
    | some r =>
      dsimp only
      rw [Cursor.advance_shift]
      rfl

theorem local_success (a : α) : (success a).Local := fun _ _ => rfl

theorem local_fail : (fail : Parser α).Local := fun _ _ => rfl

theorem local_endOfInput : endOfInput.Local := by
  intro n c
  rw [endOfInput, endOfInput, Cursor.rest?_shift]
  split <;> rfl

theorem Local.bind {f : α → Parser β} (hp : p.Local) (hf : ∀ a, (f a).Local) :
    (p.bind f).Local := by
  intro n c
  rw [Parser.bind, Parser.bind, hp n c]
  cases p c with
  | done a d e =>
    simp only [Outcome.shift_done]
    rw [hf a n d, Outcome.recalling_shift]
  | failed f => rfl
  | stuck x => rfl

theorem Local.orElse {q : Parser α} (hp : p.Local) (hq : q.Local) : (p.orElse q).Local := by
  intro n c
  rw [Parser.orElse, Parser.orElse, hp n c]
  cases p c with
  | done a d e => rfl
  | failed f =>
    simp only [Outcome.shift_failed]
    rw [hq n c]
    exact Outcome.recalling_shift n (some f) (q c)
  | stuck x => rfl

theorem firstOf_shift {ps : List (Parser α)} (h : ∀ p ∈ ps, p.Local) (n : Nat)
    (tried : Option Failure) (c : Cursor) :
    firstOf (tried.map (Failure.shift n)) ps (c.shift n) = (firstOf tried ps c).shift n := by
  induction ps generalizing tried with
  | nil => cases tried <;> rfl
  | cons p ps ih =>
    obtain ⟨hp, hps⟩ := List.forall_mem_cons.1 h
    rw [firstOf, firstOf, hp n c]
    cases p c with
    | done a d e => exact Outcome.recalling_shift n tried (.done a d e)
    | failed f =>
      simp only [Outcome.shift_failed, Failure.furthest_shift_some]
      exact ih hps _
    | stuck x => rfl

theorem local_oneOf {ps : List (Parser α)} (h : ∀ p ∈ ps, p.Local) : (oneOf ps).Local := by
  intro n c
  exact firstOf_shift h n none c

theorem Local.filter (hp : p.Local) (what : String) (keep : α → Bool) :
    (p.filter what keep).Local := by
  intro n c
  rw [Parser.filter, Parser.filter, hp n c]
  cases p c with
  | done a d e =>
    simp only [Outcome.shift_done]
    split <;> rfl
  | failed f => rfl
  | stuck x => rfl

theorem Local.collect_shift (hp : p.Local) (n : Nat) (values : List α) (e : Option Failure)
    (c : Cursor) :
    collect p values (e.map (Failure.shift n)) (c.shift n) = (collect p values e c).shift n := by
  induction hs : c.size using Nat.strongRecOn generalizing values e c with
  | _ k ih =>
    rw [collect, collect, hp n c]
    cases p c with
    | done a d x =>
      simp only [Outcome.shift_done, Cursor.size_shift, Failure.furthest_shift]
      split
      · next hd => exact ih d.size (hs ▸ hd) _ _ d rfl
      · rfl
    | failed f =>
      simp only [Outcome.shift_failed, Outcome.shift_done, Failure.furthest_shift_some]
    | stuck x => rfl

theorem Local.many (hp : p.Local) : (many p).Local := by
  intro n c
  exact hp.collect_shift n [] none c

theorem Local.atLeastOne (hp : p.Local) : (atLeastOne p).Local := by
  intro n c
  rw [Parser.atLeastOne, Parser.atLeastOne, hp n c]
  cases p c with
  | done a d e => exact hp.collect_shift n [a] e d
  | failed f => rfl
  | stuck x => rfl

theorem Local.collectSeparated_shift {q : Parser β} (hp : p.Local) (hq : q.Local) (n : Nat)
    (values : List α) (e : Option Failure) (c : Cursor) :
    collectSeparated p q values (e.map (Failure.shift n)) (c.shift n) =
      (collectSeparated p q values e c).shift n := by
  induction hs : c.size using Nat.strongRecOn generalizing values e c with
  | _ k ih =>
    rw [collectSeparated, collectSeparated, hq n c]
    cases q c with
    | done b d x =>
      simp only [Outcome.shift_done]
      rw [hp n d]
      cases p d with
      | done a m y =>
        simp only [Outcome.shift_done, Cursor.size_shift, Failure.furthest_shift]
        split
        · next hm => exact ih m.size (hs ▸ hm) _ _ m rfl
        · rfl
      | failed f =>
        simp only [Outcome.shift_failed, Outcome.shift_done, Failure.furthest_shift_some]
      | stuck y => rfl
    | failed f =>
      simp only [Outcome.shift_failed, Outcome.shift_done, Failure.furthest_shift_some]
    | stuck x => rfl

theorem Local.separatedBy {q : Parser β} (hp : p.Local) (hq : q.Local) :
    (separatedBy p q).Local := by
  intro n c
  rw [Parser.separatedBy, Parser.separatedBy, hp n c]
  cases p c with
  | done a d e => exact hp.collectSeparated_shift hq n [a] e d
  | failed f => rfl
  | stuck x => rfl

theorem local_recursive {define : Parser α → Parser α} (h : ∀ p, p.Local → (define p).Local) :
    Local (recursive define) := by
  intro n c
  induction hs : c.size using Nat.strongRecOn generalizing n c with
  | _ k ih =>
    -- how far the parser may call itself depends on what is left, which the shift keeps
    have hafter : (after (recursive define) c).Local := by
      intro m d
      rw [after, after, Cursor.size_shift]
      split
      · next hd => exact ih d.size (hs ▸ hd) m d rfl
      · rfl
    rw [recursive_apply, recursive_apply]
    exact h _ hafter n c

end Parser

def Handles.Local (env : Handles Γ) : Prop := ∀ α (x : Handle α Γ), (env α x).Local

theorem Handles.Local.push {env : Handles Γ} (h : env.Local) {p : Parser α} (hp : p.Local) :
    (env.push p).Local := by
  intro β x
  cases x with
  | innermost => exact hp
  | outer x => exact h β x

theorem Peg.local_denote (p : Peg Γ α) {env : Handles Γ} (h : env.Local) :
    (p.denote env).Local := by
  induction p with
  | token what scan => exact Parser.local_token what scan
  | success a => exact Parser.local_success a
  | fail => exact Parser.local_fail
  | endOfInput => exact Parser.local_endOfInput
  | bind p f ihp ihf => exact (ihp h).bind fun a => ihf a h
  | orElse p q ihp ihq => exact (ihp h).orElse (ihq h)
  | choice n ps ih =>
    apply Parser.local_oneOf
    intro p hp
    obtain ⟨i, rfl⟩ := List.mem_ofFn.1 hp
    exact ih i h
  | filter what keep p ih => exact (ih h).filter what keep
  | many p ih => exact (ih h).many
  | atLeastOne p ih => exact (ih h).atLeastOne
  | separatedBy p q ihp ihq => exact (ihp h).separatedBy (ihq h)
  | recursive body ih =>
    apply Parser.local_recursive
    intro p hp
    exact ih (h.push hp)
  | ref x => exact h _ x

/-- Reading depends on what follows the offset only: the text before it adds its size to the
offsets of the success, of the failure and of the furthest failure, and changes nothing else. -/
theorem Peg.parseAt_append (p : Peg [] α) (a b : List Char) :
    p.parser.parseAt (a ++ b) (byteSize a) = (p.parser.parseAt b 0).shift (byteSize a) := by
  have hlocal : p.parser.Local := p.local_denote nofun
  rw [Parser.parseAt, Parser.parseAt, Cursor.ofOffset_append]
  exact hlocal _ _

end PatternGen
