import PatternGen.Proofs.Parser.Span
import PatternGen.Proofs.Parser.Success
import PatternGen.Proofs.Regex.Engine

namespace PatternGen.Regex

open Text PatternGen.Parser

variable {e : Engine} {matchAt : String → List Char → Nat → Option Captures} {pattern : String}
  {text cs : List Char} {offset place first last : Nat} {caps : Captures} {m : RegexMatch}
  {next : Cursor}

/-- The text before a match, the match, and the rest. -/
theorem taken_cuts (hc : caps[0]? = some (some (first, last))) (hle : first ≤ last)
    (hlast : last ≤ cs.length) :
    cs = cs.take first ++ (caps.taken cs).1.text ++ cs.drop last ∧
      (caps.taken cs).2 = (cs.take first ++ (caps.taken cs).1.text).length := by
  have htext : (caps.taken cs).1.text = slice cs (first, last) := by
    simp [Captures.taken, RegexMatch.text, RegexMatch.group, hc]
  have htake : cs.take first ++ slice cs (first, last) = cs.take last := by
    rw [slice, ← List.take_add, Nat.add_sub_cancel' hle]
  rw [htext, htake, List.take_append_drop, List.length_take_of_le hlast]
  simp [Captures.taken, hc]

/-- What is read from `offset` on is the match and nothing else. -/
def TakesMatch (text : List Char) (offset : Nat) (m : RegexMatch) (next : Cursor) : Prop :=
  ∃ rest, dropBytes offset text = some (m.text ++ rest) ∧ next = ⟨offset + m.length, some rest⟩

section Token

variable (he : e.LeftmostFirst matchAt) {p : Peg [] RegexMatch} (hp : token? e pattern = some p)

include he hp

/-- A token reads up to the end of the match that begins first, whatever stands before it. -/
theorem exists_skipped {f : Option Failure} (h : p.parser.parseAt text offset = .done m next f) :
    ∃ skipped rest, dropBytes offset text = some (skipped ++ m.text ++ rest) ∧
      next = ⟨offset + byteSize skipped + m.length, some rest⟩ ∧
      (matchAt (enclosed pattern) (skipped ++ m.text ++ rest) skipped.length).isSome ∧
      ∀ k < skipped.length, matchAt (enclosed pattern) (skipped ++ m.text ++ rest) k = none := by
  obtain ⟨search, hsearch, rfl⟩ := Option.map_eq_some_iff.1 hp
  obtain ⟨cs, n, hcs, hfind, rfl⟩ := gives_token_iff.1 ⟨f, h⟩
  obtain ⟨caps, hc, htaken⟩ := Option.map_eq_some_iff.1 hfind
  obtain ⟨first, hfirst, hmatch, hnone⟩ := (he.find_iff _ _ _ _ hsearch).1 hc
  obtain ⟨last, hspan, hle, hlast⟩ := he.span _ _ _ _ hfirst hmatch
  obtain ⟨hcut, hn⟩ := taken_cuts hspan hle hlast
  rw [htaken] at hcut hn
  have hdrop := hcs.trans (congrArg some hcut)
  refine ⟨cs.take first, cs.drop last, hdrop, ?_, ?_⟩
  · dsimp only at hn
    obtain ⟨rest, hrest, hadvance⟩ := Cursor.spans_advance hdrop
    rw [hn, hadvance, byteSize_append, ← Nat.add_assoc]
    cases List.append_cancel_left (Option.some.inj (hdrop.symm.trans hrest))
    rfl
  · rw [← hcut, List.length_take_of_le hfirst]
    exact ⟨Option.isSome_iff_exists.2 ⟨caps, hmatch⟩, hnone⟩

/-- Where a match begins, a token reads something. -/
theorem exists_gives_token (hplace : place ≤ cs.length)
    (h : (matchAt (enclosed pattern) cs place).isSome) :
    ∃ m next f, p.parser.parseAt cs 0 = .done m next f := by
  obtain ⟨search, hsearch, rfl⟩ := Option.map_eq_some_iff.1 hp
  obtain ⟨caps, hc⟩ := he.exists_find hsearch hplace h
  exact ⟨_, _, gives_token_iff.2
    ⟨cs, _, dropBytes_zero cs, congrArg (Option.map (·.taken cs)) hc, rfl⟩⟩

end Token

/-- A token takes the match that begins first, and skips what stands before it. It never skips
anything if and only if its expression matches at the beginning of each text in which it matches. -/
theorem token_takes_match (he : e.LeftmostFirst matchAt) {p : Peg [] RegexMatch}
    (hp : token? e pattern = some p) :
    (∀ text offset m next f, p.parser.parseAt text offset = .done m next f →
      ∃ skipped rest, dropBytes offset text = some (skipped ++ m.text ++ rest) ∧
        next = ⟨offset + byteSize skipped + m.length, some rest⟩ ∧
        (matchAt (enclosed pattern) (skipped ++ m.text ++ rest) skipped.length).isSome ∧
        ∀ k < skipped.length,
          matchAt (enclosed pattern) (skipped ++ m.text ++ rest) k = none) ∧
    ((∀ text offset m next f, p.parser.parseAt text offset = .done m next f →
        TakesMatch text offset m next) ↔
      ∀ cs : List Char, ∀ place ≤ cs.length, (matchAt (enclosed pattern) cs place).isSome →
        (matchAt (enclosed pattern) cs 0).isSome) := by
  refine ⟨fun text offset m next f => exists_skipped he hp, ?_, ?_⟩
  · intro htakes cs place hplace hmatch
    -- the token finds something in this text, and skips what it may not skip
    obtain ⟨m, next, f, hm⟩ := exists_gives_token he hp hplace hmatch
    obtain ⟨skipped, rest, hcs, hnext, hfirst, -⟩ := exists_skipped he hp hm
    obtain ⟨_, -, hnext'⟩ := htakes _ _ _ _ _ hm
    have hoffset := congrArg Cursor.offset (hnext.symm.trans hnext')
    have hlength := length_le_byteSize skipped
    dsimp only at hoffset
    obtain rfl : skipped = [] := List.length_eq_zero_iff.1 (by omega)
    rw [dropBytes_zero] at hcs
    rwa [Option.some.inj hcs]
  · intro hmatch text offset m next f hm
    obtain ⟨skipped, rest, htext, hnext, hfirst, hnone⟩ := exists_skipped he hp hm
    have hzero := hmatch _ skipped.length (by simp) hfirst
    cases skipped with
    | nil => exact ⟨rest, htext, hnext⟩
    | cons x skipped =>
      rw [hnone 0 (Nat.succ_pos _)] at hzero
      cases hzero

/-- What a token of the engine here matches at an offset of a text, and the place where it stops. -/
def tokenAt? (pattern : String) (text : List Char) (offset : Nat) : Option (RegexMatch × Cursor) :=
  (token? engine pattern).bind fun p : Peg [] RegexMatch =>
    match p.parser.parseAt text offset with
    | .done m next _ => some (m, next)
    | _ => none

theorem exists_of_tokenAt? (h : tokenAt? pattern text offset = some (m, next)) :
    ∃ p : Peg [] RegexMatch, token? engine pattern = some p ∧
      ∃ f, p.parser.parseAt text offset = .done m next f := by
  obtain ⟨p, hp, h⟩ := Option.bind_eq_some_iff.1 h
  refine ⟨p, hp, ?_⟩
  split at h
  · next heq =>
    cases h
    exact ⟨_, heq⟩
  · cases h

theorem token_takes_match_digits :
    ∃ p : Peg [] RegexMatch, engine.LeftmostFirst Search.matchOf ∧
      token? engine "[0-9]+" = some p ∧
      (∃ f, p.parser.parseAt "ab12c".toList 2 =
        .done ⟨[some "12".toList]⟩ ⟨4, some ['c']⟩ f) ∧
      ∀ text offset m next f, p.parser.parseAt text offset = .done m next f →
        TakesMatch text offset m next := by
  have hat : tokenAt? "[0-9]+" "ab12c".toList 2 =
      some (⟨[some "12".toList]⟩, ⟨4, some ['c']⟩) := by decide +kernel
  have hanchor : ((Search.ofText? (enclosed "[0-9]+").toList).bind (·.program[0]?)) =
      some (.check .startOfText) := by decide +kernel
  obtain ⟨s, hs, hanchor⟩ := Option.bind_eq_some_iff.1 hanchor
  obtain ⟨p, hp, h⟩ := exists_of_tokenAt? hat
  refine ⟨p, leftmostFirst_engine, hp, h, (token_takes_match leftmostFirst_engine hp).2.2 ?_⟩
  intro cs place hplace hmatch
  cases place with
  | zero => exact hmatch
  | succ k =>
    rw [Search.matchOf, hs, Option.bind_some,
      Search.matchAt?_eq_none hanchor (Nat.succ_pos k) hplace] at hmatch
    cases hmatch

/-- A token does not always take its match only: the pattern `a)|(b` finds the second character. -/
theorem not_token_takes_match_only :
    ¬ ∀ (e : Engine) (matchAt : String → List Char → Nat → Option Captures),
      e.LeftmostFirst matchAt → ∀ (pattern : String) (p : Peg [] RegexMatch),
      token? e pattern = some p → ∀ text offset m next f,
      p.parser.parseAt text offset = .done m next f → TakesMatch text offset m next := by
  intro hall
  have hat : tokenAt? "a)|(b" "xb".toList 0 =
      some (⟨[some ['b'], some ['b']]⟩, ⟨2, some []⟩) := by decide +kernel
  obtain ⟨p, hp, f, h⟩ := exists_of_tokenAt? hat
  obtain ⟨rest, hdrop, -⟩ := hall engine _ leftmostFirst_engine _ p hp _ 0 _ _ f h
  cases hdrop

end PatternGen.Regex
