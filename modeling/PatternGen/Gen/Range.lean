import PatternGen.Gen.Basic
import PatternGen.Gen.Options
import PatternGen.Time

namespace PatternGen.Gen

/-- An integer from `min` up to but not including `max`. -/
def range (w : Width) (min max : Int) : Except GenError (Gen Int) :=
  if min < max then .ok ((choose w (max - min).toNat).map fun i => min + i.val)
  else .error (.emptyRange (toString min) (toString max))

def intRange (min max : Int) : Except GenError (Gen Int) := range .word32 min max

def longRange (min max : Int) : Except GenError (Gen Int) := range .word64 min max

/-- A fraction below one with 53 binary places. -/
def double : Gen Float :=
  .draw .fraction fun i => .constant (Float.scaleB i.val.toFloat (-53))

/-- So many values as `min` up to but not including `max` allows. -/
def sequenceBetween (g : Gen α) (min max : Nat) : Except GenError (Gen (List α)) :=
  if min < max then .ok (g.sequenceIn min max)
  else .error (.emptyRange (toString min) (toString max))

def stringBetween (g : Gen Char) (min max : Nat) : Except GenError (Gen String) :=
  (g.sequenceBetween min max).map (·.map String.ofList)

def oneOf (items : List α) : Except GenError (Gen α) :=
  if items.isEmpty then .error .emptyChoice else .ok ((choose .word64 items.length).map items.get)

def charOf (text : String) : Except GenError (Gen Char) := oneOf text.toList

/-- The whole microseconds of a span of nanoseconds, if they fit into 64 bits. -/
def microseconds? (nanoseconds : Int) : Option Int :=
  let n := nanoseconds.tdiv 1000
  if Int64.minValue.toInt ≤ n ∧ n ≤ Int64.maxValue.toInt then some n else none

/-- The number of steps before the end of a span, and the step, both in microseconds. -/
def steps? (span step : Int) : Option (Int × Int) :=
  match microseconds? span, microseconds? step with
  | some span, some step =>
    -- as built without overflow checks: a sum one too great for a word is right again less one
    if 0 < span ∧ 0 < step then some ((span + step - 1).tdiv step, step) else none
  | _, _ => none

/-- One of the instants that lie some number of steps after `min`, and before `max`. The step is
given in nanoseconds. -/
def dateRangeBy (min max : Instant) (step : Int) : Except GenError (Gen Instant) :=
  match steps? (min.nanosecondsTo max) step with
  | some (steps, step) =>
    -- the calendar can end before the last step does
    (longRange 0 steps).map (·.bind fun k => found (min.addMicroseconds? (k * step)))
  | none => .error (.emptyRange (toString min) (toString max))

/-- An instant from `min` up to but not including `max`, to the microsecond. -/
def dateRange (min max : Instant) : Except GenError (Gen Instant) := dateRangeBy min max 1000

end PatternGen.Gen
