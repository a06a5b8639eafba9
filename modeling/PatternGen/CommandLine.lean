import PatternGen.Gen.Compile
import PatternGen.Gen.Range
import PatternGen.Random.Source
import PatternGen.Text.Basic

namespace PatternGen

open Text

structure Person where
  id : Int
  name : String
  birthday : Instant
  deriving DecidableEq

namespace Person

/-- The number and the name in columns of their own, then the date of birth. -/
def print (p : Person) : List Char :=
  padLeft 6 ' ' (toString p.id).toList ++ [' ', ' '] ++ padRight 18 ' ' p.name.toList ++
    ' ' :: p.birthday.date.print

instance : ToString Person where
  toString p := String.ofList p.print

def generator : Except GenError (Gen Person) :=
  (Gen.intRange 1 100000).bind fun ids =>
    (Gen.ofPattern "[A-Z][a-z]\x7b2,16\x7d").bind fun names =>
      (Gen.dateRange (.midnight 1900 1 1) (.midnight 2000 1 1)).map fun birthdays =>
        ((ids.zip names).zip birthdays).map fun ((id, name), birthday) => ⟨id, name, birthday⟩

end Person

end PatternGen

namespace PatternGen.CommandLine

open Text

inductive Task where
  | pattern (text : String)
  | password (length : Nat) (classes : List String)
  | people
  deriving DecidableEq, Repr

inductive Switch where
  | seed
  | count
  | repeatCap
  deriving DecidableEq, Repr

structure Given where
  seed : Option UInt64 := none
  count : Option Nat := none
  repeatCap : Option UInt32 := none
  deriving DecidableEq, Repr

structure Request where
  given : Given
  task : Task
  deriving DecidableEq, Repr

/-- A number below a bound, perhaps with a plus sign. -/
def number? (bound : Nat) (word : List Char) : Option Nat :=
  (numeral? (if word.head? = some '+' then word.tail else word)).filter (· < bound)

/-- A count of 32 bits. Zero may have a minus sign. -/
def capNumber? (word : List Char) : Option UInt32 :=
  if word.head? = some '-' then if numeral? word.tail = some 0 then some 0 else none
  else (number? UInt32.size word).map UInt32.ofNat

def isFlag (word : String) : Bool :=
  match word.toList with
  | '-' :: _ :: _ => true
  | _ => false

def Switch.ofName? : String → Option Switch
  | "--seed" => some seed
  | "--count" => some count
  | "--repeat-cap" => some repeatCap
  | _ => none

/-- One more option; it cannot be given twice. -/
def Given.set (g : Given) (switch : Switch) (value : List Char) : Option Given :=
  match switch, g with
  | .seed, { seed := none, .. } =>
    (number? UInt64.size value).map fun n => { g with seed := some (.ofNat n) }
  | .count, { count := none, .. } =>
    (number? UInt64.size value).map fun n => { g with count := some n }
  | .repeatCap, { repeatCap := none, .. } =>
    (capNumber? value).map fun n => { g with repeatCap := some n }
  | _, _ => none

/-- The arguments of a task. No option stands among them, unless two dashes come before it. -/
def arguments? : List String → Option (List String)
  | [] => some []
  | word :: words =>
    if word = "--" then some words
    else if isFlag word then none
    else (arguments? words).map (word :: ·)

def Task.ofWords? (name : String) (words : List String) : Option Task :=
  match name, arguments? words with
  | "pattern", some [text] => some (.pattern text)
  | "password", some (length :: charClass :: classes) =>
    (number? UInt64.size length.toList).map fun n => .password n (charClass :: classes)
  | "people", some [] => some .people
  | _, _ => none

/-- What the words ask for after some options. A value follows its option as a word of its own, or
after an equals sign. -/
def Request.read? (g : Given) : List String → Option Request
  | [] => none
  | word :: words =>
    let name := word.toList.takeWhile (· != '=')
    match Switch.ofName? (String.ofList name), word.toList.drop name.length, words with
    | some switch, _ :: value, words => (g.set switch value).bind (read? · words)
    | some switch, [], value :: words =>
      if isFlag value then none else (g.set switch value.toList).bind (read? · words)
    | some _, [], [] => none
    | none, _, words => (Task.ofWords? word words).map (⟨g, ·⟩)

inductive Response where
  | printed (output : String)
  | failed (complaint : String)
  /-- The words are no request. -/
  | refused
  deriving DecidableEq, Repr

namespace Response

def code : Response → UInt32
  | printed _ => 0
  | failed _ => 1
  | refused => 2

def output : Response → String
  | printed output => output
  | _ => ""

def complaint : Response → String
  | failed complaint => complaint
  | _ => ""

end Response

/-- A complaint whose cause is told by itself. -/
def plainly (e : GenError) : String := "Error: " ++ e.message ++ "\n"

/-- A complaint about the classes of a password, with its cause set off by four blanks. -/
def aboutClasses (classes : List String) (e : GenError) : String :=
  "Error: cannot build a password generator for " ++ quotedList classes ++ "\n\nCaused by:\n    " ++
    String.ofList (e.message.toList.flatMap fun c =>
      if c = '\n' then ['\n', ' ', ' ', ' ', ' '] else [c]) ++ "\n"

def printAll [ToString α] (g : Gen α) (count : Nat) (source : Source) : Response :=
  match g.runTimes Source.sampler [] count source with
  | some (values, _) => .printed (String.join (values.map fun a => toString a ++ "\n"))
  | none => .failed ""

def respondWith [ToString α] (g : Except GenError (Gen α)) (complain : GenError → String)
    (count : Nat) (source : Source) : Response :=
  match g with
  | .ok g => printAll g count source
  | .error e => .failed (complain e)

/-- The clock gives the seed if no option does. -/
def Request.respond (r : Request) (clock : UInt64) : Response :=
  let count := r.given.count.getD 10
  let source := Source.ofSeed (r.given.seed.getD clock)
  let options : Options := { repeatCap := r.given.repeatCap.getD ({} : Options).repeatCap }
  match r.task with
  | .pattern text => respondWith (Gen.ofPattern text options) plainly count source
  | .password length classes =>
    respondWith (Gen.password length classes) (aboutClasses classes) count source
  | .people => respondWith Person.generator plainly count source

def respond (words : List String) (clock : UInt64) : Response :=
  match Request.read? {} words with
  | some r => r.respond clock
  | none => .refused

end PatternGen.CommandLine
