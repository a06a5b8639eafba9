import PatternGen.CommandLine
import PatternGen.Proofs.Person

namespace PatternGen.CommandLine

open Gen

def Request.count (r : Request) : Nat := r.given.count.getD 10

variable {r r' : Request} {words words' : List String} {seed clock : UInt64}

end PatternGen.CommandLine
