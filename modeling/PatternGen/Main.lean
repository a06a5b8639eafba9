import PatternGen.CommandLine
import Std.Time.DateTime.Timestamp

open PatternGen.CommandLine

def main (words : List String) : IO UInt32 := do
  -- a clock before 1970 counts as zero
  let seconds := (← Std.Time.Timestamp.now).toSecondsSinceUnixEpoch.val.toNat
  let response := respond words (UInt64.ofNat seconds)
  (← IO.getStdout).putStr response.output
  (← IO.getStderr).putStr response.complaint
  return response.code
