import PatternGen.Text.Category

namespace PatternGen.Text

/-- The spacing marks that extend the character before them all the same, as ascending ranges of
code points with both ends included. -/
def extendingMarks : List (Nat × Nat) := [
  (0x9be, 0x9be), (0x9d7, 0x9d7), (0xb3e, 0xb3e), (0xb57, 0xb57), (0xbbe, 0xbbe), (0xbd7, 0xbd7),
  (0xcc0, 0xcc0), (0xcc2, 0xcc2), (0xcc7, 0xcc8), (0xcca, 0xccb), (0xcd5, 0xcd6), (0xd3e, 0xd3e),
  (0xd57, 0xd57), (0xdcf, 0xdcf), (0xddf, 0xddf), (0x1715, 0x1715), (0x1734, 0x1734),
  (0x1b35, 0x1b35), (0x1b3b, 0x1b3b), (0x1b3d, 0x1b3d), (0x1b43, 0x1b44), (0x1baa, 0x1baa),
  (0x1bf2, 0x1bf3), (0x302e, 0x302f), (0xa953, 0xa953), (0xa9c0, 0xa9c0), (0x111c0, 0x111c0),
  (0x11235, 0x11235), (0x1133e, 0x1133e), (0x1134d, 0x1134d), (0x11357, 0x11357),
  (0x113b8, 0x113b8), (0x113c2, 0x113c2), (0x113c5, 0x113c5), (0x113c7, 0x113c9),
  (0x113cf, 0x113cf), (0x114b0, 0x114b0), (0x114bd, 0x114bd), (0x115af, 0x115af),
  (0x116b6, 0x116b6), (0x11930, 0x11930), (0x1193d, 0x1193d), (0x11f41, 0x11f41),
  (0x16ff0, 0x16ff1), (0x1d165, 0x1d166), (0x1d16d, 0x1d172)]

/-- Marks that extend the character before them. -/
def isCombining (c : Char) : Bool :=
  match categoryOf c with
  | .mn | .me => true
  | .mc => extendingMarks.any fun r => r.1 ≤ c.toNat && c.toNat ≤ r.2
  | _ => false

/-- The letters that stand for a missing part of a Hangul syllable and show nothing. -/
def hangulFillers : List Char := ['\u115f', '\u1160', '\u3164', '\uffa0']

/-- Controls, format characters, separators other than the space, fillers, and code points that are
no character show nothing of their own. -/
def isPrintable (c : Char) : Bool :=
  match categoryOf c with
  | .cc | .cf | .cs | .co | .cn | .zl | .zp => false
  | .zs => c = ' '
  | _ => !hangulFillers.contains c

/-- The escape of a character between two quotes: a letter after a backslash for the commonest
ones, the code point in hexadecimal for the others that cannot be seen. -/
def escape (quote c : Char) : List Char :=
  if c = '\x00' then ['\\', '0']
  else if c = '\t' then ['\\', 't']
  else if c = '\r' then ['\\', 'r']
  else if c = '\n' then ['\\', 'n']
  else if c = quote ∨ c = '\\' then ['\\', c]
  else if isCombining c || !isPrintable c then
    ['\\', 'u', '\x7b'] ++ Nat.toDigits 16 c.toNat ++ ['\x7d']
  else [c]

def quotedWith (quote : Char) (cs : List Char) : String :=
  String.ofList (quote :: cs.flatMap (escape quote) ++ [quote])

def quoted (s : String) : String := quotedWith '\x22' s.toList

def quotedChar (c : Char) : String := quotedWith '\x27' [c]

def quotedList (texts : List String) : String :=
  "[" ++ ", ".intercalate (texts.map quoted) ++ "]"

end PatternGen.Text
