import Mathlib

/-! The string functions of Rust's standard library that the sources use, on the
characters of the string. -/

namespace PgGrpc.Text

/-- Unicode `White_Space`, the set `str::trim` removes. -/
def isWhitespace (c : Char) : Bool :=
  let n := c.toNat
  (9 ≤ n && n ≤ 13) || n == 0x20 || n == 0x85 || n == 0xA0 || n == 0x1680 ||
    (0x2000 ≤ n && n ≤ 0x200A) || n == 0x2028 || n == 0x2029 || n == 0x202F || n == 0x205F || n == 0x3000

def trimChars (cs : List Char) : List Char :=
  ((cs.dropWhile isWhitespace).reverse.dropWhile isWhitespace).reverse

def trim (s : String) : String := String.ofList (trimChars s.toList)

def hasChar (s : String) (c : Char) : Bool := s.toList.contains c

/-- `str::contains` with a string: some suffix starts with the pattern. -/
def hasInfix (s pattern : String) : Bool :=
  s.toList.tails.any fun rest => pattern.toList.isPrefixOf rest

/-- `str::rsplit_once`: the text before and after the last separator. -/
def rsplitOnce (s : String) (separator : Char) : Option (String × String) :=
  let reversed := s.toList.reverse
  match reversed.dropWhile (· != separator) with
  | [] => none
  | _ :: before => some (String.ofList before.reverse, String.ofList (reversed.takeWhile (· != separator)).reverse)

def asciiLower (s : String) : String :=
  String.ofList (s.toList.map fun c => if 'A' ≤ c && c ≤ 'Z' then Char.ofNat (c.toNat + 32) else c)

/-- The parts of a dotted name that end before a dot, and the whole name. -/
def dottedPrefixes (s : String) : List String :=
  if s.isEmpty then []
  else (s.toList.zipIdx.filterMap fun (c, n) => if c = '.' then some (String.ofList (s.toList.take n)) else none) ++ [s]

/-- The text before the first occurrence of a character. -/
def before (s : String) (c : Char) : String := String.ofList (s.toList.takeWhile (· != c))

def commaJoin (items : List String) : String := ", ".intercalate items

example : rsplitOnce "a/b/c" '/' = some ("a/b", "c") := by decide

example : dottedPrefixes "google.protobuf" = ["google", "google.protobuf"] := by decide

end PgGrpc.Text
