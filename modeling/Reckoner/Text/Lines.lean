/-! # Lines

Input is cut into lines of bytes behind each line feed. The last line need not end with one,
and there is no empty line behind the last line feed. A line of text is blank if nothing in
it leaves a mark: all its characters have the Unicode property `White_Space`.
-/

namespace Reckoner

def lineFeed : UInt8 := 10

/-- Put a byte in front of lines. -/
def consByte (byte : UInt8) : List (List UInt8) → List (List UInt8)
  | [] => [[byte]]
  | line :: lines =>
      if byte = lineFeed then [byte] :: line :: lines else (byte :: line) :: lines

/-- The lines of an input, each with its line feed. -/
def byteLines (bytes : List UInt8) : List (List UInt8) := bytes.foldr consByte []

/-- The ranges of blank characters, in increasing order. -/
def blankRanges : List (Nat × Nat) :=
  [(0x9, 0xD), (0x20, 0x20), (0x85, 0x85), (0xA0, 0xA0), (0x1680, 0x1680), (0x2000, 0x200A),
    (0x2028, 0x2029), (0x202F, 0x202F), (0x205F, 0x205F), (0x3000, 0x3000)]

def isBlankChar (c : Char) : Bool :=
  blankRanges.any fun (first, last) => first ≤ c.toNat && c.toNat ≤ last

/-- Is there nothing to see in the text? -/
def isBlank (text : List Char) : Bool := text.all isBlankChar

/-- Take the line breaks off the end of a line. -/
def dropLineEnd (line : List Char) : List Char :=
  (line.reverse.dropWhile fun c => c == '\n' || c == '\r').reverse

end Reckoner
