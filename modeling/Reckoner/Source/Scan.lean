import Reckoner.Source.Piece
import Reckoner.Token.Stream

/-! # Scanning

Scanning cuts a source into its pieces from the front, keeps count of the lines, and then
reads tokens and diagnostics off the pieces. Nothing of the source is lost on the way.
-/

namespace Reckoner

/-- The pieces of a text that begins on the given line, put behind those that are
    already cut, which come latest first. -/
def cutPieces (cut : List Piece) (line : Nat) : List Char → List Piece
  | [] => cut.reverse
  | c :: rest =>
      let extent := Extent.ofText c rest
      let piece : Piece := ⟨line, extent.role, c :: rest.take extent.more⟩
      cutPieces (piece :: cut) piece.endLine (rest.drop extent.more)
termination_by text => text.length
decreasing_by simp only [List.length_drop, List.length_cons]; omega

/-- The pieces of a source, in order. -/
def pieces (source : String) : List Piece := cutPieces [] 1 source.toList

/-- What scanning finds in a source. -/
structure Scan where
  stream : TokenStream
  diagnostics : List Diagnostic
  deriving Repr, DecidableEq

namespace Scan

/-- The line behind the last piece. -/
def lastLine (pieces : List Piece) : Nat :=
  match pieces.getLast? with
  | some piece => piece.endLine
  | none => 1

def ofPieces (pieces : List Piece) : Scan where
  stream := ⟨pieces.filterMap Piece.token?, .endOfInput (lastLine pieces)⟩
  diagnostics := pieces.filterMap Piece.diagnostic?

end Scan

def scan (source : String) : Scan := .ofPieces (pieces source)

end Reckoner
