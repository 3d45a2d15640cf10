import MovieAtoms.Decimal.Fixed
import MovieAtoms.Text.Ascii
import MovieAtoms.Text.Hex

/-!
# Hex dumps

A dump shows the first bytes of a payload sixteen to a row: the row's offset, the bytes as
hexadecimal pairs, and the same bytes as visible text between bars. When the limit leaves bytes
out, a last line says how many.
-/

namespace MovieAtoms.HexDump

/-- The bytes of a full row. -/
def rowWidth : Nat := 16

/-- The hexadecimal pairs of a row, with single spaces between them. -/
def pairs (bytes : Bytes) : List Char := [' '].intercalate (bytes.map Text.Hex.ofByte)

/-- The columns that the pairs of a full row take up. -/
def pairsWidth : Nat := 3 * rowWidth - 1

/-- Fills a text up to a least width on the right. -/
def padRight (width : Nat) (text : List Char) : List Char :=
  text ++ List.replicate (width - text.length) ' '

/-- Offsets have at least eight hexadecimal digits. -/
def offset (position : Nat) : List Char := Decimal.padLeft 8 '0' (Nat.toDigits 16 position)

def row (position : Nat) (bytes : Bytes) : String :=
  String.ofList (offset position ++ "  ".toList ++ padRight pairsWidth (pairs bytes) ++
    "  |".toList ++ Text.shown bytes ++ ['|'])

/-- The rows of bytes that start at a position. -/
def rows (position : Nat) (bytes : Bytes) : List String :=
  if bytes.isEmpty then []
  else row position (bytes.take rowWidth) :: rows (position + rowWidth) (bytes.drop rowWidth)
termination_by bytes.length
decreasing_by
  cases bytes with
  | nil => contradiction
  | cons byte rest =>
      simp only [List.length_drop, List.length_cons, rowWidth]
      omega

/-- The dump of at most `limit` bytes, line by line. -/
def lines (limit : Nat) (bytes : Bytes) : List String :=
  rows 0 (bytes.take limit) ++
    if limit < bytes.length then ["... " ++ toString (bytes.length - limit) ++ " more bytes"] else []

/-- The dump as one text, each line ended. -/
def text (limit : Nat) (bytes : Bytes) : String :=
  String.join ((lines limit bytes).map (· ++ "\n"))

end MovieAtoms.HexDump
