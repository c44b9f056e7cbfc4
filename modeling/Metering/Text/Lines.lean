import Metering.Text.Split

/-!
# Text — Lines

Lines of texts and of byte strings.  A line ends at a line feed, which a single carriage return may precede; what
follows the last line feed is a line only if there is something.  `withoutReturns` drops the carriage returns a line
still ends with.
-/

namespace Metering.Text

variable {α : Type} [DecidableEq α]

/-- A line without the one carriage return it may end with. -/
def withoutReturn (cr : α) (line : List α) : List α :=
  if line.getLast? = some cr then line.dropLast else line

/-- The lines of a sequence, for its own line feed and carriage return. -/
def linesAt (lf cr : α) (xs : List α) : List (List α) :=
  let ps := pieces lf xs
  ps.dropLast.map (withoutReturn cr) ++ ps.getLast?.toList.filter (· ≠ [])

/-- The lines of a text. -/
def lines (s : String) : List String :=
  (linesAt '\n' '\r' s.toList).map String.ofList

/-- A text cut at every line feed and nowhere else. -/
def linesAtFeeds (s : String) : List String :=
  (pieces '\n' s.toList).map String.ofList

/-- The lines of a byte string. -/
def byteLines (bytes : ByteArray) : List ByteArray :=
  (linesAt (10 : UInt8) 13 bytes.data.toList).map fun line => ⟨line.toArray⟩

/-- A line without the carriage returns at its end, however many there are. -/
def withoutReturns (line : String) : String :=
  String.ofList (line.toList.reverse.dropWhile (· = '\r')).reverse

/-- The text that bytes encode in UTF-8, if they do. -/
def ofUtf8? (bytes : ByteArray) : Option String :=
  String.fromUTF8? bytes

theorem ofUtf8?_toUTF8 (s : String) : ofUtf8? s.toUTF8 = some s := by
  rw [ofUtf8?, String.fromUTF8?, dif_pos (by exact s.isValidUTF8)]
  rfl

end Metering.Text
