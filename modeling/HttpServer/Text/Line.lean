import HttpServer.Text.Split
import HttpServer.Text.Utf8

/-!
# Lines of bytes

A line of a message ends with a line feed.  One carriage return before it belongs to the end of the line;
a carriage return anywhere else is an ordinary byte.
-/

namespace HttpServer

/-- The byte that ends a line. -/
def lineFeed : UInt8 := 0x0A

/-- A line without the carriage return that may stand before its line feed. -/
def stripReturn (line : Bytes) : Bytes :=
  if line.getLast? == some 0x0D then line.dropLast else line

/-- The lines of a byte string; what stands behind the last line feed is a line too. -/
def linesOf (bs : Bytes) : List Bytes :=
  (splitOn lineFeed bs).map stripReturn

end HttpServer
