/-
Source text from bytes. A source file is strict UTF-8; a byte order
mark at its head is an ordinary character. Line ends of every kind
read as one newline, so positions count a carriage return before a
newline together with it.
-/

namespace DepLang.Text

/-- A carriage return, with the newline after it if there is one, reads
as a newline. -/
def normalizeNewlines : List Char → List Char
  | [] => []
  | '\r' :: '\n' :: rest => '\n' :: normalizeNewlines rest
  | c :: rest =>
    (if c = '\r' then '\n' else c) :: normalizeNewlines rest

/-- The text of a source file, if its bytes are UTF-8. -/
def decodeSource? (bytes : ByteArray) : Option String :=
  (String.fromUTF8? bytes).map fun text =>
    String.ofList (normalizeNewlines text.toList)

end DepLang.Text
