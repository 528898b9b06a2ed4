/-!
# Text from bytes

`decode` reads UTF-8, in its strict form, without one byte order mark at the start. Bytes that are
no UTF-8 are read one character a byte, so every file has a text. Line ends are kept, so the lines
of the text are those of the file; `unifyLineEnds` is for sources where they do not matter.
-/

namespace Outliner.Text

def dropMark (s : String) : String :=
  match s.toList with
  | '\ufeff' :: cs => String.ofList cs
  | _ => s

def ofBytes (bytes : ByteArray) : String :=
  String.ofList (bytes.data.toList.map fun b => Char.ofNat b.toNat)

def decode (bytes : ByteArray) : String :=
  match String.fromUTF8? bytes with
  | some s => dropMark s
  | none => ofBytes bytes

/-- Writes every line end as a line feed. -/
def unifyLineEnds : List Char → List Char
  | [] => []
  | '\r' :: '\n' :: cs => '\n' :: unifyLineEnds cs
  | '\r' :: cs => '\n' :: unifyLineEnds cs
  | c :: cs => c :: unifyLineEnds cs

end Outliner.Text
