import BlockShuffle.Text.Shown

/-!
# Quoted texts

A text between quotes, so that a message shows where it starts and ends and what it really holds: a
quote and a backslash are escaped, the common control characters have a letter, and what would not
be seen is written by its code point.

It is used for the one kind of text that comes from outside and may hold anything, a shard's name
that was refused. Which characters are shown as they are is decided by `isShown`, a table, and the
table is the part of this that could be wrong without being noticed: it lists what the Unicode data
calls printable, and a later edition of the data may call it otherwise. Nothing depends on a quoted
text but its reader. There is no function that takes one apart again, and none is needed, since no
message is ever parsed.
-/

set_option autoImplicit false

namespace BlockShuffle.Text

/-- One character of a quoted text. -/
def quoteChar (c : Char) : List Char :=
  match c with
  | '\x00' => ['\\', '0']
  | '\t' => ['\\', 't']
  | '\r' => ['\\', 'r']
  | '\n' => ['\\', 'n']
  | '\\' => ['\\', '\\']
  | '"' => ['\\', '"']
  | c => if isShown c then [c] else "\\u\x7b".toList ++ Nat.toDigits 16 c.toNat ++ ['\x7d']

/-- A text between quotes. -/
def quoted (text : String) : String :=
  String.ofList ('"' :: text.toList.flatMap quoteChar ++ ['"'])

end BlockShuffle.Text
