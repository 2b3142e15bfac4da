import ServiceContract.Text.Hidden

/-!
# Quoted text in messages

A message shows a text between double quotes. The tabulator, the line ends, the quote, the backslash
and the null character have two-character escapes; any other character without a form of its own is
spelled by its number in lower-case hexadecimal.
-/

namespace ServiceContract.Text

/-- One character of a quoted text. -/
def quoteChar (c : Char) : List Char :=
  if c = '\t' then ['\\', 't']
  else if c = '\r' then ['\\', 'r']
  else if c = '\n' then ['\\', 'n']
  else if c = '"' then ['\\', '"']
  else if c = '\\' then ['\\', '\\']
  else if c = '\x00' then ['\\', '0']
  else if isHidden c then '\\' :: 'u' :: '\x7b' :: Nat.toDigits 16 c.toNat ++ ['\x7d']
  else [c]

/-- A text as a message shows it. -/
def quote (s : String) : String :=
  String.ofList ('"' :: s.toList.flatMap quoteChar ++ ['"'])

end ServiceContract.Text
