import ServiceContract.Json.Basic

/-!
# TOML scalars

Texts in four kinds of quotes, whole numbers of 64 bits, floats, flags, dates and times. A reader
takes what it can from the start of the characters and gives the rest.

No setting is a number or a date, so only their form matters: an infinite float stands for zero,
and a date is a table without members.
-/

namespace ServiceContract.Toml

/-- What reading yields. -/
abbrev Read (α : Type) := Option (α × List Char)

def isBlank (c : Char) : Bool := c = ' ' || c = '\t'

def skipBlanks (cs : List Char) : List Char := cs.dropWhile isBlank

/-- Reads a line end: a line feed, or a carriage return and a line feed. -/
def lineEnd? : List Char → Option (List Char)
  | '\n' :: rest => some rest
  | '\r' :: '\n' :: rest => some rest
  | _ => none

/-- The characters that texts and comments may hold: no controls but the tabulator. -/
def isPlain (c : Char) : Bool := c = '\t' || (32 ≤ c.toNat && c.toNat ≠ 127)

/-! ## Texts -/

def hexValue? (c : Char) : Option Nat :=
  if '0' ≤ c ∧ c ≤ '9' then some (c.toNat - 48)
  else if 'a' ≤ c ∧ c ≤ 'f' then some (c.toNat - 87)
  else if 'A' ≤ c ∧ c ≤ 'F' then some (c.toNat - 55)
  else none

/-- Reads a character given by a fixed number of hexadecimal digits. -/
def hexChar? (digits : Nat) (cs : List Char) : Option (Char × List Char) := do
  let run := cs.take digits
  if run.length < digits then none
  else
    let n ← run.foldlM (fun n c => (hexValue? c).map (n * 16 + ·)) 0
    if n.isValidChar then some (Char.ofNat n, cs.drop digits) else none

/-- Reads an escape after its backslash. -/
def escape? : List Char → Read Char
  | 'b' :: rest => some ('\x08', rest)
  | 't' :: rest => some ('\t', rest)
  | 'n' :: rest => some ('\n', rest)
  | 'f' :: rest => some ('\x0c', rest)
  | 'r' :: rest => some ('\r', rest)
  | '"' :: rest => some ('"', rest)
  | '\\' :: rest => some ('\\', rest)
  | 'u' :: rest => hexChar? 4 rest
  | 'U' :: rest => hexChar? 8 rest
  | _ => none

/-- Reads a text on one line after its double quote. -/
def basic? : (fuel : Nat) → List Char → Option (List Char × List Char)
  | 0, _ => none
  | _, [] => none
  | fuel + 1, c :: rest =>
    if c = '"' then some ([], rest)
    else if c = '\\' then do
      let (meant, rest) ← escape? rest
      let (cs, rest) ← basic? fuel rest
      return (meant :: cs, rest)
    else if isPlain c then do
      let (cs, rest) ← basic? fuel rest
      return (c :: cs, rest)
    else none

/-- Reads a text on one line after its single quote. -/
def literal? : List Char → Option (List Char × List Char)
  | [] => none
  | c :: rest =>
    if c = '\'' then some ([], rest)
    else if isPlain c then (literal? rest).map fun (cs, rest) => (c :: cs, rest)
    else none

/-- Reads the closing quotes of a text of several lines; up to two more quotes before them belong to
the text. -/
def closing? (quote : Char) (cs : List Char) : Option (List Char × List Char) :=
  let run := (cs.takeWhile (· = quote)).length
  if run < 3 then none
  else
    let extra := min (run - 3) 2
    some (List.replicate extra quote, cs.drop (extra + 3))

/-- Moves over blanks and line ends. -/
def skipBlankLines : List Char → List Char
  | ' ' :: rest => skipBlankLines rest
  | '\t' :: rest => skipBlankLines rest
  | '\n' :: rest => skipBlankLines rest
  | '\r' :: '\n' :: rest => skipBlankLines rest
  | cs => cs

/-- Reads a text of several lines after its three double quotes. A backslash at the end of a line
drops the blanks up to the next text. -/
def basicLines? : (fuel : Nat) → List Char → Option (List Char × List Char)
  | 0, _ => none
  | fuel + 1, cs =>
    match closing? '"' cs with
    | some found => some found
    | none =>
      match cs with
      | [] => none
      | '\\' :: rest =>
        match lineEnd? (skipBlanks rest) with
        | some rest => basicLines? fuel (skipBlankLines rest)
        | none => do
          let (meant, rest) ← escape? rest
          let (cs, rest) ← basicLines? fuel rest
          return (meant :: cs, rest)
      | c :: rest =>
        match lineEnd? cs with
        | some rest => (basicLines? fuel rest).map fun (cs, rest) => ('\n' :: cs, rest)
        | none =>
          if isPlain c then (basicLines? fuel rest).map fun (cs, rest) => (c :: cs, rest) else none

/-- Reads a text of several lines after its three single quotes. -/
def literalLines? : (fuel : Nat) → List Char → Option (List Char × List Char)
  | 0, _ => none
  | fuel + 1, cs =>
    match closing? '\'' cs with
    | some found => some found
    | none =>
      match cs with
      | [] => none
      | c :: rest =>
        match lineEnd? cs with
        | some rest => (literalLines? fuel rest).map fun (cs, rest) => ('\n' :: cs, rest)
        | none =>
          if isPlain c then (literalLines? fuel rest).map fun (cs, rest) => (c :: cs, rest)
          else none

/-- A line end right after the opening quotes does not count. -/
def dropFirstLineEnd (cs : List Char) : List Char := (lineEnd? cs).getD cs

/-- Reads a text on one line. -/
def lineText? : List Char → Read String
  | '"' :: rest => (basic? (rest.length + 1) rest).map fun (cs, rest) => (String.ofList cs, rest)
  | '\'' :: rest => (literal? rest).map fun (cs, rest) => (String.ofList cs, rest)
  | _ => none

/-- Reads a text. -/
def text? : List Char → Read String
  | '"' :: '"' :: '"' :: rest =>
    (basicLines? (rest.length + 1) (dropFirstLineEnd rest)).map fun (cs, rest) =>
      (String.ofList cs, rest)
  | '\'' :: '\'' :: '\'' :: rest =>
    (literalLines? (rest.length + 1) (dropFirstLineEnd rest)).map fun (cs, rest) =>
      (String.ofList cs, rest)
  | cs => lineText? cs

/-! ## Numbers -/

/-- Reads digits with single underscores between them. -/
def digits? (isDigit : Char → Bool) : List Char → Option (List Char × List Char)
  | [] => none
  | c :: rest =>
    if isDigit c then
      match rest with
      | '_' :: more => (digits? isDigit more).map fun (cs, rest) => (c :: cs, rest)
      | more =>
        match digits? isDigit more with
        | some (cs, rest) => some (c :: cs, rest)
        | none => some ([c], more)
    else none

def digitsValue (base : Nat) (cs : List Char) : Nat :=
  cs.foldl (fun n c => n * base + (hexValue? c).getD 0) 0

def isHexDigit (c : Char) : Bool := (hexValue? c).isSome

def isOctalDigit (c : Char) : Bool := '0' ≤ c && c ≤ '7'

def isBinaryDigit (c : Char) : Bool := c = '0' || c = '1'

/-- Reads an optional sign; true is a minus. -/
def sign : List Char → Bool × List Char
  | '-' :: rest => (true, rest)
  | '+' :: rest => (false, rest)
  | cs => (false, cs)

/-- Reads decimal digits of which several do not start with a zero. -/
def decimal? (cs : List Char) : Option (List Char × List Char) :=
  match digits? Char.isDigit cs with
  | some ('0' :: _ :: _, _) => none
  | found => found

def inWord (n : Int) : Option Json :=
  if Word.isSigned64 n then some (.number (.whole n)) else none

/-- Reads the digits of a whole number after the mark of its base. -/
def based? (base : Nat) (isDigit : Char → Bool) (cs : List Char) :
    Option (Json × List Char) := do
  let (run, rest) ← digits? isDigit cs
  return (← inWord (digitsValue base run), rest)

/-- Reads a whole number. -/
def whole? (cs : List Char) : Option (Json × List Char) := do
  match cs with
  | '0' :: 'x' :: rest => based? 16 isHexDigit rest
  | '0' :: 'o' :: rest => based? 8 isOctalDigit rest
  | '0' :: 'b' :: rest => based? 2 isBinaryDigit rest
  | cs =>
    let (negative, rest) := sign cs
    let (run, rest) ← decimal? rest
    let n : Int := digitsValue 10 run
    return (← inWord (if negative then -n else n), rest)

/-- Reads an exponent, if there is one. -/
def exponent? : List Char → Option (Option Int × List Char)
  | c :: rest =>
    if c = 'e' ∨ c = 'E' then do
      let (negative, rest) := sign rest
      let (run, rest) ← digits? Char.isDigit rest
      let n : Int := digitsValue 10 run
      return (some (if negative then -n else n), rest)
    else some (none, c :: rest)
  | [] => some (none, [])

def zero : Json := .number (.float ⟨false, 0, Binary64.minExponent⟩)

/-- Reads a float: a fraction, an exponent or both. One too large for a double is refused, one too
far below zero counts as infinite. -/
def float? (cs : List Char) : Option (Json × List Char) := do
  let (negative, rest) := sign cs
  match rest with
  | 'i' :: 'n' :: 'f' :: rest => return (zero, rest)
  | 'n' :: 'a' :: 'n' :: rest => return (zero, rest)
  | rest =>
    let (before, rest) ← decimal? rest
    let (after, rest) ←
      match rest with
      | '.' :: rest => (digits? Char.isDigit rest).map fun (run, rest) => (some run, rest)
      | rest => some (none, rest)
    let (power, rest) ← exponent? rest
    if after.isNone && power.isNone then none
    else
      let fraction := after.getD []
      match Binary64.ofDecimal? negative (digitsValue 10 (before ++ fraction))
        (power.getD 0 - fraction.length) with
      | some x => return (.number (.float x), rest)
      | none => if negative then return (zero, rest) else none

/-! ## Dates and times -/

/-- Reads a number of exactly so many digits. -/
def fixed? (count : Nat) (cs : List Char) : Option (Nat × List Char) :=
  let run := cs.take count
  if run.length = count ∧ run.all Char.isDigit then some (digitsValue 10 run, cs.drop count)
  else none

/-- Reads one given character. -/
def char? (c : Char) : List Char → Option (List Char)
  | d :: rest => if d = c then some rest else none
  | [] => none

def isLeapYear (year : Nat) : Bool := year % 4 == 0 && (year % 100 ≠ 0 || year % 400 == 0)

def daysIn (year month : Nat) : Nat :=
  if month = 2 then (if isLeapYear year then 29 else 28)
  else if month = 4 ∨ month = 6 ∨ month = 9 ∨ month = 11 then 30
  else 31

/-- Reads a date. -/
def date? (cs : List Char) : Option (List Char) := do
  let (year, cs) ← fixed? 4 cs
  let cs ← char? '-' cs
  let (month, cs) ← fixed? 2 cs
  let cs ← char? '-' cs
  let (day, cs) ← fixed? 2 cs
  if 1 ≤ month ∧ month ≤ 12 ∧ 1 ≤ day ∧ day ≤ daysIn year month then some cs else none

/-- Reads a time of day; the second may be a leap second. -/
def time? (cs : List Char) : Option (List Char) := do
  let (hour, cs) ← fixed? 2 cs
  let cs ← char? ':' cs
  let (minute, cs) ← fixed? 2 cs
  let cs ← char? ':' cs
  let (second, cs) ← fixed? 2 cs
  let cs :=
    match cs with
    | '.' :: c :: rest => if c.isDigit then rest.dropWhile Char.isDigit else '.' :: c :: rest
    | cs => cs
  if hour ≤ 23 ∧ minute ≤ 59 ∧ second ≤ 60 then some cs else none

/-- Reads an offset from universal time, if there is one. -/
def offset? (cs : List Char) : Option (List Char) :=
  match cs with
  | 'Z' :: rest | 'z' :: rest => some rest
  | c :: rest =>
    if c = '+' ∨ c = '-' then do
      let (hour, rest) ← fixed? 2 rest
      let rest ← char? ':' rest
      let (minute, rest) ← fixed? 2 rest
      if hour ≤ 23 ∧ minute ≤ 59 then some rest else none
    else some cs
  | [] => some []

/-- Reads a date, a time, or both. -/
def dateTime? (cs : List Char) : Read Json :=
  match date? cs with
  | some rest =>
    match rest with
    | c :: more =>
      if c = 'T' ∨ c = 't' then ((time? more).bind offset?).map fun rest => (.object [], rest)
      else if c = ' ' then
        match time? more with
        | some more => (offset? more).map fun rest => (.object [], rest)
        | none => some (.object [], rest)
      else some (.object [], rest)
    | [] => some (.object [], [])
  | none => (time? cs).map fun rest => (.object [], rest)

/-- Reads a flag. -/
def flag? : List Char → Read Json
  | 't' :: 'r' :: 'u' :: 'e' :: rest => some (.bool true, rest)
  | 'f' :: 'a' :: 'l' :: 's' :: 'e' :: rest => some (.bool false, rest)
  | _ => none

/-- Reads a scalar. -/
def scalar? (cs : List Char) : Read Json :=
  match text? cs with
  | some (s, rest) => some (.string s, rest)
  | none => flag? cs <|> dateTime? cs <|> float? cs <|> whole? cs

end ServiceContract.Toml
