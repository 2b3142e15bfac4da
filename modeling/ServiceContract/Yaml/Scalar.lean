import ServiceContract.Json.Basic
import ServiceContract.Decimal.Shortest

/-!
# What a plain scalar means

An unquoted scalar is null, a flag, a whole number, a float or a text, tried in this order. Whole
numbers may be written in decimal, or after `0x`, `0o` and `0b`; several digits after a leading zero
are text. A float needs a finite value, `.inf` and `.nan` apart.
-/

namespace ServiceContract.Yaml

/-- The meaning of a plain scalar. -/
inductive Meaning where
  | null
  | bool (b : Bool)
  | whole (n : Int)
  | float (x : Binary64)
  | notFinite
  | text
  deriving DecidableEq, Repr

namespace Meaning

/-- The value of a digit in a base up to 16. -/
def digit? (base : Nat) (c : Char) : Option Nat :=
  let n :=
    if '0' ≤ c ∧ c ≤ '9' then c.toNat - 48
    else if 'a' ≤ c ∧ c ≤ 'f' then c.toNat - 87
    else if 'A' ≤ c ∧ c ≤ 'F' then c.toNat - 55
    else base
  if n < base then some n else none

/-- The value of a run of one or more digits. -/
def digits? (base : Nat) : List Char → Option Nat
  | [] => none
  | cs => cs.foldl (fun value c => value.bind fun n => (digit? base c).map (n * base + ·)) (some 0)

/-- Several digits of which the first is a zero. -/
def isPaddedDigits (cs : List Char) : Bool :=
  let cs :=
    match cs with
    | '+' :: rest | '-' :: rest => rest
    | cs => cs
  match cs with
  | '0' :: c :: rest => (c :: rest).all Char.isDigit
  | _ => false

/-- Digits after the mark of a base, or decimal digits. -/
def unsigned? : List Char → Option Nat
  | '0' :: 'x' :: rest => digits? 16 rest
  | '0' :: 'o' :: rest => digits? 8 rest
  | '0' :: 'b' :: rest => digits? 2 rest
  | cs => if isPaddedDigits cs then none else digits? 10 cs

/-- A whole number within 128 bits: unsigned, or signed if it has a minus. -/
def whole? : List Char → Option Int
  | '-' :: cs =>
    (unsigned? cs).bind fun n => if n ≤ Word.half128 then some (-n) else none
  | '+' :: cs => (unsigned? cs).bind fun n => if n < Word.size128 then some n else none
  | cs => (unsigned? cs).bind fun n => if n < Word.size128 then some n else none

/-- The digits and the power of ten of `12.5e3`, `.5` or `12.`. -/
def decimal? (cs : List Char) : Option (Nat × Int) :=
  let (before, rest) := cs.span Char.isDigit
  let (after, rest) :=
    match rest with
    | '.' :: rest => rest.span Char.isDigit
    | rest => ([], rest)
  let power? : Option Int :=
    match rest with
    | [] => some 0
    | e :: rest =>
      if e = 'e' ∨ e = 'E' then
        match rest with
        | '-' :: rest => (digits? 10 rest).map fun n => -(n : Int)
        | '+' :: rest => (digits? 10 rest).map fun n => (n : Int)
        | rest => (digits? 10 rest).map fun n => (n : Int)
      else none
  match digits? 10 (before ++ after), power? with
  | some digits, some power => some (digits, power - after.length)
  | _, _ => none

/-- A finite float with an optional minus. -/
def float? (cs : List Char) : Option Binary64 :=
  match cs with
  | '-' :: cs => (decimal? cs).bind fun (digits, power) => Binary64.ofDecimal? true digits power
  | cs => (decimal? cs).bind fun (digits, power) => Binary64.ofDecimal? false digits power

/-- The spellings of infinity and of no number. -/
def isNotFinite (s : String) : Bool :=
  [".inf", ".Inf", ".INF", "+.inf", "+.Inf", "+.INF", "-.inf", "-.Inf", "-.INF", ".nan", ".NaN",
    ".NAN"].contains s

def nullWords : List String := ["null", "Null", "NULL", "~"]

def trueWords : List String := ["true", "True", "TRUE"]

def falseWords : List String := ["false", "False", "FALSE"]

/-- A text without one leading plus, unless another sign follows it. -/
def unsignedText? : List Char → Option (List Char)
  | '+' :: '+' :: _ | '+' :: '-' :: _ => none
  | '+' :: cs => some cs
  | cs => some cs

/-- The meaning of a float that is not a whole number. -/
def ofFloat (s : String) : Meaning :=
  if isNotFinite s then .notFinite
  else if isPaddedDigits s.toList then .text
  else
    match (unsignedText? s.toList).bind float? with
    | some x => .float x
    | none => .text

/-- The meaning of an unquoted scalar. -/
def ofPlain (s : String) : Meaning :=
  if s.isEmpty || nullWords.contains s then .null
  else if trueWords.contains s then .bool true
  else if falseWords.contains s then .bool false
  else
    match whole? s.toList with
    | some n => .whole n
    | none => ofFloat s

end Meaning

end ServiceContract.Yaml
