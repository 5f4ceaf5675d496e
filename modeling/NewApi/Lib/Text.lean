import Mathlib.Data.List.DropRight

/-!
# Text

Functions of the Go packages `strings`, `unicode` and `strconv` on lists of
characters, by structural recursion, so that they can be run by the kernel.
-/

namespace Text

/-- `unicode.IsSpace`. -/
def isSpace (c : Char) : Bool :=
  c.toNat ∈ [0x09, 0x0a, 0x0b, 0x0c, 0x0d, 0x20, 0x85, 0xa0, 0x1680, 0x2028, 0x2029, 0x202f, 0x205f,
    0x3000] || decide (0x2000 ≤ c.toNat ∧ c.toNat ≤ 0x200a)

variable (text : List Char)

/-- `strings.TrimSpace`. -/
def trimSpace : List Char := ((text.dropWhile isSpace).reverse.dropWhile isSpace).reverse

/-- `strings.Contains(text, part)`. -/
def occursIn (part : List Char) : List Char → Bool
  | [] => part.isEmpty
  | c :: text => part.isPrefixOf (c :: text) || occursIn part text

/-- `strings.Cut`: what is before the first separator, and what is after it. -/
def cut (sep : Char) : List Char → List Char × Option (List Char)
  | [] => ([], none)
  | c :: rest =>
    if c = sep then ([], some rest) else (c :: (cut sep rest).1, (cut sep rest).2)

/-- One character more in the first piece of a split text. -/
def consFirst (c : Char) : List (List Char) → List (List Char)
  | [] => [[c]]
  | piece :: rest => (c :: piece) :: rest

/-- `strings.Split(text, "\n")`. -/
def splitLines : List Char → List (List Char)
  | [] => [[]]
  | c :: rest => if c = '\n' then [] :: splitLines rest else consFirst c (splitLines rest)

/-- `strings.Join(lines, "\n")`. -/
def joinLines : List (List Char) → List Char
  | [] => []
  | [line] => line
  | line :: rest => line ++ '\n' :: joinLines rest

/-- `strings.Split(text, sep)` for a separator of one character. -/
def split (sep : Char) : List Char → List (List Char)
  | [] => [[]]
  | c :: rest => if c = sep then [] :: split sep rest else consFirst c (split sep rest)

/-- `strings.Join(pieces, sep)`. -/
def join (sep : Char) : List (List Char) → List Char
  | [] => []
  | [piece] => piece
  | piece :: rest => piece ++ sep :: join sep rest

/-- `strings.Trim(text, sep)`. -/
def trim (sep : Char) (text : List Char) : List Char :=
  ((text.dropWhile (· = sep)).reverse.dropWhile (· = sep)).reverse

/-- `strings.CutPrefix`, and `strings.TrimPrefix` with a test before it. -/
def cutPrefix (start text : List Char) : Option (List Char) :=
  if start.isPrefixOf text then some (text.drop start.length) else none

/-- `strings.CutSuffix`, and `strings.TrimSuffix` with a test before it. -/
def cutSuffix (tail text : List Char) : Option (List Char) :=
  if tail.isSuffixOf text then some (text.take (text.length - tail.length)) else none

/-- What is before the first occurrence of a part and what is after it. -/
def cutFirst (part : List Char) : List Char → Option (List Char × List Char)
  | [] => (cutPrefix part []).map fun after => ([], after)
  | c :: text =>
    match cutPrefix part (c :: text) with
    | some after => some ([], after)
    | none => (cutFirst part text).map fun found => (c :: found.1, found.2)

/-- What is before the last occurrence of a part (`strings.LastIndex`) and what is after it. -/
def cutLast (part : List Char) : List Char → Option (List Char × List Char)
  | [] => (cutPrefix part []).map fun after => ([], after)
  | c :: text =>
    match cutLast part text with
    | some found => some (c :: found.1, found.2)
    | none => (cutPrefix part (c :: text)).map fun after => ([], after)

/-- `%d`. -/
def decimal (n : Nat) : List Char := Nat.toDigits 10 n

def parseDigits : Option Nat :=
  if text ≠ [] ∧ text.all Char.isDigit then some (Nat.ofDigitChars 10 text 0) else none

/-- `strconv.ParseInt` with base 10 and 64 bits, without the error. -/
def parseInt : List Char → Option Int
  | '-' :: text => (parseDigits text).bind fun n =>
    if n ≤ 9223372036854775808 then some (-(n : Int)) else none
  | '+' :: text => (parseDigits text).bind fun n =>
    if n < 9223372036854775808 then some (n : Int) else none
  | text => (parseDigits text).bind fun n =>
    if n < 9223372036854775808 then some (n : Int) else none

theorem trimSpace_eq : trimSpace text = (text.dropWhile isSpace).rdropWhile isSpace := rfl

theorem trimSpace_trimSpace : trimSpace (trimSpace text) = trimSpace text := by
  -- The trimmed text begins as the text without its leading spaces does.
  have hfront : (trimSpace text).dropWhile isSpace = trimSpace text := by
    rw [List.dropWhile_eq_self_iff]
    intro hpos
    have hprefix : trimSpace text <+: text.dropWhile isSpace := List.rdropWhile_prefix isSpace _
    have hlen : 0 < (text.dropWhile isSpace).length := Nat.lt_of_lt_of_le hpos hprefix.length_le
    have hhead := List.dropWhile_eq_self_iff.mp (List.dropWhile_idempotent isSpace text) hlen
    rwa [List.IsPrefix.getElem hprefix hpos]
  rw [trimSpace_eq, hfront, trimSpace_eq]
  exact List.rdropWhile_idempotent isSpace _

end Text
