import Mathlib.Data.Rat.Defs

/-!
# JSON text

`Doc ν` is JSON data with numbers of any type `ν`, the fields of an object in their order. `write` puts
it down as text and `parse` is a strict reader of RFC 8259 text:

* the writer is told how its numbers are spelled and what blank stands after `,` and `:`; it escapes what
  has to be escaped and leaves other characters as they are;
* the reader takes white space between tokens, no trailing commas, no control characters in strings, no
  lone surrogates, nothing after the value and at most `depth` nested containers. It reads a number as the
  `Numeral` it spells.

That what is written is read back is in `JsonRoundTrip.lean`.
-/

namespace SenseVoice.Lib.JsonText

/-- JSON data. -/
inductive Doc (ν : Type) where
  | null
  | bool (b : Bool)
  | number (n : ν)
  | string (s : String)
  | array (items : List (Doc ν))
  | object (fields : List (String × Doc ν))

/-- A number of a text: sign, integer part, the number after the point with how many digits it has, and the
power of ten. -/
structure Numeral where
  negative : Bool
  whole : ℕ
  digits : ℕ
  places : ℕ
  exponent : Option ℤ
deriving DecidableEq

namespace Numeral

/-- No point and no exponent. -/
def isInteger (n : Numeral) : Bool := n.places == 0 && n.exponent.isNone

/-- The magnitude of the number. -/
def magnitude (n : Numeral) : ℚ := (n.whole + n.digits / 10 ^ n.places) * 10 ^ n.exponent.getD 0

end Numeral

section Doc

variable {ν μ : Type}

mutual

/-- How many containers are inside each other. -/
def Doc.depth : Doc ν → ℕ
  | .array items => depthItems items + 1
  | .object fields => depthFields fields + 1
  | _ => 0

/-- The depth of the items of an array. -/
def depthItems : List (Doc ν) → ℕ
  | [] => 0
  | a :: as => max a.depth (depthItems as)

/-- The depth of the values of an object. -/
def depthFields : List (String × Doc ν) → ℕ
  | [] => 0
  | (_, a) :: fs => max a.depth (depthFields fs)

end

mutual

/-- Every number replaced, if all can be. -/
def Doc.mapM (f : ν → Option μ) : Doc ν → Option (Doc μ)
  | .null => some .null
  | .bool b => some (.bool b)
  | .number n => (f n).map .number
  | .string s => some (.string s)
  | .array items => (mapItems f items).map .array
  | .object fields => (mapFields f fields).map .object

/-- The numbers of the items of an array. -/
def mapItems (f : ν → Option μ) : List (Doc ν) → Option (List (Doc μ))
  | [] => some []
  | a :: as => do
    let b ← a.mapM f
    let bs ← mapItems f as
    return b :: bs

/-- The numbers of the values of an object. -/
def mapFields (f : ν → Option μ) : List (String × Doc ν) → Option (List (String × Doc μ))
  | [] => some []
  | (k, a) :: fs => do
    let b ← a.mapM f
    let bs ← mapFields f fs
    return (k, b) :: bs

end

mutual

/-- The numbers of a document. -/
def Doc.numbers : Doc ν → List ν
  | .number n => [n]
  | .array items => numbersOfItems items
  | .object fields => numbersOfFields fields
  | _ => []

/-- The numbers of the items of an array. -/
def numbersOfItems : List (Doc ν) → List ν
  | [] => []
  | a :: as => a.numbers ++ numbersOfItems as

/-- The numbers of the values of an object. -/
def numbersOfFields : List (String × Doc ν) → List ν
  | [] => []
  | (_, a) :: fs => a.numbers ++ numbersOfFields fs

end

end Doc

/-! ## Writing -/

/-- JSON's white space. -/
def isSpace (c : Char) : Bool := c == ' ' || c == '\n' || c == '\t' || c == '\r'

/-- A character inside a string. -/
def escape (c : Char) : List Char :=
  if c = '"' then ['\\', '"']
  else if c = '\\' then ['\\', '\\']
  else if c = '\n' then ['\\', 'n']
  else if c = '\r' then ['\\', 'r']
  else if c = '\t' then ['\\', 't']
  else if c = '\x08' then ['\\', 'b']
  else if c = '\x0c' then ['\\', 'f']
  else if c.toNat < 0x20 then
    ['\\', 'u', '0', '0', Nat.digitChar (c.toNat / 16), Nat.digitChar (c.toNat % 16)]
  else [c]

/-- A string with its quotes. -/
def writeString (s : String) : List Char := '"' :: (s.toList.flatMap escape ++ ['"'])

/-- Items with commas between them, up to the closing character. -/
def writeList {α : Type} (gap : List Char) (close : Char) (w : α → List Char) : List α → List Char
  | [] => [close]
  | [a] => w a ++ [close]
  | a :: as => w a ++ ',' :: (gap ++ writeList gap close w as)

/-- A field of an object, with its value written. -/
def writeField (gap : List Char) (f : String × List Char) : List Char :=
  writeString f.1 ++ ':' :: (gap ++ f.2)

section Write

variable {ν : Type} (gap : List Char) (spell : ν → List Char)

mutual

/-- The text of a value. -/
def write : Doc ν → List Char
  | .null => ['n', 'u', 'l', 'l']
  | .bool true => ['t', 'r', 'u', 'e']
  | .bool false => ['f', 'a', 'l', 's', 'e']
  | .number n => spell n
  | .string s => writeString s
  | .array items => '[' :: writeList gap ']' id (writeItems items)
  | .object fields => '{' :: writeList gap '}' (writeField gap) (writeFields fields)

/-- The texts of the items of an array. -/
def writeItems : List (Doc ν) → List (List Char)
  | [] => []
  | a :: as => write a :: writeItems as

/-- The texts of the values of an object. -/
def writeFields : List (String × Doc ν) → List (String × List Char)
  | [] => []
  | (k, a) :: fs => (k, write a) :: writeFields fs

end

end Write

/-! ## Reading -/

/-- A reader from the front of a text. -/
abbrev Parser (α : Type) := List Char → Option (α × List Char)

/-- Skip white space. -/
def skip (cs : List Char) : List Char := cs.dropWhile isSpace

/-- The value of a hexadecimal digit. -/
def hexValue (c : Char) : Option ℕ :=
  if c.isDigit then some (c.toNat - 48)
  else if 'a' ≤ c ∧ c ≤ 'f' then some (c.toNat - 87)
  else if 'A' ≤ c ∧ c ≤ 'F' then some (c.toNat - 55)
  else none

/-- Four hexadecimal digits. -/
def readHex4 : Parser ℕ
  | a :: b :: c :: d :: cs => do
    let a ← hexValue a
    let b ← hexValue b
    let c ← hexValue c
    let d ← hexValue d
    return (((a * 16 + b) * 16 + c) * 16 + d, cs)
  | _ => none

/-- The second half of a surrogate pair. -/
def readLowSurrogate (high : ℕ) : Parser Char
  | '\\' :: 'u' :: cs => do
    let (low, cs) ← readHex4 cs
    if 0xDC00 ≤ low ∧ low ≤ 0xDFFF then
      return (Char.ofNat (0x10000 + (high - 0xD800) * 0x400 + (low - 0xDC00)), cs)
    else none
  | _ => none

/-- What stands after a backslash. -/
def readEscape : Parser Char
  | '"' :: cs => some ('"', cs)
  | '\\' :: cs => some ('\\', cs)
  | '/' :: cs => some ('/', cs)
  | 'b' :: cs => some ('\x08', cs)
  | 'f' :: cs => some ('\x0c', cs)
  | 'n' :: cs => some ('\n', cs)
  | 'r' :: cs => some ('\r', cs)
  | 't' :: cs => some ('\t', cs)
  | 'u' :: cs => do
    let (code, cs) ← readHex4 cs
    if 0xD800 ≤ code ∧ code ≤ 0xDBFF then readLowSurrogate code cs
    else if 0xDC00 ≤ code ∧ code ≤ 0xDFFF then none
    else return (Char.ofNat code, cs)
  | _ => none

/-- The rest of a string after its opening quote. -/
def readChars : ℕ → Parser (List Char)
  | 0, _ => none
  | _, [] => none
  | fuel + 1, c :: cs =>
    if c = '"' then some ([], cs)
    else if c = '\\' then do
      let (c, cs) ← readEscape cs
      let (rest, cs) ← readChars fuel cs
      return (c :: rest, cs)
    else if c.toNat < 0x20 then none
    else do
      let (rest, cs) ← readChars fuel cs
      return (c :: rest, cs)

/-- The rest of a string after its opening quote. -/
def readString (cs : List Char) : Option (String × List Char) := do
  let (text, cs) ← readChars cs.length cs
  return (String.ofList text, cs)

/-- Decimal digits, perhaps none. -/
def readDigits (cs : List Char) : List Char × List Char :=
  (cs.takeWhile Char.isDigit, cs.dropWhile Char.isDigit)

/-- One or more decimal digits: their number and how many they are. -/
def readDigits1 : Parser (ℕ × ℕ) := fun cs =>
  let (ds, cs) := readDigits cs
  if ds = [] then none else some ((Nat.ofDigitChars 10 ds 0, ds.length), cs)

/-- The integer part: digits that are the decimal form of their number, so no needless zero in front. -/
def readWhole : Parser ℕ := fun cs =>
  let (ds, cs) := readDigits cs
  let n := Nat.ofDigitChars 10 ds 0
  if Nat.toDigits 10 n = ds then some (n, cs) else none

/-- The digits after the point, if there is one. -/
def readFraction : Parser (ℕ × ℕ)
  | '.' :: cs => readDigits1 cs
  | cs => some ((0, 0), cs)

/-- The sign and the digits of an exponent. -/
def readPower : Parser ℤ
  | '+' :: cs => (readDigits1 cs).map fun r => (r.1.1, r.2)
  | '-' :: cs => (readDigits1 cs).map fun r => (-r.1.1, r.2)
  | cs => (readDigits1 cs).map fun r => (r.1.1, r.2)

/-- The exponent, if there is one. -/
def readExponent : Parser (Option ℤ)
  | 'e' :: cs => (readPower cs).map fun r => (some r.1, r.2)
  | 'E' :: cs => (readPower cs).map fun r => (some r.1, r.2)
  | cs => some (none, cs)

/-- A number without its sign. -/
def readMagnitude (negative : Bool) : Parser Numeral := fun cs => do
  let (whole, cs) ← readWhole cs
  let ((digits, places), cs) ← readFraction cs
  let (exponent, cs) ← readExponent cs
  return (⟨negative, whole, digits, places, exponent⟩, cs)

/-- A number. -/
def readNumeral : Parser Numeral
  | '-' :: cs => readMagnitude true cs
  | cs => readMagnitude false cs

section Containers

variable {α : Type} (close : Char) (p : Parser α)

/-- Items with commas between them, at least one. -/
def readItems : ℕ → Parser (List α)
  | 0, _ => none
  | fuel + 1, cs => do
    let (a, cs) ← p cs
    match skip cs with
    | [] => none
    | c :: cs =>
      if c = close then return ([a], cs)
      else if c = ',' then do
        let (as, cs) ← readItems fuel cs
        return (a :: as, cs)
      else none

/-- The rest of a container after its opening character. -/
def readList : Parser (List α) := fun cs =>
  match skip cs with
  | [] => none
  | c :: rest => if c = close then some ([], rest) else readItems close p cs.length cs

/-- A field of an object. -/
def readField : Parser (String × α) := fun cs =>
  match skip cs with
  | '"' :: cs => do
    let (k, cs) ← readString cs
    match skip cs with
    | ':' :: cs => do
      let (a, cs) ← p cs
      return ((k, a), cs)
    | _ => none
  | _ => none

end Containers

/-- A value that is no container, without space before it. -/
def readScalar : Parser (Doc Numeral)
  | '"' :: cs => (readString cs).map fun r => (.string r.1, r.2)
  | 'n' :: 'u' :: 'l' :: 'l' :: cs => some (.null, cs)
  | 't' :: 'r' :: 'u' :: 'e' :: cs => some (.bool true, cs)
  | 'f' :: 'a' :: 'l' :: 's' :: 'e' :: cs => some (.bool false, cs)
  | cs => (readNumeral cs).map fun r => (.number r.1, r.2)

/-- A value with at most `depth` containers inside each other. -/
def readValue : ℕ → Parser (Doc Numeral)
  | 0, cs => readScalar (skip cs)
  | depth + 1, cs =>
    match skip cs with
    | '[' :: cs => (readList ']' (readValue depth) cs).map fun r => (.array r.1, r.2)
    | '{' :: cs => (readList '}' (readField (readValue depth)) cs).map fun r => (.object r.1, r.2)
    | cs => readScalar cs

/-- Read a whole text. -/
def parse (depth : ℕ) (text : List Char) : Option (Doc Numeral) :=
  match readValue depth text with
  | some (v, rest) => if skip rest = [] then some v else none
  | none => none

end SenseVoice.Lib.JsonText
