import MessageBus.Value

/-!
# Reading JSON

`Json.read` turns a text into a value. Beside the grammar of JSON it takes `NaN`, `Infinity` and
`-Infinity` as numbers and lets `\u` spell half of a UTF-16 pair; a number with neither fraction nor
exponent is an integer; of entries under one key the last one counts, at the place of the first.

A reader takes what is left of the text and gives a value and what is left behind it. A container is
read with the reader for its inside, which is handed down one level less, so that the reading ends
by the number of levels alone.
-/

namespace MessageBus.Json

/-- What a text lacks to be JSON. -/
inductive Problem where
  | expectedValue
  | extraData
  | expectedName
  | expectedColon
  | expectedComma
  | unterminatedText
  | controlCharacter
  | invalidEscape
  | invalidUnicodeEscape
  | byteOrderMark
deriving DecidableEq

def Problem.text : Problem → Text
  | .expectedValue => "Expecting value"
  | .extraData => "Extra data"
  | .expectedName => "Expecting property name enclosed in double quotes"
  | .expectedColon => "Expecting ':' delimiter"
  | .expectedComma => "Expecting ',' delimiter"
  | .unterminatedText => "Unterminated string starting at"
  | .controlCharacter => "Invalid control character at"
  | .invalidEscape => "Invalid \\escape"
  | .invalidUnicodeEscape => "Invalid \\uXXXX escape"
  | .byteOrderMark => "Unexpected UTF-8 BOM (decode using utf-8-sig)"

/-- Why reading stops: a problem with so many code points left, an integer of too many digits, or
containers nested too deep. -/
inductive Stop where
  | malformed (problem : Problem) (left : Nat)
  | tooManyDigits (count : Nat)
  | tooDeep
deriving DecidableEq

/-- How deep containers may nest around a value, and how many digits an integer may have. -/
structure Limits where
  depth : Nat
  digits : Nat
deriving DecidableEq

abbrev Reader (α : Type) := Text → Except Stop (α × Text)

def stopAt {α : Type} (problem : Problem) (t : Text) : Except Stop α := .error (.malformed problem t.length)

/-! ## Blanks and words -/

def isBlank (c : CodePoint) : Bool := c = ' ' || c = '\t' || c = '\n' || c = '\r'

def skipBlanks (t : Text) : Text := t.dropWhile isBlank

def after? : (word : Text) → Text → Option Text
  | [], t => some t
  | _ :: _, [] => none
  | c :: word, d :: t => if c = d then after? word t else none

/-! ## Texts -/

/-- A part of a text between quotes: a code point that stands for itself or was spelled by a short
escape, or a UTF-16 unit spelled by `\u`. -/
inductive Piece where
  | plain (c : CodePoint)
  | unit (n : Nat)
deriving DecidableEq

def shortEscape? (c : CodePoint) : Option CodePoint :=
  if c = '"' then some '"'
  else if c = '\\' then some '\\'
  else if c = '/' then some '/'
  else if c = 'b' then some '\x08'
  else if c = 'f' then some '\x0c'
  else if c = 'n' then some '\n'
  else if c = 'r' then some '\r'
  else if c = 't' then some '\t'
  else none

def unit? (a b c d : CodePoint) : Option Nat := do
  return (← a.hexDigit?) * 4096 + (← b.hexDigit?) * 256 + (← c.hexDigit?) * 16 + (← d.hexDigit?)

/-- The pieces up to the closing quote; `opening` is what was left from the opening quote on. -/
def readPieces (opening : Nat) : Reader (List Piece)
  | [] => .error (.malformed .unterminatedText opening)
  | c :: rest =>
    if c = '"' then .ok ([], rest)
    else if c = '\\' then
      match rest with
      | [] => .error (.malformed .unterminatedText opening)
      | e :: rest =>
        if e = 'u' then
          match rest with
          | p :: q :: r :: s :: next :: rest =>
            match unit? p q r s with
            | some n => do
              let (pieces, left) ← readPieces opening (next :: rest)
              .ok (.unit n :: pieces, left)
            | none => stopAt .invalidUnicodeEscape (e :: p :: q :: r :: s :: next :: rest)
          | rest => stopAt .invalidUnicodeEscape (e :: rest)
        else
          match shortEscape? e with
          | some x => do
            let (pieces, left) ← readPieces opening rest
            .ok (.plain x :: pieces, left)
          | none => stopAt .invalidEscape (c :: e :: rest)
    else if c.val < 0x20 then stopAt .controlCharacter (c :: rest)
    else do
      let (pieces, left) ← readPieces opening rest
      .ok (.plain c :: pieces, left)

/-- The text of pieces: a unit of the first half of a pair and one of the second half that follows it
make one code point. -/
def Piece.join : List Piece → Text
  | [] => []
  | .plain c :: rest => c :: join rest
  | .unit m :: .unit n :: rest =>
    if 0xD800 ≤ m ∧ m < 0xDC00 ∧ 0xDC00 ≤ n ∧ n < 0xE000 then
      CodePoint.ofNat (0x10000 + (m - 0xD800) * 0x400 + (n - 0xDC00)) :: join rest
    else CodePoint.ofNat m :: join (.unit n :: rest)
  | .unit m :: rest => CodePoint.ofNat m :: join rest

def readText (opening : Nat) : Reader Text := fun t => do
  let (pieces, left) ← readPieces opening t
  .ok (Piece.join pieces, left)

/-! ## Numbers -/

/-- The digits of a fraction at the head of a text: a point and at least one digit. -/
def readFraction (t : Text) : Option (List Nat) × Text :=
  match t with
  | .char '.' :: rest =>
    match Text.spanDigits rest with
    | ([], _) => (none, t)
    | (ds, left) => (some ds, left)
  | _ => (none, t)

/-- An exponent at the head of a text: `e` or `E`, perhaps a sign, and at least one digit. -/
def readExponent (t : Text) : Option Int × Text :=
  match t with
  | e :: rest =>
    if e = 'e' ∨ e = 'E' then
      let (negative, rest) : Bool × Text := match rest with
        | .char '-' :: rest => (true, rest)
        | .char '+' :: rest => (false, rest)
        | rest => (false, rest)
      match Text.spanDigits rest with
      | ([], _) => (none, t)
      | (ds, left) => (some (if negative then -(Text.numberOf ds : Int) else Text.numberOf ds), left)
    else (none, t)
  | [] => (none, t)

def readWhole (t : Text) : List Nat × Text :=
  match Text.spanDigits t with
  | (0 :: _, _) => ([0], t.drop 1)
  | read => read

def readNumber (limits : Limits) : Reader Value := fun t =>
  let (negative, unsigned) : Bool × Text := match t with
    | .char '-' :: rest => (true, rest)
    | t => (false, t)
  match readWhole unsigned with
  | ([], _) => stopAt .expectedValue t
  | (whole, left) =>
    let (fraction, left) := readFraction left
    let (exponent, left) := readExponent left
    match fraction, exponent with
    | none, none =>
      if limits.digits < whole.length then .error (.tooManyDigits whole.length)
      else .ok (.int (if negative then -(Text.numberOf whole : Int) else Text.numberOf whole), left)
    | _, _ =>
      let fraction := fraction.getD []
      .ok (.float (Double.ofDecimal negative (Text.numberOf (whole ++ fraction))
        (exponent.getD 0 - fraction.length)), left)

/-! ## Values -/

/-- The items of a list up to its closing bracket, separated by commas; `fuel` exceeds their number. -/
def readItems (inside : Reader Value) : (fuel : Nat) → Reader (List Value)
  | 0, t => stopAt .expectedValue t
  | fuel + 1, t => do
    let (v, left) ← inside t
    match skipBlanks left with
    | .char ']' :: left => .ok ([v], left)
    | .char ',' :: left =>
      let (vs, left) ← readItems inside fuel (skipBlanks left)
      .ok (v :: vs, left)
    | left => stopAt .expectedComma left

/-- The entries of a dictionary up to its closing brace; `fuel` exceeds their number. -/
def readEntries (inside : Reader Value) : (fuel : Nat) → Reader (List (Text × Value))
  | 0, t => stopAt .expectedName t
  | fuel + 1, t =>
    match t with
    | .char '"' :: rest => do
      let (key, left) ← readText t.length rest
      match skipBlanks left with
      | .char ':' :: left =>
        let (v, left) ← inside (skipBlanks left)
        match skipBlanks left with
        | .char '}' :: left => .ok ([(key, v)], left)
        | .char ',' :: left =>
          let (es, left) ← readEntries inside fuel (skipBlanks left)
          .ok ((key, v) :: es, left)
        | left => stopAt .expectedComma left
      | left => stopAt .expectedColon left
    | t => stopAt .expectedName t

/-- The value of a word at the head of a text, or the number there. -/
def readScalar (limits : Limits) : Reader Value := fun t =>
  match after? "null" t, after? "true" t, after? "false" t, after? "NaN" t, after? "Infinity" t,
    after? "-Infinity" t with
  | some left, _, _, _, _, _ => .ok (.null, left)
  | _, some left, _, _, _, _ => .ok (.bool true, left)
  | _, _, some left, _, _, _ => .ok (.bool false, left)
  | _, _, _, some left, _, _ => .ok (.float .nan, left)
  | _, _, _, _, some left, _ => .ok (.float (.infinite false), left)
  | _, _, _, _, _, some left => .ok (.float (.infinite true), left)
  | _, _, _, _, _, _ => readNumber limits t

def readLayer (limits : Limits) (inside : Reader Value) : Reader Value := fun t =>
  match t with
  | .char '"' :: rest => do
    let (u, left) ← readText t.length rest
    .ok (.text u, left)
  | .char '[' :: rest =>
    match skipBlanks rest with
    | .char ']' :: left => .ok (.list [], left)
    | rest => do
      let (items, left) ← readItems inside (rest.length + 1) rest
      .ok (.list items, left)
  | .char '\x7b' :: rest =>
    match skipBlanks rest with
    | .char '\x7d' :: left => .ok (.dict [], left)
    | rest => do
      let (entries, left) ← readEntries inside (rest.length + 1) rest
      .ok (Value.ofEntries entries, left)
  | t => readScalar limits t

/-- The value at the head of a text with so many levels of containers. -/
def readValue (limits : Limits) : (levels : Nat) → Reader Value
  | 0 => readLayer limits fun _ => .error .tooDeep
  | levels + 1 => readLayer limits (readValue limits levels)

/-- The value of a text that holds one value among blanks, in terms of what is left at a stop. -/
def readAll (limits : Limits) (t : Text) : Except Stop Value := do
  let (v, left) ← readValue limits limits.depth (skipBlanks t)
  match skipBlanks left with
  | [] => .ok v
  | left => stopAt .extraData left

/-! ## Errors -/

/-- Why a text is not read, with the place of a problem. Lines and columns count from 1, positions
from 0. -/
inductive ReadError where
  | malformed (problem : Problem) (line column position : Nat)
  | tooManyDigits (limit count : Nat)
  | tooDeep
deriving DecidableEq

def Stop.inText (limits : Limits) (t : Text) : Stop → ReadError
  | .malformed problem left =>
    let read := t.take (t.length - left)
    .malformed problem (read.count (.char '\n') + 1)
      ((read.reverse.takeWhile (· ≠ .char '\n')).length + 1) read.length
  | .tooManyDigits count => .tooManyDigits limits.digits count
  | .tooDeep => .tooDeep

def ReadError.message : ReadError → Text
  | .malformed problem line column position =>
    problem.text ++ ": line " ++ Text.ofNat line ++ " column " ++ Text.ofNat column ++ " (char " ++
      Text.ofNat position ++ ")"
  | .tooManyDigits limit count =>
    "Exceeds the limit (" ++ Text.ofNat limit ++ " digits) for integer string conversion: value has " ++
      Text.ofNat count ++ " digits; use sys.set_int_max_str_digits() to increase the limit"
  | .tooDeep => "maximum recursion depth exceeded"

def read (limits : Limits) (t : Text) : Except ReadError Value :=
  (readAll limits t).mapError (Stop.inText limits t)

def readUnmarked (limits : Limits) (t : Text) : Except ReadError Value :=
  if t.head? = some (.char (Char.ofNat 0xFEFF)) then .error (.malformed .byteOrderMark 1 1 0)
  else read limits t

def Limits.payload : Limits := ⟨990, 4300⟩

/-- The limits of the decoder that checks what was just encoded. -/
def Limits.check : Limits := ⟨200, 4300⟩

end MessageBus.Json
