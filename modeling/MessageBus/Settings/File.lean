import MessageBus.Settings
import MessageBus.Text.Blank

/-!
# Files of variables

A file holds one variable a line, `NAME=value`, with blanks around both, perhaps behind the word
`export`. A value in quotes can go over lines and has escapes; a value without quotes ends before a
blank and a `#`. A line that is no such line is skipped, and so is a byte order mark at the head of the
file. A value can refer to other variables by `${NAME}` and `${NAME:-text}`: those that stand before it
in the file, else those of the environment.
-/

namespace MessageBus.Variables

/-! ## Lines -/

def isInline (c : CodePoint) : Bool := c.isBlankOrSeparator && c ≠ .char '\n' && c ≠ .char '\r'

def skipInline (t : Text) : Text := t.dropWhile isInline

def withLineFeeds : Text → Text
  | [] => []
  | .char '\r' :: .char '\n' :: rest => .char '\n' :: withLineFeeds rest
  | .char '\r' :: rest => .char '\n' :: withLineFeeds rest
  | c :: rest => c :: withLineFeeds rest

def afterLine (t : Text) : Text := (t.dropWhile (· ≠ .char '\n')).drop 1

/-- What follows the word `export` and a blank, if they stand at the head. -/
def afterExport (t : Text) : Text :=
  if Text.ofString "export" <+: t ∧ ((t.drop 6).head?.any isInline) then skipInline (t.drop 6) else t

/-- The part of a text up to the first quote that no backslash escapes, and what follows the quote. A
backslash escapes whatever stands behind it. -/
def quotedPart (quote : Char) : Text → Option (Text × Text)
  | [] => none
  | c :: rest =>
    if c = quote then some ([], rest)
    else if c = '\\' then
      match rest with
      | [] => none
      | d :: rest => (quotedPart quote rest).map fun (part, left) => (c :: d :: part, left)
    else (quotedPart quote rest).map fun (part, left) => (c :: part, left)

def doubleEscape? (c : CodePoint) : Option CodePoint :=
  if c = '\\' ∨ c = '\'' ∨ c = '"' then some c
  else if c = 'a' then some '\x07'
  else if c = 'b' then some '\x08'
  else if c = 'f' then some '\x0c'
  else if c = 'n' then some '\n'
  else if c = 'r' then some '\r'
  else if c = 't' then some '\t'
  else if c = 'v' then some '\x0b'
  else none

def singleEscape? (c : CodePoint) : Option CodePoint := if c = '\\' ∨ c = '\'' then some c else none

def unescaped (escape? : CodePoint → Option CodePoint) : Text → Text
  | [] => []
  | [c] => [c]
  | c :: d :: rest =>
    match if c = '\\' then escape? d else none with
    | some x => x :: unescaped escape? rest
    | none => c :: unescaped escape? (d :: rest)

/-- A value without quotes up to a blank before a `#`; `blank` tells whether one stands before it. -/
def beforeComment : (blank : Bool) → Text → Text
  | _, [] => []
  | blank, c :: rest =>
    if blank ∧ c = '#' then [] else c :: beforeComment c.isBlankOrSeparator rest

/-- The name of a variable at the head of a text, none before a comment. -/
def readName (t : Text) : Option (Option Text × Text) :=
  match t with
  | .char '#' :: _ => some (none, t)
  | .char '\'' :: rest =>
    let name := rest.takeWhile (· ≠ CodePoint.char '\'')
    match rest.dropWhile (· ≠ CodePoint.char '\'') with
    | [] => none
    | _ :: left => if name.isEmpty then none else some (some name, left)
  | t =>
    let ends (c : CodePoint) : Bool := c = '=' || c = '#' || c.isBlankOrSeparator
    let name := t.takeWhile (!ends ·)
    if name.isEmpty then none else some (some name, t.dropWhile (!ends ·))

/-- The value of a variable at the head of a text; `blank` tells whether a blank stands before it. -/
def readValue (blank : Bool) (t : Text) : Option (Text × Text) :=
  match t with
  | .char '\'' :: rest =>
    (quotedPart '\'' rest).map fun (part, left) => (unescaped singleEscape? part, left)
  | .char '"' :: rest =>
    (quotedPart '"' rest).map fun (part, left) => (unescaped doubleEscape? part, left)
  | t =>
    let line := t.takeWhile (· ≠ .char '\n')
    some ((beforeComment blank line).trimmedEnd CodePoint.isBlankOrSeparator,
      t.dropWhile (· ≠ .char '\n'))

/-- What follows a comment and the end of a line, if nothing else stands before it. -/
def afterComment? (t : Text) : Option Text :=
  let left : Text := match skipInline t with
    | .char '#' :: rest => rest.dropWhile (· ≠ .char '\n')
    | left => left
  match left with
  | [] => some []
  | .char '\n' :: rest => some rest
  | _ => none

/-- One line of a file: its variable if it holds one, and the lines behind it. -/
def readLine (t : Text) : Option (Text × Option Text) × Text :=
  let t := afterExport t
  match readName t with
  | none => (none, afterLine t)
  | some (name, left) =>
    match skipInline left with
    | .char '=' :: rest =>
      match readValue (rest.head?.any isInline) (skipInline rest) with
      | none => (none, afterLine rest)
      | some (value, left) =>
        match afterComment? left with
        | some lines => (name.map (·, some value), lines)
        | none => (none, afterLine left)
    | left =>
      match afterComment? left with
      | some lines => (name.map (·, none), lines)
      | none => (none, afterLine left)

/-- The variables of a file as they are written; `fuel` exceeds the count of its lines. -/
def readLines : (fuel : Nat) → Text → Variables
  | 0, _ => []
  | fuel + 1, t =>
    match t.dropWhile CodePoint.isBlankOrSeparator with
    | [] => []
    | t =>
      let (found, rest) := readLine t
      found.toList ++ readLines fuel rest

/-! ## References -/

/-- A part of a value: text that stands for itself, or a reference with the text that stands in for a
variable that is not there. -/
inductive Part where
  | plain (c : CodePoint)
  | reference (name fallback : Text)

/-- The reference that follows a dollar sign and a brace, and what follows it. -/
def readReference (t : Text) : Option (Part × Text) :=
  let ends (c : CodePoint) : Bool := c = '\x7d' || c = ':'
  let name := t.takeWhile (!ends ·)
  match t.dropWhile (!ends ·) with
  | .char '\x7d' :: left => some (.reference name [], left)
  | .char ':' :: .char '-' :: rest =>
    match rest.dropWhile (· ≠ .char '\x7d') with
    | _ :: left => some (.reference name (rest.takeWhile (· ≠ .char '\x7d')), left)
    | [] => none
  | _ => none

def parts : (fuel : Nat) → Text → List Part
  | 0, _ => []
  | _, [] => []
  | fuel + 1, .char '$' :: .char '\x7b' :: rest =>
    match readReference rest with
    | some (part, left) => part :: parts fuel left
    | none => .plain '$' :: parts fuel (.char '\x7b' :: rest)
  | fuel + 1, c :: rest => .plain c :: parts fuel rest

def under? (name : Text) (vs : Variables) : Option (Option Text) :=
  (vs.reverse.find? (·.1 = name)).map (·.2)

def Part.resolve (environment before : Variables) : Part → Text
  | .plain c => [c]
  | .reference name fallback =>
    (((under? name before).or (under? name environment)).getD (some fallback)).getD []

/-- Variables with a variable set, at the place of its first occurrence. -/
def set (name : Text) (value : Option Text) : Variables → Variables
  | [] => [(name, value)]
  | (n, v) :: rest => if n = name then (name, value) :: rest else (n, v) :: set name value rest

/-- Variables with one more of a file set, its references replaced by what they refer to. -/
def setResolved (resolve : Variables → Part → Text) (before : Variables) (v : Text × Option Text) : Variables :=
  set v.1 (v.2.map fun t => (parts (t.length + 1) t).flatMap (resolve before)) before

/-- Variables with their references replaced, one after the other. -/
def resolvedBy (resolve : Variables → Part → Text) (written : Variables) : Variables :=
  written.foldl (setResolved resolve) []

def withoutMark : Text → Text
  | [] => []
  | c :: rest => if c.val = 0xFEFF then rest else c :: rest

/-- The variables of a file as they are written. -/
def written (t : Text) : Variables :=
  let t := withLineFeeds (withoutMark t)
  readLines (t.length + 1) t

def ofFile (environment : Variables) (t : Text) : Variables :=
  resolvedBy (Part.resolve environment) (written t)

/-! ## Taking over -/

/-- The variables that a file offers to an environment. Here a reference is to a variable of the environment first,
and to one that stands before it in the file second. -/
def offered (environment : Variables) (t : Text) : Variables :=
  resolvedBy (fun before => Part.resolve before environment) (written t)

/-- The offered variables that an environment lacks. One without a value is not offered. -/
def lacking (environment : List (Text × Text)) (offered : Variables) : List (Text × Text) :=
  offered.filterMap fun (name, value) =>
    if environment.any (·.1 = name) then none else value.map (name, ·)

/-- Why no environment can hold a variable, if none can. -/
def unholdable? (name value : Text) : Option Text :=
  if CodePoint.char '\x00' ∈ name ++ value then some "embedded null byte"
  else if CodePoint.char '=' ∈ name then some "illegal environment variable name"
  else none

end MessageBus.Variables
