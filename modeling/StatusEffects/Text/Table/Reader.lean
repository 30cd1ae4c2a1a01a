import StatusEffects.Text.Table.Scalar

/-!
# Reading the table notation

Reads a settings file line by line into its table.

## Main definitions

* `Table.readKey` : a key, which may have several parts.
* `Table.readValue` : a value and the text behind it.
* `Table.read` : the table of a text.
-/

namespace StatusEffects.Text.Table

/-- Whether a character may stand between two parts of a line. -/
def isSpace (c : Char) : Bool := c == ' ' || c == '\t'

/-- The text less the blanks in front. -/
def skipSpace (cs : List Char) : List Char := cs.dropWhile isSpace

/-- Whether a character may stand in a comment or in quotes. -/
def isPrintable (c : Char) : Bool := c == '\t' || (31 < c.toNat && c.toNat ≠ 127)

/-- The text behind the end of a line, which may be the end of the text. -/
def lineEnd? : List Char → Option (List Char)
  | [] => some []
  | '\n' :: cs => some cs
  | '\r' :: '\n' :: cs => some cs
  | _ => none

/-- The text behind a comment, if one stands in front. -/
def skipComment : List Char → List Char
  | '#' :: cs => cs.dropWhile isPrintable
  | cs => cs

/-- The text behind the rest of a line, in which only a comment may stand. -/
def endLine (cs : List Char) : Option (List Char) := lineEnd? (skipComment (skipSpace cs))

/-- The text behind blanks, comments and ends of lines, at most `fuel` of them. -/
def skipSomeLines : (fuel : Nat) → List Char → Option (List Char)
  | 0, cs => some cs
  | n + 1, cs =>
    match skipComment (skipSpace cs) with
    | '\n' :: rest => skipSomeLines n rest
    | '\r' :: '\n' :: rest => skipSomeLines n rest
    | rest => if (skipSpace cs).head? = some '#' ∧ rest ≠ [] then none else some rest

/-- The text behind blanks, comments and ends of lines. -/
def skipLines (cs : List Char) : Option (List Char) := skipSomeLines (cs.length + 1) cs

/-! ### Quoted texts -/

/-- An apostrophe. -/
def apostrophe : Char := Char.ofNat 39

/-- The character that a number of hexadecimal digits stands for, and the text behind. -/
def takeCodePoint (n : Nat) (cs : List Char) : Option (Char × List Char) := do
  let digits := cs.take n
  if digits.length < n then none
  else
    let v ← readDigits 16 digits
    if v.isValidChar then some (Char.ofNat v, cs.drop n) else none

/-- What stands behind a backslash on one line. -/
def readEscape : List Char → Option (Char × List Char)
  | 'b' :: cs => some (Char.ofNat 8, cs)
  | 't' :: cs => some ('\t', cs)
  | 'n' :: cs => some ('\n', cs)
  | 'f' :: cs => some (Char.ofNat 12, cs)
  | 'r' :: cs => some ('\r', cs)
  | 'e' :: cs => some (Char.ofNat 27, cs)
  | '"' :: cs => some ('"', cs)
  | '\\' :: cs => some ('\\', cs)
  | 'x' :: cs => takeCodePoint 2 cs
  | 'u' :: cs => takeCodePoint 4 cs
  | 'U' :: cs => takeCodePoint 8 cs
  | _ => none

/-- The text in quotes on one line, from behind the opening quote. -/
def readQuoted : (fuel : Nat) → List Char → Option (List Char × List Char)
  | 0, _ => none
  | _ + 1, '"' :: cs => some ([], cs)
  | n + 1, '\\' :: cs => do
    let (c, rest) ← readEscape cs
    let (s, rest) ← readQuoted n rest
    some (c :: s, rest)
  | n + 1, c :: cs =>
    if isPrintable c then (readQuoted n cs).map fun (s, rest) => (c :: s, rest) else none
  | _ + 1, [] => none

/-- The text between apostrophes on one line, from behind the first. -/
def readLiteral (cs : List Char) : Option (List Char × List Char) :=
  let isInside (c : Char) := isPrintable c && c ≠ apostrophe
  match cs.dropWhile isInside with
  | c :: rest => if c = apostrophe then some (cs.takeWhile isInside, rest) else none
  | [] => none

/-- The text behind blanks and ends of lines. -/
def skipBlank : List Char → List Char
  | '\r' :: '\n' :: cs => skipBlank cs
  | c :: cs => if isSpace c || c == '\n' then skipBlank cs else c :: cs
  | [] => []

/-- The text behind blanks and ends of lines after a backslash at the end of a line. -/
def skipFold (cs : List Char) : Option (List Char) :=
  match skipSpace cs with
  | '\n' :: rest => some (skipBlank rest)
  | '\r' :: '\n' :: rest => some (skipBlank rest)
  | _ => none

/-- The text behind a text on several lines, from behind its opening marks. Up to two marks may
stand before the closing three. -/
def skipLong (mark : Char) (escapes : Bool) : (fuel : Nat) → List Char → Option (List Char)
  | 0, _ => none
  | _ + 1, [] => none
  | n + 1, c :: cs =>
    if c = mark then
      let run := (c :: cs).takeWhile (· = mark)
      let rest := (c :: cs).dropWhile (· = mark)
      if run.length < 3 then skipLong mark escapes n rest
      else if run.length ≤ 5 then some rest
      else none
    else if c == '\\' && escapes then
      match readEscape cs with
      | some (_, rest) => skipLong mark escapes n rest
      | none => (skipFold cs).bind (skipLong mark escapes n)
    else if c == '\n' || isPrintable c then skipLong mark escapes n cs
    else if c == '\r' && cs.head? == some '\n' then skipLong mark escapes n cs
    else none

/-! ### Keys -/

/-- Whether a character may stand in a key without quotes. -/
def isBare (c : Char) : Bool := c.isAlphanum || c == '_' || c == '-'

/-- One part of a key. -/
def readKeyPart (cs : List Char) : Option (String × List Char) :=
  match cs with
  | '"' :: rest => (readQuoted (rest.length + 1) rest).map fun (s, r) => (String.ofList s, r)
  | c :: rest =>
    if c = apostrophe then (readLiteral rest).map fun (s, r) => (String.ofList s, r)
    else
      let part := cs.takeWhile isBare
      if part.isEmpty then none else some (String.ofList part, cs.dropWhile isBare)
  | [] => none

/-- The parts of a key with dots between them: all but the last, the last, and the text behind. -/
def readKeyParts : (fuel : Nat) → List Char → Option (List String × String × List Char)
  | 0, _ => none
  | n + 1, cs => do
    let (part, rest) ← readKeyPart (skipSpace cs)
    match skipSpace rest with
    | '.' :: more =>
      let (parts, last, rest) ← readKeyParts n more
      some (part :: parts, last, rest)
    | rest => some ([], part, rest)

/-- How many parts a key may have, and how many brackets and braces may be open at a time. -/
def deepest : Nat := 80

/-- A key: all of its parts but the last, the last, and the text behind. -/
def readKey (cs : List Char) : Option (List String × String × List Char) :=
  (readKeyParts (cs.length + 1) cs).filter fun (path, _, _) => path.length < deepest

/-! ### Values -/

/-- Whether a value without quotes or brackets may go on with the character. -/
def isPlainRest (c : Char) : Bool :=
  c.isAlphanum || c == '_' || c == '-' || c == '+' || c == '.' || c == ':'

/-- A value without quotes or brackets. A blank may stand between a date and a time. -/
def takePlain (cs : List Char) : Option (Value × List Char) :=
  let run := cs.takeWhile isPlainRest
  let rest := cs.dropWhile isPlainRest
  match rest with
  | ' ' :: c :: more =>
    if takeDate run == some [] && isDecimal c then
      (readPlain (run ++ ' ' :: (c :: more).takeWhile isPlainRest)).map
        (·, (c :: more).dropWhile isPlainRest)
    else (readPlain run).map (·, rest)
  | _ => (readPlain run).map (·, rest)

/-- The text behind a text in quotes or apostrophes, on one line or on several. -/
def skipText (mark : Char) (cs : List Char) : Option (List Char) :=
  if [mark, mark, mark].isPrefixOf cs then
    skipLong mark (mark == '"') (cs.length + 1) (cs.drop 3)
  else if mark = '"' then (readQuoted (cs.length + 1) (cs.drop 1)).map (·.2)
  else (readLiteral (cs.drop 1)).map (·.2)

mutual

/-- A value and the text behind it, with room for some more brackets and braces. -/
def readValue : (fuel room : Nat) → List Char → Option (Value × List Char)
  | 0, _, _ => none
  | _ + 1, _, [] => none
  | _ + 1, 0, '[' :: _ => none
  | _ + 1, 0, '\x7b' :: _ => none
  | n + 1, room + 1, '[' :: rest => (readArray n room rest).map (.other, ·)
  | n + 1, room + 1, '\x7b' :: rest => (readInline n room [] rest).map (.other, ·)
  | _ + 1, _, c :: cs =>
    if c = '"' ∨ c = apostrophe then (skipText c (c :: cs)).map (.other, ·)
    else takePlain (c :: cs)

/-- The text behind the items of a list and its closing bracket. -/
def readArray : (fuel room : Nat) → List Char → Option (List Char)
  | 0, _, _ => none
  | n + 1, room, cs => do
    match ← skipLines cs with
    | ']' :: rest => some rest
    | cs =>
      let (_, rest) ← readValue n room cs
      match ← skipLines rest with
      | ',' :: rest => readArray n room rest
      | ']' :: rest => some rest
      | _ => none

/-- The text behind the entries of a table in braces and its closing brace. -/
def readInline : (fuel room : Nat) → Entries → List Char → Option (List Char)
  | 0, _, _, _ => none
  | n + 1, room, es, cs => do
    match ← skipLines cs with
    | '\x7d' :: rest => some rest
    | cs =>
      let (path, key, rest) ← readKey cs
      let rest ← expect '=' (← skipLines rest)
      let (v, rest) ← readValue n room (← skipLines rest)
      let es ← assign es path key v
      match ← skipLines rest with
      | ',' :: rest => readInline n room es rest
      | '\x7d' :: rest => some rest
      | _ => none

end

/-! ### Lines -/

/-- What has been read: the table, and the heading that lines stand under. -/
structure State where
  entries : Entries := []
  heading : List String := []

/-- A heading of either kind, from behind its opening bracket. -/
def readHeading (s : State) (cs : List Char) : Option (State × List Char) :=
  match cs with
  | '[' :: cs => do
    let (path, key, rest) ← readKey cs
    let rest ← expect ']' rest
    let rest ← expect ']' rest
    let entries ← openItem s.entries path key
    let rest ← endLine rest
    some (⟨entries, path ++ [key]⟩, rest)
  | cs => do
    let (path, key, rest) ← readKey cs
    let rest ← expect ']' rest
    let entries ← openTable s.entries path key
    let rest ← endLine rest
    some (⟨entries, path ++ [key]⟩, rest)

/-- A line that gives a key a value. -/
def readAssignment (s : State) (cs : List Char) : Option (State × List Char) := do
  let (path, key, rest) ← readKey cs
  let rest ← expect '=' rest
  let (v, rest) ← readValue (4 * (rest.length + 1)) deepest (skipSpace rest)
  let entries ← assignUnder s.heading s.entries path key v
  let rest ← endLine rest
  some ({ s with entries }, rest)

/-- The lines of a text, at most `fuel` of them. -/
def readLines : (fuel : Nat) → State → List Char → Option State
  | 0, _, _ => none
  | n + 1, s, cs =>
    match skipSpace cs with
    | [] => some s
    | '[' :: cs => do
      let (s, rest) ← readHeading s cs
      readLines n s rest
    | c :: cs =>
      if c = '#' ∨ c = '\n' ∨ c = '\r' then (endLine (c :: cs)).bind (readLines n s)
      else do
        let (s, rest) ← readAssignment s (c :: cs)
        readLines n s rest

/-- The table of a text. A byte order mark may stand in front. -/
def read (text : String) : Option Entries :=
  let cs := match text.toList with
    | '\ufeff' :: cs => cs
    | cs => cs
  (readLines (cs.length + 1) {} cs).map (·.entries)

end StatusEffects.Text.Table
