import StatusEffects.Text.Record

/-!
# Reading the record notation

Reads a text as one value. Blanks and comments may stand between any two parts; a comma may follow
the last item of a group.

## Main definitions

* `Record.skip` : a text less the blanks and comments in front.
* `Record.readValue` : a value and the text behind it.
* `Record.read` : the value that is the whole of a text.
-/

namespace StatusEffects.Text.Record

/-! ### Blanks and comments -/

/-- Whether a character may stand between any two parts. -/
def isSpace (c : Char) : Bool :=
  [0x09, 0x0A, 0x0B, 0x0C, 0x0D, 0x20, 0x85, 0x200E, 0x200F, 0x2028, 0x2029].contains c.toNat

/-- The text behind the end of a block comment that is open `level` times. -/
def blockEnd : (level : Nat) → List Char → Option (List Char)
  | 0, cs => some cs
  | _ + 1, [] => none
  | n + 1, '/' :: '*' :: cs => blockEnd (n + 2) cs
  | n + 1, '*' :: '/' :: cs => blockEnd n cs
  | n + 1, _ :: cs => blockEnd (n + 1) cs

/-- Skips blanks and comments, at most `fuel` of them. A slash that opens no comment is an error. -/
def skipSome : (fuel : Nat) → List Char → Option (List Char)
  | 0, cs => some cs
  | _ + 1, [] => some []
  | n + 1, '/' :: '/' :: cs => skipSome n (cs.dropWhile (· ≠ '\n'))
  | n + 1, '/' :: '*' :: cs => (blockEnd 1 cs).bind (skipSome n)
  | _ + 1, '/' :: _ => none
  | n + 1, c :: cs => if isSpace c then skipSome n cs else some (c :: cs)

/-- The text behind the blanks and comments in front. -/
def skip (cs : List Char) : Option (List Char) := skipSome (cs.length + 1) cs

/-! ### Texts -/

/-- What an escape stands for: a character, or one byte of one. -/
inductive Piece where
  | char (c : Char)
  | byte (b : UInt8)

/-- The bytes of a piece. -/
def Piece.bytes : Piece → List UInt8
  | .char c => (String.singleton c).toUTF8.toList
  | .byte b => [b]

/-- The character of a code point, if there is one. -/
def charOf? (n : Nat) : Option Char := if n.isValidChar then some (Char.ofNat n) else none

/-- The code point in braces behind `\u`: one to six hexadecimal digits. -/
def readCodePoint (cs : List Char) : Option (Piece × List Char) :=
  match cs with
  | '\x7b' :: cs =>
    let digits := cs.takeWhile (· ≠ '\x7d')
    if 6 < digits.length then none
    else do
      let n ← readDigits 16 digits
      let c ← charOf? n
      some (.char c, (cs.dropWhile (· ≠ '\x7d')).drop 1)
  | _ => none

/-- What stands behind a backslash. -/
def readEscape : List Char → Option (Piece × List Char)
  | 'n' :: cs => some (.char '\n', cs)
  | 'r' :: cs => some (.char '\r', cs)
  | 't' :: cs => some (.char '\t', cs)
  | '0' :: cs => some (.char (Char.ofNat 0), cs)
  | '\\' :: cs => some (.char '\\', cs)
  | '"' :: cs => some (.char '"', cs)
  | 'x' :: a :: b :: cs => (readDigits 16 [a, b]).map fun n => (.byte n.toUInt8, cs)
  | 'u' :: cs => readCodePoint cs
  | c :: cs => if c.toNat = 39 then some (.char c, cs) else none
  | [] => none

/-- The pieces of a text up to the closing quote, at most `fuel` of them. -/
def readPieces : (fuel : Nat) → List Char → Option (List Piece × List Char)
  | 0, _ => none
  | _ + 1, [] => none
  | _ + 1, '"' :: cs => some ([], cs)
  | n + 1, '\\' :: cs => do
    let (p, rest) ← readEscape cs
    let (ps, rest) ← readPieces n rest
    some (p :: ps, rest)
  | n + 1, c :: cs => (readPieces n cs).map fun (ps, rest) => (.char c :: ps, rest)

/-- A text in quotes, from behind the opening one. Escaped bytes must make up characters. -/
def readQuoted (cs : List Char) : Option (Value × List Char) := do
  let (ps, rest) ← readPieces (cs.length + 1) cs
  let s ← String.fromUTF8? (ByteArray.mk (ps.flatMap Piece.bytes).toArray)
  some (.text s, rest)

/-- The text up to the closing mark, and what is behind the mark. -/
def splitAtMark (mark : List Char) : List Char → Option (List Char × List Char)
  | [] => none
  | c :: cs =>
    if mark.isPrefixOf (c :: cs) then some ([], (c :: cs).drop mark.length)
    else (splitAtMark mark cs).map fun (before, rest) => (c :: before, rest)

/-- A text without escapes, from behind its `r`: between quotes with as many number signs on either
side. -/
def readRaw (cs : List Char) : Option (Value × List Char) :=
  let hashes := cs.takeWhile (· = '#')
  match cs.dropWhile (· = '#') with
  | '"' :: cs =>
    (splitAtMark ('"' :: hashes) cs).map fun (s, rest) => (.text (String.ofList s), rest)
  | _ => none

/-- The end of a value between apostrophes. -/
def closeMark : List Char → Option (Value × List Char)
  | c :: rest => if c.toNat = 39 then some (.other, rest) else none
  | [] => none

/-- A character between apostrophes, from behind the first. An escaped byte must be one of ASCII. -/
def readChar (cs : List Char) : Option (Value × List Char) := do
  match cs with
  | '\\' :: cs =>
    match ← readEscape cs with
    | (.char _, rest) => closeMark rest
    | (.byte b, rest) => if b < 128 then closeMark rest else none
  | _ :: rest => closeMark rest
  | [] => none

/-- A byte between apostrophes, from behind the first: a character of ASCII, or an escape other than
that of a code point. -/
def readByte (cs : List Char) : Option (Value × List Char) := do
  match cs with
  | '\\' :: 'u' :: _ => none
  | '\\' :: cs => closeMark (← readEscape cs).2
  | c :: rest => if c.toNat < 128 then closeMark rest else none
  | [] => none

/-! ### Names -/

/-- Whether a name with the mark `r#` may go on with the character. -/
def isMarkedRest (c : Char) : Bool := isIdentRest c || c == '.' || c == '+' || c == '-'

/-- Whether a text begins like a string and not like a name. -/
def beginsString : List Char → Bool
  | 'r' :: '"' :: _ => true
  | 'r' :: '#' :: '"' :: _ => true
  | 'r' :: '#' :: '#' :: _ => true
  | 'b' :: '"' :: _ => true
  | 'b' :: 'r' :: '"' :: _ => true
  | 'b' :: 'r' :: '#' :: _ => true
  | 'b' :: c :: _ => c.toNat = 39
  | _ => false

/-- A name, with the mark `r#` or without. Without it, no sign or point may follow. -/
def readName (cs : List Char) : Option (String × List Char) :=
  match cs with
  | 'r' :: '#' :: c :: rest =>
    if isMarkedRest c then
      let n := (c :: rest).takeWhile isMarkedRest
      some (String.ofList ('r' :: '#' :: n), (c :: rest).dropWhile isMarkedRest)
    else none
  | c :: _ =>
    if isIdentStart c then
      let rest := cs.dropWhile isIdentRest
      if rest.head?.any isMarkedRest then none
      else some (String.ofList (cs.takeWhile isIdentRest), rest)
    else none
  | [] => none

/-- A string of bytes or one byte, from behind its `b`. -/
def readBytes (cs : List Char) : Option (Value × List Char) :=
  match cs with
  | '"' :: cs => (readPieces (cs.length + 1) cs).map fun (_, rest) => (.other, rest)
  | 'r' :: cs => (readRaw cs).map fun (_, rest) => (.other, rest)
  | _ :: cs => readByte cs
  | [] => none

/-- Whether a text begins with a name and a colon behind it. -/
def beginsField (cs : List Char) : Bool :=
  if beginsString cs then false
  else
    match readName cs with
    | some (_, rest) =>
      match skip rest with
      | some (':' :: _) => true
      | _ => false
    | none => false

/-! ### Values -/

/-- Skips what is between two items: a comma, or nothing before the closing mark. -/
def readComma (close : Char) (cs : List Char) : Option (List Char) := do
  let cs ← skip cs
  match cs with
  | ',' :: rest => skip rest
  | c :: _ => if c = close then some cs else none
  | [] => none

mutual

/-- A value and the text behind it. -/
def readValue : (fuel : Nat) → List Char → Option (Value × List Char)
  | 0, _ => none
  | n + 1, cs =>
    match cs with
    | '"' :: rest => readQuoted rest
    | '[' :: rest => (readItems n ']' rest).map fun (vs, rest) => (.list vs, rest)
    | '\x7b' :: rest => (readEntries n rest).map fun (es, rest) => (.map es, rest)
    | '(' :: ')' :: rest => some (.unit, rest)
    | '(' :: rest => readGroup n none rest
    | c :: rest =>
      if c.toNat = 39 then readChar rest
      else if isDecimal c || c == '+' || c == '-' || c == '.' then
        let run := cs.takeWhile isNumeralRest
        if isNumeral run then some (.numeral run, cs.dropWhile isNumeralRest) else none
      else if beginsString cs then
        if c == 'r' then readRaw rest else readBytes rest
      else do
        let (name, rest) ← readName cs
        match skip rest with
        | some ('(' :: inner) => readGroup n (some name) inner
        | some rest => some (.name name, rest)
        | none => none
    | [] => none

/-- A group from behind its opening bracket: a record if it begins with a field. -/
def readGroup : (fuel : Nat) → Option String → List Char → Option (Value × List Char)
  | 0, _, _ => none
  | n + 1, head, cs => do
    let cs ← skip cs
    if beginsField cs then
      let (fields, rest) ← readFields n cs
      some (.record head fields, rest)
    else
      let (items, rest) ← readItems n ')' cs
      some (.tuple head items, rest)

/-- Items up to the closing mark. -/
def readItems : (fuel : Nat) → (close : Char) → List Char → Option (List Value × List Char)
  | 0, _, _ => none
  | n + 1, close, cs => do
    let cs ← skip cs
    if cs.head? = some close then some ([], cs.drop 1)
    else
      let (v, rest) ← readValue n cs
      let rest ← readComma close rest
      let (vs, rest) ← readItems n close rest
      some (v :: vs, rest)

/-- Fields up to the closing bracket. -/
def readFields : (fuel : Nat) → List Char → Option (List (String × Value) × List Char)
  | 0, _ => none
  | n + 1, cs => do
    let cs ← skip cs
    match cs with
    | ')' :: rest => some ([], rest)
    | _ =>
      if beginsField cs then
        let (name, rest) ← readName cs
        let rest ← skip rest
        let rest ← skip (rest.drop 1)
        let (v, rest) ← readValue n rest
        let rest ← readComma ')' rest
        let (fs, rest) ← readFields n rest
        some ((plain name, v) :: fs, rest)
      else none

/-- Entries of a map up to the closing brace. -/
def readEntries : (fuel : Nat) → List Char → Option (List (Value × Value) × List Char)
  | 0, _ => none
  | n + 1, cs => do
    let cs ← skip cs
    match cs with
    | '\x7d' :: rest => some ([], rest)
    | _ =>
      let (k, rest) ← readValue n cs
      match ← skip rest with
      | ':' :: rest =>
        let rest ← skip rest
        let (v, rest) ← readValue n rest
        let rest ← readComma '\x7d' rest
        let (es, rest) ← readEntries n rest
        some ((k, v) :: es, rest)
      | _ => none

end

/-- The value that is the whole of a text. -/
def read (text : String) : Option Value := do
  let cs ← skip text.toList
  let (v, rest) ← readValue (4 * (cs.length + 1)) cs
  let rest ← skip rest
  if rest.isEmpty then some v else none

end StatusEffects.Text.Record
