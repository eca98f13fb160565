import LongTermMemory.Document

/-!
Documents as JSON texts. `Json.parse?` reads one value and nothing after it; of the fields with one
name the last counts. `Json.compact` and `Json.pretty` write a document on one line and over
several.
-/

namespace LongTermMemory.Json

def isSpace (c : Char) : Bool := c = ' ' || c = '\t' || c = '\n' || c = '\r'

def skipSpace (cs : List Char) : List Char := cs.dropWhile isSpace

def digitValue? (c : Char) : Option Nat :=
  if '0' ≤ c ∧ c ≤ '9' then some (c.toNat - 48)
  else if 'a' ≤ c ∧ c ≤ 'f' then some (c.toNat - 87)
  else if 'A' ≤ c ∧ c ≤ 'F' then some (c.toNat - 55)
  else none

def isDigit (c : Char) : Bool := '0' ≤ c && c ≤ '9'

def natOfDigits (base : Nat) (cs : List Char) : Nat :=
  cs.foldl (fun n c => n * base + (digitValue? c).getD 0) 0

/-- Four hexadecimal digits at the front. -/
def hex4? : List Char → Option (Nat × List Char)
  | a :: b :: c :: d :: rest => do
    let a ← digitValue? a
    let b ← digitValue? b
    let c ← digitValue? c
    let d ← digitValue? d
    some (((a * 16 + b) * 16 + c) * 16 + d, rest)
  | _ => none

/-- A character beyond the basic plane is written as two halves. A half alone is refused. -/
def unicodeEscape? (cs : List Char) : Option (Char × List Char) := do
  let (n, rest) ← hex4? cs
  if 0xdc00 ≤ n ∧ n ≤ 0xdfff then none
  else if 0xd800 ≤ n ∧ n ≤ 0xdbff then
    match rest with
    | '\\' :: 'u' :: rest =>
      let (m, rest) ← hex4? rest
      if 0xdc00 ≤ m ∧ m ≤ 0xdfff then
        some (Char.ofNat (0x10000 + (n - 0xd800) * 0x400 + (m - 0xdc00)), rest)
      else none
    | _ => none
  else some (Char.ofNat n, rest)

def simpleEscape? (c : Char) : Option Char :=
  match c with
  | '"' => some '"'
  | '\\' => some '\\'
  | '/' => some '/'
  | 'b' => some '\x08'
  | 'f' => some '\x0c'
  | 'n' => some '\n'
  | 'r' => some '\r'
  | 't' => some '\t'
  | _ => none

/-- The characters of a string up to the closing quote, in reverse, and what follows it. -/
def stringBody? : Nat → List Char → List Char → Option (List Char × List Char)
  | 0, _, _ => none
  | _ + 1, _, [] => none
  | _ + 1, acc, '"' :: rest => some (acc, rest)
  | fuel + 1, acc, '\\' :: 'u' :: rest =>
    match unicodeEscape? rest with
    | some (c, rest) => stringBody? fuel (c :: acc) rest
    | none => none
  | fuel + 1, acc, '\\' :: e :: rest =>
    match simpleEscape? e with
    | some c => stringBody? fuel (c :: acc) rest
    | none => none
  | fuel + 1, acc, c :: rest => if c.toNat < 32 then none else stringBody? fuel (c :: acc) rest

def string? (cs : List Char) : Option (String × List Char) :=
  (stringBody? (cs.length + 1) [] cs).map fun (acc, rest) => (String.ofList acc.reverse, rest)

/-- Digits at the front, at least one. -/
def digits? (cs : List Char) : Option (List Char × List Char) :=
  match cs.takeWhile isDigit with
  | [] => none
  | ds => some (ds, cs.dropWhile isDigit)

def fraction? : List Char → Option (List Char × List Char)
  | '.' :: rest => digits? rest
  | rest => some ([], rest)

/-- The exponent, none of it when there is none, and whether there is one. -/
def exponent? : List Char → Option (Int × Bool × List Char)
  | c :: rest =>
    if c = 'e' ∨ c = 'E' then
      match rest with
      | '-' :: rest => (digits? rest).map fun (ds, r) => (-(natOfDigits 10 ds : Int), true, r)
      | '+' :: rest => (digits? rest).map fun (ds, r) => ((natOfDigits 10 ds : Int), true, r)
      | rest => (digits? rest).map fun (ds, r) => ((natOfDigits 10 ds : Int), true, r)
    else some (0, false, c :: rest)
  | [] => some (0, false, [])

/-- Integers of 64 bits are integers; all other numbers are real, and must be finite in double
precision. -/
def numberOf? (negative : Bool) (whole fraction : List Char) (exponent : Int)
    (plain : Bool) : Option Document :=
  let n := natOfDigits 10 whole
  if plain && !negative && IntegerRange.nat64.contains n then some (.integer n)
  else if plain && negative && n ≠ 0 && IntegerRange.int64.contains (-n) then some (.integer (-n))
  else
    let d : Decimal :=
      ⟨negative, natOfDigits 10 (whole ++ fraction), exponent - fraction.length⟩
    (Single.ofDecimal? d).map fun _ => .real (.decimal d)

def number? (cs : List Char) : Option (Document × List Char) := do
  let (negative, cs) := match cs with
    | '-' :: rest => (true, rest)
    | cs => (false, cs)
  let (whole, rest) ← digits? cs
  if 1 < whole.length ∧ whole.head? = some '0' then none
  else
    let (fraction, rest) ← fraction? rest
    let (exponent, hasExponent, rest) ← exponent? rest
    let d ← numberOf? negative whole fraction exponent (fraction.isEmpty && !hasExponent)
    some (d, rest)

def literal? (word : String) (value : Document) (cs : List Char) :
    Option (Document × List Char) :=
  if word.toList.isPrefixOf cs then some (value, cs.drop word.length) else none

/-- Values nest at most this deep. -/
def maxDepth : Nat := 127

mutual

/-- A value at the front of a text without leading blanks. -/
def value? : Nat → Nat → List Char → Option (Document × List Char)
  | 0, _, _ => none
  | fuel + 1, depth, cs =>
    match cs with
    | '"' :: rest => (string? rest).map fun (s, r) => (.text s, r)
    | '[' :: rest =>
      if depth = 0 then none
      else
        match skipSpace rest with
        | ']' :: rest => some (.list [], rest)
        | rest => items? fuel (depth - 1) [] rest
    | '{' :: rest =>
      if depth = 0 then none
      else
        match skipSpace rest with
        | '}' :: rest => some (.record [], rest)
        | rest => fields? fuel (depth - 1) [] rest
    | 'n' :: _ => literal? "null" .null cs
    | 't' :: _ => literal? "true" (.bool true) cs
    | 'f' :: _ => literal? "false" (.bool false) cs
    | _ => number? cs

/-- The items from here to the end of a list, after those of `acc` in reverse. -/
def items? : Nat → Nat → List Document → List Char → Option (Document × List Char)
  | 0, _, _, _ => none
  | fuel + 1, depth, acc, cs =>
    match value? fuel depth cs with
    | none => none
    | some (d, rest) =>
      match skipSpace rest with
      | ',' :: rest => items? fuel depth (d :: acc) (skipSpace rest)
      | ']' :: rest => some (.list (d :: acc).reverse, rest)
      | _ => none

/-- The fields from here to the end of a record, after those of `acc`. -/
def fields? : Nat → Nat → List (String × Document) → List Char → Option (Document × List Char)
  | 0, _, _, _ => none
  | fuel + 1, depth, acc, cs =>
    match cs with
    | '"' :: rest =>
      match string? rest with
      | none => none
      | some (name, rest) =>
        match skipSpace rest with
        | ':' :: rest =>
          match value? fuel depth (skipSpace rest) with
          | none => none
          | some (d, rest) =>
            match skipSpace rest with
            | ',' :: rest => fields? fuel depth (Document.put name d acc) (skipSpace rest)
            | '}' :: rest => some (.record (Document.put name d acc), rest)
            | _ => none
        | _ => none
    | _ => none

end

def parse? (s : String) : Option Document :=
  let cs := skipSpace s.toList
  match value? (cs.length + 1) maxDepth cs with
  | some (d, rest) => if (skipSpace rest).isEmpty then some d else none
  | none => none

def hexDigit (n : Nat) : Char := (Nat.toDigits 16 n).headD '0'

def escape (c : Char) : List Char :=
  match c with
  | '"' => ['\\', '"']
  | '\\' => ['\\', '\\']
  | '\x08' => ['\\', 'b']
  | '\x0c' => ['\\', 'f']
  | '\n' => ['\\', 'n']
  | '\r' => ['\\', 'r']
  | '\t' => ['\\', 't']
  | c =>
    if c.toNat < 32 then ['\\', 'u', '0', '0', hexDigit (c.toNat / 16), hexDigit (c.toNat % 16)]
    else [c]

def quote (s : String) : String := String.ofList ('"' :: s.toList.flatMap escape ++ ['"'])

def realText : Real → String
  | .decimal d => d.scientific
  | .infinite _ => "null"
  | .nan => "null"

mutual

def compact : Document → String
  | .null => "null"
  | .bool b => if b then "true" else "false"
  | .integer i => toString i
  | .real x => realText x
  | .text s => quote s
  | .list items => "[" ++ String.intercalate "," (compactItems items) ++ "]"
  | .record fields => "\x7b" ++ String.intercalate "," (compactFields fields) ++ "\x7d"

def compactItems : List Document → List String
  | [] => []
  | d :: rest => compact d :: compactItems rest

def compactFields : List (String × Document) → List String
  | [] => []
  | (n, d) :: rest => (quote n ++ ":" ++ compact d) :: compactFields rest

end

/-- The lines of a list or record between its brackets, each indented to `depth`. -/
def block (opening closing : String) (depth : Nat) (lines : List String) : String :=
  if lines.isEmpty then opening ++ closing
  else
    let indent (n : Nat) := String.ofList (List.replicate (2 * n) ' ')
    opening ++ "\n" ++ String.intercalate ",\n" (lines.map (indent (depth + 1) ++ ·)) ++
      "\n" ++ indent depth ++ closing

mutual

def prettyAt (depth : Nat) : Document → String
  | .list items => block "[" "]" depth (prettyItems (depth + 1) items)
  | .record fields => block "\x7b" "\x7d" depth (prettyFields (depth + 1) fields)
  | d => compact d

def prettyItems (depth : Nat) : List Document → List String
  | [] => []
  | d :: rest => prettyAt depth d :: prettyItems depth rest

def prettyFields (depth : Nat) : List (String × Document) → List String
  | [] => []
  | (n, d) :: rest => (quote n ++ ": " ++ prettyAt depth d) :: prettyFields depth rest

end

def pretty (d : Document) : String := prettyAt 0 d

end LongTermMemory.Json
