import LongTermMemory.Document.Json

/-!
TOML texts as documents. A text is read into a tree of tables that remembers how each table came
about, because a table may be opened only once; `Toml.parse?` gives the tree as a document. Dates
and times are read and checked, but not kept, for no setting is one.
-/

namespace LongTermMemory.Toml

open LongTermMemory.Json (isDigit digitValue? natOfDigits)

/-- How a table came about: by its own header, by the header of a table below it, or by a dotted
key. -/
inductive Origin where
  | header
  | passage
  | dotted
deriving DecidableEq

inductive Node where
  | value (d : Document)
  | table (origin : Origin) (fields : List (String × Node))
  | tables (items : List (List (String × Node)))
deriving Inhabited

abbrev Table := List (String × Node)

abbrev Rest := List Char

def isSpace (c : Char) : Bool := c = ' ' || c = '\t'

def skipSpace (cs : Rest) : Rest := cs.dropWhile isSpace

/-- Control characters other than the tab stand nowhere in a line. -/
def isControl (c : Char) : Bool := (c.toNat < 32 && c ≠ '\t') || c.toNat = 127

/-- A line ends with a line feed, which a carriage return may precede, or with the text. -/
def lineEnd? : Rest → Option Rest
  | [] => some []
  | '\n' :: rest => some rest
  | '\r' :: '\n' :: rest => some rest
  | _ => none

/-- The rest of a line that holds only blanks and a comment. -/
def trailing? (cs : Rest) : Option Rest :=
  match skipSpace cs with
  | '#' :: rest =>
    let comment := rest.takeWhile fun c => !isControl c
    lineEnd? (rest.drop comment.length)
  | rest => lineEnd? rest

/-- Blanks, line ends and comments between the items of a list. -/
def skipLines : Nat → Rest → Option Rest
  | 0, _ => none
  | fuel + 1, cs =>
    match skipSpace cs with
    | '#' :: rest =>
      let comment := rest.takeWhile fun c => !isControl c
      match rest.drop comment.length with
      | [] => some []
      | '\n' :: rest => skipLines fuel rest
      | '\r' :: '\n' :: rest => skipLines fuel rest
      | _ => none
    | '\n' :: rest => skipLines fuel rest
    | '\r' :: '\n' :: rest => skipLines fuel rest
    | rest => some rest

/-! ## Strings and keys -/

def hexDigits? (count : Nat) (cs : Rest) : Option (Nat × Rest) :=
  let ds := cs.take count
  if ds.length = count ∧ ds.all (fun c => (digitValue? c).isSome) then
    some (natOfDigits 16 ds, cs.drop count)
  else none

def scalar? (n : Nat) : Option Char := if n.isValidChar then some (Char.ofNat n) else none

/-- The character of an escape after its backslash. -/
def escape? : Rest → Option (Char × Rest)
  | 'b' :: r => some ('\x08', r)
  | 't' :: r => some ('\t', r)
  | 'n' :: r => some ('\n', r)
  | 'f' :: r => some ('\x0c', r)
  | 'r' :: r => some ('\r', r)
  | '"' :: r => some ('"', r)
  | '\\' :: r => some ('\\', r)
  | 'u' :: r => do
    let (n, r) ← hexDigits? 4 r
    (scalar? n).map fun c => (c, r)
  | 'U' :: r => do
    let (n, r) ← hexDigits? 8 r
    (scalar? n).map fun c => (c, r)
  | _ => none

/-- The rest of a string of one line, after the characters of `acc` in reverse. -/
def basicBody? : Nat → List Char → Rest → Option (String × Rest)
  | 0, _, _ => none
  | _ + 1, _, [] => none
  | _ + 1, acc, '"' :: r => some (String.ofList acc.reverse, r)
  | fuel + 1, acc, '\\' :: r =>
    match escape? r with
    | some (c, r) => basicBody? fuel (c :: acc) r
    | none => none
  | fuel + 1, acc, c :: r => if isControl c then none else basicBody? fuel (c :: acc) r

def literalBody? (cs : Rest) : Option (String × Rest) :=
  let body := cs.takeWhile fun c => c ≠ '\'' && !isControl c
  match cs.drop body.length with
  | '\'' :: r => some (String.ofList body, r)
  | _ => none

/-- A line end right after the opening quotes is no part of the string. -/
def dropFirstLineEnd : Rest → Rest
  | '\n' :: r => r
  | '\r' :: '\n' :: r => r
  | r => r

/-- Passes over spaces and line ends. -/
def skipBlankLines : Rest → Rest
  | '\r' :: '\n' :: r => skipBlankLines r
  | c :: r => if isSpace c || c = '\n' then skipBlankLines r else c :: r
  | [] => []

/-- After a backslash at the end of a line, what follows the blanks there. -/
def skipContinuation (cs : Rest) : Option Rest :=
  match skipSpace cs with
  | '\n' :: r => some (skipBlankLines r)
  | '\r' :: '\n' :: r => some (skipBlankLines r)
  | _ => none

/-- Three quotes end a string of several lines; one or two more right before them belong to it. -/
def closing? (quote : Char) (cs : Rest) : Option (List Char × Rest) :=
  let n := (cs.takeWhile (· = quote)).length
  if n < 3 ∨ 5 < n then none else some (List.replicate (n - 3) quote, cs.drop n)

def manyLinesBody? : Nat → List Char → Rest → Option (String × Rest)
  | 0, _, _ => none
  | _ + 1, _, [] => none
  | fuel + 1, acc, '"' :: r =>
    match r with
    | '"' :: '"' :: _ =>
      (closing? '"' ('"' :: r)).map fun (inner, r) => (String.ofList (acc.reverse ++ inner), r)
    | _ => manyLinesBody? fuel ('"' :: acc) r
  | fuel + 1, acc, '\\' :: r =>
    match escape? r with
    | some (c, r) => manyLinesBody? fuel (c :: acc) r
    | none =>
      match skipContinuation r with
      | some r => manyLinesBody? fuel acc r
      | none => none
  | fuel + 1, acc, '\r' :: '\n' :: r => manyLinesBody? fuel ('\n' :: acc) r
  | fuel + 1, acc, '\n' :: r => manyLinesBody? fuel ('\n' :: acc) r
  | fuel + 1, acc, c :: r => if isControl c then none else manyLinesBody? fuel (c :: acc) r

def manyLinesLiteral? : Nat → List Char → Rest → Option (String × Rest)
  | 0, _, _ => none
  | _ + 1, _, [] => none
  | fuel + 1, acc, '\'' :: r =>
    match r with
    | '\'' :: '\'' :: _ =>
      (closing? '\'' ('\'' :: r)).map fun (inner, r) => (String.ofList (acc.reverse ++ inner), r)
    | _ => manyLinesLiteral? fuel ('\'' :: acc) r
  | fuel + 1, acc, '\r' :: '\n' :: r => manyLinesLiteral? fuel ('\n' :: acc) r
  | fuel + 1, acc, '\n' :: r => manyLinesLiteral? fuel ('\n' :: acc) r
  | fuel + 1, acc, c :: r => if isControl c then none else manyLinesLiteral? fuel (c :: acc) r

def isBareKeyChar (c : Char) : Bool :=
  isDigit c || ('a' ≤ c && c ≤ 'z') || ('A' ≤ c && c ≤ 'Z') || c = '_' || c = '-'

def simpleKey? (cs : Rest) : Option (String × Rest) :=
  match cs with
  | '"' :: r => basicBody? (r.length + 1) [] r
  | '\'' :: r => literalBody? r
  | cs =>
    let key := cs.takeWhile isBareKeyChar
    if key.isEmpty then none else some (String.ofList key, cs.drop key.length)

/-- Lists and tables on one line open no more of each other than this, and no key has more parts. -/
def maxDepth : Nat := 79

/-- At most `count` parts of a key with dots between them. -/
def keyParts? : Nat → Rest → Option (List String × Rest)
  | 0, _ => none
  | count + 1, cs =>
    match simpleKey? (skipSpace cs) with
    | none => none
    | some (k, r) =>
      match skipSpace r with
      | '.' :: r => (keyParts? count r).map fun (ks, r) => (k :: ks, r)
      | r => some ([k], r)

def key? (cs : Rest) : Option (List String × Rest) := keyParts? maxDepth cs

/-! ## Numbers, dates and times -/

/-- Digits with single underscores between them; gives the digits. -/
def underscored? (isDigit : Char → Bool) : Nat → Rest → Option (List Char × Rest)
  | 0, _ => none
  | fuel + 1, c :: r =>
    if !isDigit c then none
    else
      match r with
      | '_' :: r' => (underscored? isDigit fuel r').map fun (ds, r) => (c :: ds, r)
      | d :: _ =>
        if isDigit d then (underscored? isDigit fuel r).map fun (ds, r) => (c :: ds, r)
        else some ([c], r)
      | [] => some ([c], [])
  | _ + 1, [] => none

def decimalDigits? (cs : Rest) : Option (List Char × Rest) :=
  underscored? isDigit (cs.length + 1) cs

def sign : Rest → Bool × Rest
  | '-' :: r => (true, r)
  | '+' :: r => (false, r)
  | r => (false, r)

def integerInRange? (i : Int) : Option Document :=
  if IntegerRange.int64.contains i then some (.integer i) else none

def isBaseDigit (base : Nat) (c : Char) : Bool := (digitValue? c).any fun n => n < base

def based? (base : Nat) (cs : Rest) : Option (Document × Rest) := do
  let (ds, r) ← underscored? (isBaseDigit base) (cs.length + 1) cs
  (integerInRange? (natOfDigits base ds)).map fun d => (d, r)

/-- A whole part without needless zeros in front. -/
def wholePart? (cs : Rest) : Option (List Char × Rest) := do
  let (ds, r) ← decimalDigits? cs
  if 1 < ds.length ∧ ds.head? = some '0' then none else some (ds, r)

def exponentPart? (cs : Rest) : Option (Int × Rest) := do
  let (negative, r) := sign cs
  let (ds, r) ← decimalDigits? r
  let n : Int := natOfDigits 10 ds
  some (if negative then -n else n, r)

def realOf? (d : Decimal) : Option Document :=
  match Single.ofDecimal? d with
  | some _ => some (.real (.decimal d))
  | none => if d.negative then some (.real (.infinite true)) else none

def special? (negative : Bool) : Rest → Option (Document × Rest)
  | 'i' :: 'n' :: 'f' :: r => some (.real (.infinite negative), r)
  | 'n' :: 'a' :: 'n' :: r => some (.real .nan, r)
  | _ => none

def number? (cs : Rest) : Option (Document × Rest) :=
  match cs with
  | '0' :: 'x' :: r => based? 16 r
  | '0' :: 'o' :: r => based? 8 r
  | '0' :: 'b' :: r => based? 2 r
  | _ =>
    let (negative, r) := sign cs
    match special? negative r with
    | some found => some found
    | none => do
      let (whole, r) ← wholePart? r
      let (fraction, r, hasFraction) ← match r with
        | '.' :: r => (decimalDigits? r).map fun (ds, r) => (ds, r, true)
        | r => some ([], r, false)
      let (exponent, r, hasExponent) ← match r with
        | 'e' :: r => (exponentPart? r).map fun (e, r) => (e, r, true)
        | 'E' :: r => (exponentPart? r).map fun (e, r) => (e, r, true)
        | r => some (0, r, false)
      if hasFraction || hasExponent then
        let n := natOfDigits 10 (whole ++ fraction)
        (realOf? ⟨negative, n, exponent - fraction.length⟩).map fun d => (d, r)
      else
        let n : Int := natOfDigits 10 whole
        (integerInRange? (if negative then -n else n)).map fun d => (d, r)

/-- A number of exactly `count` digits from `low` to `high`. -/
def field? (count low high : Nat) (cs : Rest) : Option (Nat × Rest) :=
  let ds := cs.take count
  if ds.length = count ∧ ds.all isDigit then
    let n := natOfDigits 10 ds
    if low ≤ n ∧ n ≤ high then some (n, cs.drop count) else none
  else none

def expect? (c : Char) : Rest → Option Rest
  | d :: r => if d = c then some r else none
  | [] => none

def daysInMonth (year month : Nat) : Nat :=
  if month = 2 then if (year % 4 = 0 ∧ year % 100 ≠ 0) ∨ year % 400 = 0 then 29 else 28
  else if month = 4 ∨ month = 6 ∨ month = 9 ∨ month = 11 then 30
  else 31

def date? (cs : Rest) : Option Rest := do
  let (year, r) ← field? 4 0 9999 cs
  let r ← expect? '-' r
  let (month, r) ← field? 2 1 12 r
  let r ← expect? '-' r
  let (_, r) ← field? 2 1 (daysInMonth year month) r
  some r

def time? (cs : Rest) : Option Rest := do
  let (_, r) ← field? 2 0 23 cs
  let r ← expect? ':' r
  let (_, r) ← field? 2 0 59 r
  let r ← expect? ':' r
  let (_, r) ← field? 2 0 60 r
  match r with
  | '.' :: r =>
    let ds := r.takeWhile isDigit
    if ds.isEmpty then none else some (r.drop ds.length)
  | r => some r

def offset? (cs : Rest) : Option Rest :=
  match cs with
  | 'Z' :: r => some r
  | 'z' :: r => some r
  | c :: r =>
    if c = '+' ∨ c = '-' then do
      let (_, r) ← field? 2 0 23 r
      let r ← expect? ':' r
      let (_, r) ← field? 2 0 59 r
      some r
    else some cs
  | [] => some []

/-- What a date or a time stands as: a record of a field that no setting has. -/
def moment : Document := .record [("moment", .null)]

/-- A date, a time of day, or both with or without an offset. -/
def moment? (cs : Rest) : Option (Document × Rest) :=
  match date? cs with
  | some r =>
    match r with
    | 'T' :: r' => (time? r' >>= offset?).map fun r => (moment, r)
    | 't' :: r' => (time? r' >>= offset?).map fun r => (moment, r)
    | ' ' :: r' =>
      match time? r' with
      | some r'' => (offset? r'').map fun r => (moment, r)
      | none => some (moment, r)
    | r => some (moment, r)
  | none => (time? cs).map fun r => (moment, r)

/-! ## Tables -/

mutual

def toDocument : Node → Document
  | .value d => d
  | .table _ fields => .record (toFields fields)
  | .tables items => .list (toItems items)

def toFields : List (String × Node) → List (String × Document)
  | [] => []
  | (k, n) :: rest => (k, toDocument n) :: toFields rest

def toItems : List (List (String × Node)) → List Document
  | [] => []
  | t :: rest => .record (toFields t) :: toItems rest

end

def find? (key : String) : Table → Option Node
  | [] => none
  | (k, n) :: rest => if k = key then some n else find? key rest

def put (key : String) (node : Node) : Table → Table
  | [] => [(key, node)]
  | (k, n) :: rest => if k = key then (k, node) :: rest else (k, n) :: put key node rest

/-- Changes the table at the end of a path of keys. A header passes through tables of every kind
and through the last table of an array; a dotted key only through tables without a header. -/
def modifyAt (byDots : Bool) (path : List String) (f : Table → Option Table) (t : Table) :
    Option Table :=
  match path with
  | [] => f t
  | key :: path =>
    match find? key t with
    | none => do
      let inner ← modifyAt byDots path f []
      some (put key (.table (if byDots then .dotted else .passage) inner) t)
    | some (.value _) => none
    | some (.table origin inner) =>
      if byDots ∧ origin = .header then none
      else do
        let inner ← modifyAt byDots path f inner
        some (put key (.table origin inner) t)
    | some (.tables items) =>
      match items.reverse with
      | [] => none
      | last :: before => do
        let last ← modifyAt byDots path f last
        some (put key (.tables (last :: before).reverse) t)

/-- The kind of table that a path leads to: a dotted key may add only to a table of dotted keys. -/
def originAt (path : List String) (t : Table) (here : Origin) : Origin :=
  match path with
  | [] => here
  | key :: path =>
    match find? key t with
    | some (.table origin inner) => originAt path inner origin
    | some (.tables items) => originAt path (items.getLast?.getD []) .header
    | _ => .dotted

def insertNew (key : String) (node : Node) (t : Table) : Option Table :=
  match find? key t with
  | none => some (put key node t)
  | some _ => none

/-- Adds one key and its value to the table of a header. -/
def addPair (path : List String) (d : Document) (t : Table) : Option Table :=
  match path.reverse with
  | [] => none
  | key :: front =>
    let front := front.reverse
    if !front.isEmpty && originAt front t .dotted ≠ .dotted then none
    else modifyAt true front (insertNew key (.value d)) t

/-- Opens the table of a header; a table that only led to others may be opened once. -/
def openTable (key : String) (t : Table) : Option Table :=
  match find? key t with
  | none => some (put key (.table .header []) t)
  | some (.table .passage inner) => some (put key (.table .header inner) t)
  | some _ => none

/-- Adds a table to an array of tables. -/
def openItem (key : String) (t : Table) : Option Table :=
  match find? key t with
  | none => some (put key (.tables [[]]) t)
  | some (.tables items) => some (put key (.tables (items ++ [[]])) t)
  | some _ => none

/-! ## Values -/

def string? (cs : Rest) : Option (Document × Rest) :=
  match cs with
  | '"' :: '"' :: '"' :: r =>
    (manyLinesBody? (r.length + 1) [] (dropFirstLineEnd r)).map fun (s, r) => (.text s, r)
  | '"' :: r => (basicBody? (r.length + 1) [] r).map fun (s, r) => (.text s, r)
  | '\'' :: '\'' :: '\'' :: r =>
    (manyLinesLiteral? (r.length + 1) [] (dropFirstLineEnd r)).map fun (s, r) => (.text s, r)
  | '\'' :: r => (literalBody? r).map fun (s, r) => (.text s, r)
  | _ => none

mutual

/-- A value, in which lists and tables may be opened `depth` deep. -/
def value? : Nat → Nat → Rest → Option (Document × Rest)
  | 0, _, _ => none
  | fuel + 1, depth, cs =>
    match cs with
    | '"' :: _ => string? cs
    | '\'' :: _ => string? cs
    | '[' :: r =>
      match depth with
      | 0 => none
      | depth + 1 => items? fuel depth [] r
    | '{' :: r =>
      match depth with
      | 0 => none
      | depth + 1 =>
        match skipSpace r with
        | '}' :: r => some (.record [], r)
        | r => pairs? fuel depth [] r
    | 't' :: 'r' :: 'u' :: 'e' :: r => some (.bool true, r)
    | 'f' :: 'a' :: 'l' :: 's' :: 'e' :: r => some (.bool false, r)
    | _ =>
      match moment? cs with
      | some found => some found
      | none => number? cs

/-- The rest of a list, after the items of `acc` in reverse; a comma may follow the last item. -/
def items? : Nat → Nat → List Document → Rest → Option (Document × Rest)
  | 0, _, _, _ => none
  | fuel + 1, depth, acc, cs =>
    match skipLines (cs.length + 1) cs with
    | none => none
    | some (']' :: r) => some (.list acc.reverse, r)
    | some r =>
      match value? fuel depth r with
      | none => none
      | some (d, r) =>
        match skipLines (r.length + 1) r with
        | some (',' :: r) => items? fuel depth (d :: acc) r
        | some (']' :: r) => some (.list (d :: acc).reverse, r)
        | _ => none

/-- The rest of a table on one line. -/
def pairs? : Nat → Nat → Table → Rest → Option (Document × Rest)
  | 0, _, _, _ => none
  | fuel + 1, depth, acc, cs =>
    match key? cs with
    | some (path, '=' :: r) =>
      match value? fuel depth (skipSpace r) with
      | none => none
      | some (d, r) =>
        match addPair path d acc with
        | none => none
        | some acc =>
          match skipSpace r with
          | ',' :: r => pairs? fuel depth acc r
          | '}' :: r => some (.record (toFields acc), r)
          | _ => none
    | _ => none

end

/-! ## Texts -/

/-- A table header between its brackets, and the rest of its line. -/
def header? (cs : Rest) : Option (List String × Bool × Rest) :=
  match cs with
  | '[' :: '[' :: r =>
    match key? r with
    | some (path, ']' :: ']' :: r) => (trailing? r).map fun r => (path, true, r)
    | _ => none
  | '[' :: r =>
    match key? r with
    | some (path, ']' :: r) => (trailing? r).map fun r => (path, false, r)
    | _ => none
  | _ => none

/-- Opens the table that a header names. -/
def enter (path : List String) (item : Bool) (root : Table) : Option Table :=
  match path.reverse with
  | [] => none
  | key :: front =>
    modifyAt false front.reverse (if item then openItem key else openTable key) root

/-- The lines of a text, the current table being the one at `path`. -/
def lines? : Nat → List String → Table → Rest → Option Table
  | 0, _, _, _ => none
  | fuel + 1, path, root, cs =>
    match skipSpace cs with
    | [] => some root
    | '[' :: r => do
      let (path, item, r) ← header? ('[' :: r)
      let root ← enter path item root
      lines? fuel path root r
    | c :: r =>
      if c = '#' ∨ c = '\n' ∨ c = '\r' then do
        let r ← trailing? (c :: r)
        lines? fuel path root r
      else
        match key? (c :: r) with
        | some (key, '=' :: r) => do
          let (d, r) ← value? (r.length + 1) maxDepth (skipSpace r)
          let r ← trailing? r
          let root ← modifyAt false path (addPair key d) root
          lines? fuel path root r
        | _ => none

def parse? (s : String) : Option Document :=
  let cs := s.toList
  let cs := if cs.head? = some '\ufeff' then cs.drop 1 else cs
  (lines? (cs.length + 1) [] [] cs).map fun root => .record (toFields root)

end LongTermMemory.Toml
