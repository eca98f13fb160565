import LongTermMemory.Integer
import LongTermMemory.Single

/-!
Documents: the values that requests and configurations are read from and answers are written to.
A record read from a document finds its fields by name, or by place when it is written as a list.
-/

namespace LongTermMemory

/-- A number that is not written as an integer. -/
inductive Real where
  | decimal (d : Decimal)
  | infinite (negative : Bool)
  | nan
deriving DecidableEq, Repr

def Real.toSingle : Real → Single
  | .decimal d => (Single.ofDecimal? d).getD (Single.infinity d.negative)
  | .infinite negative => Single.infinity negative
  | .nan => Single.nan

inductive Document where
  | null
  | bool (b : Bool)
  | integer (i : Int)
  | real (x : Real)
  | text (s : String)
  | list (items : List Document)
  | record (fields : List (String × Document))
deriving Repr, Inhabited

/-- How a document was written. -/
inductive Format where
  | json
  | toml
deriving DecidableEq, Repr

namespace Document

/-- A later value under the same name takes the place of the earlier one. -/
def put (name : String) (value : Document) :
    List (String × Document) → List (String × Document)
  | [] => [(name, value)]
  | (n, v) :: rest => if n = name then (n, value) :: rest else (n, v) :: put name value rest

def lookup (name : String) : List (String × Document) → Option Document
  | [] => none
  | (n, v) :: rest => if n = name then some v else lookup name rest

def isNull : Document → Bool
  | .null => true
  | _ => false

def texts (l : List String) : Document := .list (l.map .text)

def integers (l : List Int) : Document := .list (l.map .integer)

/-- The shortest decimal, the even one of two. -/
def ofSingle (x : Single) : Document :=
  match x.toDecimalIn? .even .single with
  | some d => .real (.decimal d)
  | none => .null

/-- As `ofSingle`, with the digits that double precision needs. -/
def ofWidened (x : Single) : Document :=
  match x.toDecimalIn? .even .double with
  | some d => .real (.decimal d)
  | none => .null

def ofOption {α : Type} (f : α → Document) : Option α → Document
  | none => .null
  | some a => f a

def asText? : Document → Option String
  | .text s => some s
  | _ => none

def asBool? : Document → Option Bool
  | .bool b => some b
  | _ => none

def asIntegerIn? (r : IntegerRange) : Document → Option Int
  | .integer i => if r.contains i then some i else none
  | _ => none

def asInt32? : Document → Option Int := asIntegerIn? .int32

def asInt64? : Document → Option Int := asIntegerIn? .int64

def asNat64? (d : Document) : Option Nat := (asIntegerIn? .nat64 d).map Int.toNat

def asSingle? : Document → Option Single
  | .integer i => some (Single.ofInt i)
  | .real x => some x.toSingle
  | _ => none

def asList? {α : Type} (f : Document → Option α) : Document → Option (List α)
  | .list items => items.mapM f
  | _ => none

/-- An open record: its fields as they are. -/
def asRecord? : Document → Option (List (String × Document))
  | .record fields => some fields
  | _ => none

/-- The fields of a record, by name or by place. -/
inductive Fields where
  | named (fields : List (String × Document))
  | placed (items : List Document)

/-- A list stands for a record. It has no more items than the record has fields; in TOML the items
beyond them are passed over. -/
def asFieldsIn? (f : Format) (count : Nat) : Document → Option Fields
  | .record fields => some (.named fields)
  | .list items => if f = .toml ∨ items.length ≤ count then some (.placed items) else none
  | _ => none

def asFields? (count : Nat) (d : Document) : Option Fields := asFieldsIn? .json count d

/-- Whether a document stands for a name without a value: a null, or in TOML an empty list or
record. -/
def isBareIn (f : Format) : Document → Bool
  | .null => f = .json
  | .list items => f = .toml && items.isEmpty
  | .record fields => f = .toml && fields.isEmpty
  | _ => false

/-- A name from a closed list: a text, or a record of that one name without a value. -/
def asNameIn? (f : Format) : Document → Option String
  | .text s => some s
  | .record [(s, d)] => if isBareIn f d then some s else none
  | _ => none

def asName? (d : Document) : Option String := asNameIn? .json d

namespace Fields

/-- What the fields say under `names` or at `place`: nothing when the field is given twice. -/
def find? (f : Fields) (place : Nat) (names : List String) : Option (Option Document) :=
  match f with
  | .named fields =>
    match names.filterMap fun n => lookup n fields with
    | [] => some none
    | [d] => some (some d)
    | _ => none
  | .placed items => some items[place]?

def required {α : Type} (f : Fields) (place : Nat) (names : List String)
    (read : Document → Option α) : Option α :=
  match f.find? place names with
  | some (some d) => read d
  | _ => none

/-- The field may be absent, but a null is no value of it. -/
def withDefault {α : Type} (f : Fields) (place : Nat) (names : List String) (default : α)
    (read : Document → Option α) : Option α :=
  match f.find? place names with
  | none => none
  | some none => some default
  | some (some d) => read d

/-- The field may be absent or null. -/
def orAbsent {α : Type} (f : Fields) (place : Nat) (names : List String)
    (read : Document → Option α) : Option (Option α) :=
  f.withDefault place names none fun d => if d.isNull then some none else (read d).map some

/-- The field may be null, and absent where the fields are named. -/
def optional {α : Type} (f : Fields) (place : Nat) (names : List String)
    (read : Document → Option α) : Option (Option α) :=
  match f with
  | .placed items => if place < items.length then f.orAbsent place names read else none
  | .named _ => f.orAbsent place names read

end Fields

end Document

end LongTermMemory
