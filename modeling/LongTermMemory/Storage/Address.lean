import LongTermMemory.Document.Json
import LongTermMemory.Storage.Unusable

/-!
Where a store is. A path that begins with `file:` is a URI: an authority that names this host or
none, the path of the file, `?` and parameters, `#` and a fragment that nobody reads. In the path
and in the parameters a byte may be written as `%` and two hexadecimal digits.
-/

namespace LongTermMemory

structure Address where
  path : String
  parameters : List (String × String) := []
deriving DecidableEq

namespace Address

open Json (digitValue?)

def byte? (high low : Char) : Option Nat := do
  let h ← digitValue? high
  let l ← digitValue? low
  some (16 * h + l)

/-- The bytes that a part of a URI stands for. A zero byte ends them. -/
def unescape : List Char → List UInt8
  | [] => []
  | '%' :: high :: low :: rest =>
    match byte? high low with
    | some 0 => []
    | some n => UInt8.ofNat n :: unescape rest
    | none => String.utf8EncodeChar '%' ++ unescape (high :: low :: rest)
  | c :: rest => String.utf8EncodeChar c ++ unescape rest

/-- The text of bytes. Where they are no text, every byte that is not of ASCII is replaced. -/
def textOf (bytes : List UInt8) : String :=
  match String.fromUTF8? ⟨bytes.toArray⟩ with
  | some s => s
  | none => String.ofList (bytes.map fun b => if b < 128 then Char.ofNat b.toNat else '\ufffd')

/-- What stands before the first `mark`, and what after it. -/
def cut (mark : Char) (cs : List Char) : List Char × List Char :=
  (cs.takeWhile (· ≠ mark), (cs.dropWhile (· ≠ mark)).drop 1)

/-- A parameter must have a name, and its value may be missing. -/
def parameter? (part : String) : Option (String × String) :=
  let (name, value) := cut '=' part.toList
  match unescape name with
  | [] => none
  | name => some (textOf name, textOf (unescape value))

/-- The address that a URI gives after its scheme and its authority. -/
def ofReference (cs : List Char) : Address :=
  let (path, query) := cut '?' (cut '#' cs).1
  { path := textOf (unescape path)
    parameters := ((String.ofList query).splitOn "&").filterMap parameter? }

def localHost : String := "localhost"

/-- The address that a URI gives after its scheme. -/
def ofUri : List Char → Except Unusable Address
  | '/' :: '/' :: cs =>
    let authority := String.ofList (cs.takeWhile (· ≠ '/'))
    if authority = "" ∨ authority = localHost then .ok (ofReference (cs.dropWhile (· ≠ '/')))
    else .error (.authority authority)
  | cs => .ok (ofReference cs)

def scheme : List Char := "file:".toList

def ofPath (path : String) : Except Unusable Address :=
  let cs := path.toList
  let unbroken := cs.takeWhile (· ≠ '\x00')
  if unbroken.length < cs.length then .error (.broken (String.ofList unbroken).utf8ByteSize)
  else if scheme.isPrefixOf cs then ofUri (cs.drop scheme.length)
  else .ok { path }

/-- The path that stands for a store in memory. -/
def memory : String := ":memory:"

/-- The folder that a path leads into, none where it is the one at hand. -/
def folderOf? (path : String) : Option String :=
  let steps := (path.splitOn "/").filter fun step => step ≠ "" && step ≠ "."
  match steps.dropLast with
  | [] => if path.startsWith "/" then some "/" else none
  | steps =>
    let root := if path.startsWith "/" then "/" else ""
    some (root ++ String.intercalate "/" steps)

/-- The value of a parameter; of several with one name the first counts. -/
def value? (a : Address) (name : String) : Option String := a.parameters.lookup name

end Address

end LongTermMemory
