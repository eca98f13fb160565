import LongTermMemory.Integer

/-!
Arguments of a command line: options with a long and perhaps a short name, and words that count by
their places. They are read from left to right, and reading ends at the first one that is refused.
-/

namespace LongTermMemory.CommandLine

/-- Why reading ends before the arguments do. -/
inductive Stop where
  | refused
  | help
  | version
deriving DecidableEq

/-- What may be given to an option or in a place. -/
inductive Kind where
  /-- Nothing: the option stands by itself. -/
  | flag
  /-- Nothing: the option ends the reading. -/
  | stop (reason : Stop)
  | text
  | integer (r : IntegerRange)

inductive Argument where
  | set
  | text (s : String)
  | integer (i : Int)
deriving DecidableEq

def digit? (c : Char) : Option Nat := if c.isDigit then some (c.toNat - '0'.toNat) else none

/-- Decimal digits, at least one. -/
def natural? (cs : List Char) : Option Nat :=
  if cs.isEmpty then none
  else (cs.mapM digit?).map fun ds => ds.foldl (fun n d => 10 * n + d) 0

/-- A minus is read only where negative numbers are. -/
def integer? (signed : Bool) (s : String) : Option Int :=
  match s.toList with
  | '+' :: cs => (natural? cs).map Int.ofNat
  | '-' :: cs => if signed then (natural? cs).map fun n => -(n : Int) else none
  | cs => (natural? cs).map Int.ofNat

def Kind.read? (k : Kind) (s : String) : Option Argument :=
  match k with
  | .flag => none
  | .stop _ => none
  | .text => some (.text s)
  | .integer r => ((integer? (r.low < 0) s).filter r.contains).map .integer

structure Choice where
  name : String
  short : Option Char := none
  kind : Kind := .text

/-- What may be given: options in any order and one word for each place. -/
structure Form where
  options : List Choice := []
  words : List Kind := []

structure Given where
  options : List (String × Argument) := []
  words : List Argument := []

namespace Given

def option? (g : Given) (name : String) : Option Argument := List.lookup name g.options

def text? (g : Given) (name : String) : Option String :=
  match g.option? name with
  | some (.text s) => some s
  | _ => none

def integer? (g : Given) (name : String) : Option Int :=
  match g.option? name with
  | some (.integer i) => some i
  | _ => none

def flag (g : Given) (name : String) : Bool := (g.option? name).isSome

def wordText? (g : Given) (place : Nat) : Option String :=
  match g.words[place]? with
  | some (.text s) => some s
  | _ => none

def wordInteger? (g : Given) (place : Nat) : Option Int :=
  match g.words[place]? with
  | some (.integer i) => some i
  | _ => none

end Given

/-- How an argument is written. A lone minus is a word. -/
inductive Shape where
  /-- Two minuses: only words follow. -/
  | escape
  | long (name : String) (value : Option String)
  | short (letter : Char) (value : Option String)
  | word
deriving DecidableEq

/-- The value after a short name; an equals sign before it is passed over. -/
def attached? (cs : List Char) : Option String :=
  match cs with
  | [] => none
  | '=' :: rest => some (String.ofList rest)
  | cs => some (String.ofList cs)

def Shape.of (s : String) : Shape :=
  match s.toList with
  | '-' :: '-' :: [] => .escape
  | '-' :: '-' :: cs =>
    let name := String.ofList (cs.takeWhile (· ≠ '='))
    match cs.dropWhile (· ≠ '=') with
    | [] => .long name none
    | _ :: value => .long name (some (String.ofList value))
  | '-' :: c :: cs => .short c (attached? cs)
  | _ => .word

/-- What was read so far, and the option that still waits for its value. -/
structure Reading where
  given : Given := {}
  waiting : Option Choice := none
  escaped : Bool := false

namespace Reading

/-- An option is given once. -/
def add (r : Reading) (name : String) (a : Argument) : Except Stop Reading :=
  if (r.given.option? name).isSome then .error .refused
  else .ok { r with given.options := (name, a) :: r.given.options, waiting := none }

def addValue (r : Reading) (o : Choice) (value : String) : Except Stop Reading :=
  match o.kind.read? value with
  | some a => r.add o.name a
  | none => .error .refused

def addOption (r : Reading) (o : Choice) (value : Option String) : Except Stop Reading :=
  match o.kind, value with
  | .stop reason, none => .error reason
  | .stop _, some _ => .error .refused
  | .flag, none => r.add o.name .set
  | .flag, some _ => .error .refused
  | _, none => .ok { r with waiting := some o }
  | _, some value => r.addValue o value

/-- After the letter of an option that ends the reading, nothing counts. -/
def addLetter (r : Reading) (o : Choice) (value : Option String) : Except Stop Reading :=
  match o.kind with
  | .stop reason => .error reason
  | _ => r.addOption o value

def addWord (r : Reading) (places : List Kind) (word : String) : Except Stop Reading :=
  match places[r.given.words.length]? >>= (·.read? word) with
  | some a => .ok { r with given.words := r.given.words ++ [a] }
  | none => .error .refused

/-- Whether the next argument may be a word for a place. -/
def free (r : Reading) : Bool := !r.escaped && r.waiting.isNone

def result (r : Reading) : Except Stop Given :=
  if r.waiting.isNone then .ok r.given else .error .refused

end Reading

namespace Form

def find (f : Form) (p : Choice → Bool) : Except Stop Choice :=
  match f.options.find? p with
  | some o => .ok o
  | none => .error .refused

/-- Reads one argument. The value of an option must not look like an option itself. -/
def step (f : Form) (r : Reading) (arg : String) : Except Stop Reading :=
  if r.escaped then r.addWord f.words arg
  else
    match r.waiting, Shape.of arg with
    | some o, .word => r.addValue o arg
    | some _, _ => .error .refused
    | none, .word => r.addWord f.words arg
    | none, .escape => .ok { r with escaped := true }
    | none, .long name value => do
      let o ← f.find (·.name == name)
      r.addOption o value
    | none, .short letter value => do
      let o ← f.find (·.short == some letter)
      r.addLetter o value

def read (f : Form) (args : List String) : Except Stop Given := do
  let r ← args.foldlM f.step {}
  r.result

/-- Reads up to the first word that `opens` a command; that word and what follows it is left. -/
def readTo (f : Form) (opens : String → Bool) (r : Reading) :
    List String → Except Stop (Given × List String)
  | [] => do
    let g ← r.result
    .ok (g, [])
  | arg :: rest =>
    if r.free && opens arg then .ok (r.given, arg :: rest)
    else do
      let r ← f.step r arg
      readTo f opens r rest

end Form

end LongTermMemory.CommandLine
