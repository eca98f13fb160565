import LongTermMemory.Ascending
import LongTermMemory.Text.Case

/-!
Texts as sequences of characters: trimming, runs of characters of a class, tokens, and the cut of
a long text at the end of a word.
-/

namespace LongTermMemory.Text

def trimStart (cs : List Char) : List Char := cs.dropWhile isBlank

def trimEnd (cs : List Char) : List Char := (cs.reverse.dropWhile isBlank).reverse

def trimChars (cs : List Char) : List Char := trimEnd (trimStart cs)

def trim (s : String) : String := String.ofList (trimChars s.toList)

/-- A text is blank when nothing is left of it after trimming. -/
def blank (s : String) : Bool := trim s == ""

/-- The run at the front, empty if none starts there, and the later maximal runs of characters
that satisfy `p`. -/
def splitRuns (p : Char → Bool) : List Char → List Char × List (List Char)
  | [] => ([], [])
  | c :: rest =>
    let (run, later) := splitRuns p rest
    if p c then (c :: run, later)
    else ([], if run.isEmpty then later else run :: later)

/-- The maximal runs of characters that satisfy `p`, in order. -/
def runs (p : Char → Bool) (cs : List Char) : List (List Char) :=
  let (run, later) := splitRuns p cs
  if run.isEmpty then later else run :: later

/-- Tokens are made of alphanumeric characters, underscores and hyphens. -/
def isTokenChar (c : Char) : Bool := isAlphanumeric c || c = '_' || c = '-'

def tokens (s : String) : List String :=
  (runs isTokenChar s.toList).map fun run => lowercase (String.ofList run)

def tokenSet (s : String) : List String := Ascending.ofList (tokens s)

/-- Whether `part` stands somewhere in a text. -/
def includes (part : List Char) : List Char → Bool
  | [] => part.isEmpty
  | c :: rest => part.isPrefixOf (c :: rest) || includes part rest

/-- The part of `cs` up to and including its last blank character. -/
def throughLastBlank (cs : List Char) : List Char :=
  (cs.reverse.dropWhile fun c => !isBlank c).reverse

/-- The trimmed text if it has at most `limit` characters, else its first `limit` characters, cut
back to the last blank among them if there is one. -/
def shorten (limit : Nat) (s : String) : String :=
  let cs := trimChars s.toList
  if cs.length ≤ limit then String.ofList cs
  else
    let front := cs.take limit
    let words := throughLastBlank front
    String.ofList (if words.isEmpty then front else trimEnd words)

end LongTermMemory.Text
