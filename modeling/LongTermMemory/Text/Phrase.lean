import LongTermMemory.Text.Words

/-!
Phrases looked for in texts: in any letter case, and only where a word boundary stands before and
after them. A boundary lies between a word character and a character of another kind, the ends of
the text counting as no word character.
-/

namespace LongTermMemory.Text

/-- Trimmed phrases in lower case, none of them empty. -/
structure PhraseSet where
  phrases : List String

/-- What follows `phrase` at the front of a text, and the last character of the text before it. -/
def afterPhrase? (last : Option Char) : List Char → List Char → Option (Option Char × List Char)
  | [], text => some (last, text)
  | p :: phrase, c :: text => if sameLetter p c then afterPhrase? (some c) phrase text else none
  | _ :: _, [] => none

def wordAt (c : Option Char) : Bool := c.any isWord

def isBoundary (before : Option Char) (after : List Char) : Bool :=
  wordAt before != wordAt after.head?

/-- Whether the phrase stands between boundaries at the front of `text`. -/
def standsAt (phrase : List Char) (before : Option Char) (text : List Char) : Bool :=
  isBoundary before text &&
    match afterPhrase? before phrase text with
    | some (last, rest) => isBoundary last rest
    | none => false

def occursFrom (phrase : List Char) (before : Option Char) : List Char → Bool
  | [] => standsAt phrase before []
  | c :: rest => standsAt phrase before (c :: rest) || occursFrom phrase (some c) rest

def occurs (phrase text : String) : Bool := occursFrom phrase.toList none text.toList

namespace PhraseSet

def ofList (phrases : List String) : PhraseSet :=
  ⟨(phrases.map fun p => lowercase (trim p)).filter (· ≠ "")⟩

def size (s : PhraseSet) : Nat := s.phrases.length

/-- The phrases found in `text`, in the order of the set. -/
def found (s : PhraseSet) (text : String) : List String := s.phrases.filter (occurs · text)

def any (s : PhraseSet) (text : String) : Bool := s.phrases.any (occurs · text)

theorem any_eq_found (s : PhraseSet) (text : String) : s.any text = !(s.found text).isEmpty := by
  cases h : s.any text <;> simp_all [any, found]

end PhraseSet

end LongTermMemory.Text
