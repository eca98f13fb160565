/-!
Suffix stripping of English words, on the bytes of a word that is already in lower case. A word of
fewer than 3 or more than 64 bytes is left alone. Bytes beyond ASCII count as consonants.
-/

namespace LongTermMemory.Text.Stem

abbrev Word := List UInt8

/-- The letters `a`, `e`, `i`, `o`, `u`; the letter `y` is a vowel only where asked for. -/
def isVowel (c : UInt8) (yIsVowel : Bool) : Bool :=
  c == 97 || c == 101 || c == 105 || c == 111 || c == 117 || (yIsVowel && c == 121)

/-- For each letter whether it is a consonant. The letter `y` is one at the start of a word and
after a vowel. -/
def consonants : Bool → Word → List Bool
  | _, [] => []
  | afterConsonant, c :: rest =>
    let consonant := !isVowel c afterConsonant
    consonant :: consonants consonant rest

/-- The number of times a consonant follows a vowel. -/
def turns : List Bool → Nat
  | false :: true :: rest => turns (true :: rest) + 1
  | _ :: rest => turns rest
  | [] => 0

/-- The measure of a word: its number of vowel-consonant sequences. -/
def measure (w : Word) : Nat := turns (consonants false w)

def hasVowel : Word → Bool
  | [] => false
  | c :: rest => isVowel c false || rest.any fun d => isVowel d true

/-- Whether the word ends in consonant, vowel, consonant, the last of them none of `w`, `x`, `y`. -/
def endsShort (w : Word) : Bool :=
  match w.reverse with
  | [] => false
  | c :: _ =>
    !(c == 119 || c == 120 || c == 121) &&
      match (consonants false w).reverse with
      | true :: false :: true :: _ => true
      | _ => false

/-- What precedes a suffix, if the word is longer than the suffix and ends in it. -/
def stripSuffix? (suffix w : Word) : Option Word :=
  if suffix.length < w.length ∧ suffix.isSuffixOf w then some (w.take (w.length - suffix.length))
  else none

/-- A suffix, what replaces it, and when it may be replaced. -/
structure Rule where
  suffix : String
  replacement : String
  condition : Word → Bool

def bytes (s : String) : Word := s.toUTF8.toList

/-- The first rule whose suffix ends the word decides, whether or not its condition holds. -/
def replaceEnding : List Rule → Word → Word
  | [], w => w
  | r :: rest, w =>
    match stripSuffix? (bytes r.suffix) w with
    | none => replaceEnding rest w
    | some s => if r.condition s then s ++ bytes r.replacement else w

def positive (w : Word) : Bool := measure w > 0

def long (w : Word) : Bool := measure w > 1

/-- Plurals. -/
def plurals (w : Word) : Word :=
  match w.reverse with
  | 115 :: 101 :: r =>
    match r with
    | 115 :: 115 :: _ :: _ => w.take (w.length - 2)
    | 105 :: _ :: _ => w.take (w.length - 2)
    | _ => w.take (w.length - 1)
  | 115 :: c :: _ => if c == 115 then w else w.take (w.length - 1)
  | _ => w

/-- A word that lost `ed` or `ing` gets back the ending that its stem needs. -/
def mend (w : Word) : Word :=
  match [("at", "ate"), ("bl", "ble"), ("iz", "ize")].findSome? fun (s, t) =>
      (stripSuffix? (bytes s) w).map (· ++ bytes t) with
  | some w' => w'
  | none =>
    match w.reverse with
    | c :: d :: _ =>
      if !isVowel c false && !(c == 108 || c == 115 || c == 122) && c == d then
        w.take (w.length - 1)
      else if measure w = 1 && endsShort w then w ++ [101]
      else w
    | _ => if measure w = 1 && endsShort w then w ++ [101] else w

/-- Past tense and present participle. -/
def tenses (w : Word) : Word :=
  match stripSuffix? (bytes "eed") w with
  | some s => if positive s then s ++ bytes "ee" else w
  | none =>
    match (stripSuffix? (bytes "ed") w).orElse fun _ => stripSuffix? (bytes "ing") w with
    | some s => if hasVowel s then mend s else w
    | none => w

/-- A final `y` after a stem with a vowel becomes `i`. -/
def finalY (w : Word) : Word :=
  match stripSuffix? [121] w with
  | some s => if hasVowel s then s ++ [105] else w
  | none => w

def doubleSuffixes : List Rule :=
  [("ational", "ate"), ("tional", "tion"), ("enci", "ence"), ("anci", "ance"), ("izer", "ize"),
   ("logi", "log"), ("bli", "ble"), ("alli", "al"), ("entli", "ent"), ("eli", "e"),
   ("ousli", "ous"), ("ization", "ize"), ("ation", "ate"), ("ator", "ate"), ("alism", "al"),
   ("iveness", "ive"), ("fulness", "ful"), ("ousness", "ous"), ("aliti", "al"), ("iviti", "ive"),
   ("biliti", "ble")].map fun (s, t) => ⟨s, t, positive⟩

def derivedSuffixes : List Rule :=
  [("ical", "ic"), ("ness", ""), ("icate", "ic"), ("iciti", "ic"), ("ful", ""), ("ative", ""),
   ("alize", "al")].map fun (s, t) => ⟨s, t, positive⟩

/-- The suffix `ion` is dropped only after `s` or `t`. -/
def plainSuffixes : List Rule :=
  ["al", "ance", "ence", "er", "ic", "able", "ible", "ant", "ement", "ment", "ent"].map
      (fun s => ⟨s, "", long⟩) ++
  [⟨"ion", "", fun s => (s.getLast? == some 115 || s.getLast? == some 116) && long s⟩] ++
  ["ou", "ism", "ate", "iti", "ous", "ive", "ize"].map fun s => ⟨s, "", long⟩

/-- A final `e` goes after a long stem, and after a short one unless it ends short. -/
def finalE (w : Word) : Word :=
  match w.reverse with
  | 101 :: _ =>
    let s := w.take (w.length - 1)
    if long s || (measure s = 1 && !endsShort s) then s else w
  | _ => w

/-- Of a final double `l` one goes after a long stem. -/
def finalL (w : Word) : Word :=
  match w.reverse with
  | 108 :: 108 :: _ =>
    let s := w.take (w.length - 1)
    if long s then s else w
  | _ => w

def stem (w : Word) : Word :=
  if w.length < 3 || w.length > 64 then w
  else
    let inner := finalY (tenses (plurals w))
    finalL (finalE
      (replaceEnding plainSuffixes (replaceEnding derivedSuffixes
        (replaceEnding doubleSuffixes inner))))

end LongTermMemory.Text.Stem
