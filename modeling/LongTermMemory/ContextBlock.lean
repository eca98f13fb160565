import LongTermMemory.Memory.Group
import LongTermMemory.Relevance

/-!
The block of text that memories are given to an agent in. Each display group is a section of a
heading and items; `sections` gives them untruncated, `render` joins them, and `format` cuts the
text to a budget at the end of a sentence or else of a word.
-/

namespace LongTermMemory.ContextBlock

open LongTermMemory.Text (isBlank)

structure Section where
  heading : String
  items : List String

def separator : List Char := ['\n', '\n']

/-- What a section has before its first item. -/
def Section.lead (s : Section) : List Char := "**".toList ++ s.heading.toList ++ ":** ".toList

def Section.text (s : Section) : List Char :=
  s.lead ++ (String.intercalate "; " s.items).toList

/-- How many items of a group are shown. -/
def cap (c : ContextConfig) : DisplayGroup → Nat
  | .toolPreference => c.maxToolPreferences
  | .communicationStyle => c.maxCommunicationStyle
  | .type _ => c.maxItemsPerGroup

/-- The items of a group after one more content, which is trimmed: it is not shown if it is blank or
the group has no room. -/
def withItem (c : ContextConfig) (g : DisplayGroup) (items : List String) (content : String) :
    List String :=
  let item := Text.trim content
  if items.length < cap c g ∧ item ≠ "" then items ++ [item] else items

/-- The groups found so far, each with its items, after one more memory. A group that is new comes
last, whether or not it has an item. -/
def gather (c : ContextConfig) (m : Memory) :
    List (DisplayGroup × List String) → List (DisplayGroup × List String)
  | [] => [(DisplayGroup.ofMemory m, withItem c (DisplayGroup.ofMemory m) [] m.content)]
  | (g, items) :: rest =>
    if DisplayGroup.ofMemory m = g then (g, withItem c g items m.content) :: rest
    else (g, items) :: gather c m rest

/-- The sections of memories in rank order, filled in one pass; a group without items is left
out. -/
def sections (c : ContextConfig) (ranked : List Memory) : List Section :=
  ((ranked.foldl (fun groups m => gather c m groups) []).map fun (g, items) =>
    ⟨g.heading, items⟩).filter fun s => !s.items.isEmpty

def render (sections : List Section) : List Char :=
  separator.intercalate (sections.map Section.text)

/-- For each section from `start` on, where it starts and how many characters precede its items. -/
def spansFrom (start : Nat) : List Section → List (Nat × Nat)
  | [] => []
  | s :: rest =>
    (start, s.lead.length) :: spansFrom (start + s.text.length + separator.length) rest

/-- Whether the text ends at `k` or goes on with a blank. -/
def atBoundary (cs : List Char) (k : Nat) : Bool := (cs[k]?).elim true isBlank

def endsSentence (cs : List Char) (k : Nat) : Bool :=
  (cs[k - 1]?).any (fun c => c = '.' || c = '!' || c = '?') && atBoundary cs k

def endsWord (cs : List Char) (k : Nat) : Bool :=
  (cs[k - 1]?).any (fun c => !isBlank c) && atBoundary cs k

/-- The greatest position from `budget` down to 1 that satisfies `p`. -/
def lastBefore (p : Nat → Bool) : Nat → Option Nat
  | 0 => none
  | k + 1 => if p (k + 1) then some (k + 1) else lastBefore p k

/-- Takes back a cut that leaves nothing of a section but its lead; `spans` are those of the
sections from the last one on. -/
def withoutBareLead (cut : Nat) : List (Nat × Nat) → Nat
  | [] => cut
  | (start, lead) :: rest =>
    if cut ≤ start then withoutBareLead cut rest
    else if cut ≤ start + lead then withoutBareLead start rest
    else cut

/-- The end of the last sentence within the budget, else that of the last word. -/
def cutPoint (cs : List Char) (budget : Nat) : Option Nat :=
  (lastBefore (endsSentence cs) budget).orElse fun _ => lastBefore (endsWord cs) budget

def truncate (sections : List Section) (budget : Nat) : List Char :=
  let cs := render sections
  match cutPoint cs (min budget cs.length) with
  | none => []
  | some cut => Text.trimEnd (cs.take (withoutBareLead cut (spansFrom 0 sections).reverse))

/-- The memories by relevance to `query`, in at most `budget` characters. -/
def format (r : RetrievalConfig) (c : ContextConfig) (now : Instant) (memories : List Memory)
    (query : String) (budget : Nat) : String :=
  let ss := sections c ((r.rank now query memories).map (·.1))
  let cs := render ss
  String.ofList (if cs.length ≤ budget then cs else truncate ss budget)

end LongTermMemory.ContextBlock
