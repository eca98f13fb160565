import LongTermMemory.Classification

/-!
What one finished turn of a conversation teaches. Each detector looks at the turn and makes at most
one draft of a memory; a draft becomes a request once its category and tags are derived.
-/

namespace LongTermMemory

inductive Detector where
  | explicitRequest
  | preference
  | pattern
  | insight
deriving DecidableEq, Repr

namespace Detector

def name : Detector → String
  | .explicitRequest => "explicit_request"
  | .preference => "preference"
  | .pattern => "pattern"
  | .insight => "insight"

/-- The detectors that run, in their order. -/
def enabled (c : DetectorConfig) : List Detector :=
  [(c.explicitRequest, explicitRequest), (c.preference, preference), (c.pattern, pattern),
   (c.insight, insight)].filterMap fun (on, d) => if on then some d else none

end Detector

structure Draft where
  detector : Detector
  content : String
  type : MemoryType
  importance : Int
  confidence : Single
  sourceType : String
  tags : List String
  metadata : List (String × Document)

/-- Importance is kept in 32 bits and wraps around. -/
def wrapImportance (i : Int) : Int := IntegerRange.int32.wrap i

namespace LearningConfig

/-- One point more for every match after the first, up to the greatest learned importance. -/
def scaledImportance (c : LearningConfig) (matched : Nat) : Int :=
  min (wrapImportance (c.minLearnedImportance + (matched - 1 : Nat))) c.maxLearnedImportance

end LearningConfig

/-- The part of `total` that matched, at most one. -/
def matchedShare (matched total : Nat) : Single :=
  if total = 0 then Single.zero else (Single.ofQuotient false matched total).clampUnit

namespace Detector

/-- "Remember this": the user asks for the memory. -/
def explicitRequest? (c : LearningConfig) (i : Interaction) : Option Draft :=
  let found := (Text.PhraseSet.ofList c.explicitPhrases).found i.userInput
  if found.isEmpty then none
  else
    let urgent := (Text.PhraseSet.ofList c.urgencyWords).any i.userInput
    some
      { detector := .explicitRequest
        content := Text.shorten c.maxContentChars i.userInput
        type := .explicitRequest
        importance := if urgent then c.explicitUrgentImportance else c.explicitImportance
        confidence := c.explicitConfidence
        sourceType := "conversation"
        tags := []
        metadata := [("matched_phrases", Document.texts found)] }

/-- "I prefer": the user speaks of themselves. -/
def preference? (c : LearningConfig) (k : Classifier) (i : Interaction) : Option Draft :=
  let patterns := Text.PhraseSet.ofList c.personalPatterns
  let found := patterns.found i.userInput
  if found.isEmpty then none
  else
    let content := Text.shorten c.maxContentChars i.userInput
    some
      { detector := .preference
        content
        type := k.classifyType content
        importance := c.scaledImportance found.length
        confidence := matchedShare found.length patterns.size
        sourceType := "conversation"
        tags := []
        metadata := [("matched_patterns", Document.texts found)] }

/-- What a successful call of a tool is remembered as. -/
def usage (tool output : String) : String :=
  if tool = "" then "Tool call succeeded: " ++ output
  else if output = "" then "Used " ++ tool ++ " successfully"
  else "Used " ++ tool ++ " successfully: " ++ output

/-- A tool call succeeded. A named tool and an output that is not blank count as matches. -/
def pattern? (c : LearningConfig) (i : Interaction) : Option Draft :=
  match i.toolResult with
  | none => none
  | some outcome =>
    if (Text.PhraseSet.ofList c.errorMarkers).any outcome.output then none
    else
      let tool := Text.trim outcome.tool
      let output := Text.trim outcome.output
      let matched := 1 + (if tool = "" then 0 else 1) + (if output = "" then 0 else 1)
      some
        { detector := .pattern
          content := Text.shorten c.maxContentChars (usage tool output)
          type := .pattern
          importance := c.scaledImportance matched
          confidence := matchedShare matched 3
          sourceType := "tool"
          tags := ["tool"]
          metadata := if tool = "" then [] else [("tool", .text tool)] }

/-- "I learned": the agent's response marks a moment of learning. -/
def insight? (c : LearningConfig) (i : Interaction) : Option Draft :=
  let phrases := Text.PhraseSet.ofList c.learningPhrases
  let found := phrases.found i.agentResponse
  if found.isEmpty then none
  else
    some
      { detector := .insight
        content := Text.shorten c.maxContentChars i.agentResponse
        type := .insight
        importance := c.scaledImportance found.length
        confidence := matchedShare found.length phrases.size
        sourceType := "conversation"
        tags := []
        metadata := [("matched_phrases", Document.texts found)] }

def detect? (c : LearningConfig) (k : Classifier) (i : Interaction) : Detector → Option Draft
  | .explicitRequest => explicitRequest? c i
  | .preference => preference? c k i
  | .pattern => pattern? c i
  | .insight => insight? c i

end Detector

/-- Adds the drafts of further detectors to those made so far. Once the user has asked for a memory
their statement about themselves makes none; a draft without content counts for nothing, and of
drafts with one content the first is kept. -/
def collectDrafts (detect? : Detector → Option Draft) :
    List Detector → Bool → List Draft → List Draft
  | [], _, drafts => drafts
  | d :: rest, asked, drafts =>
    if asked && d = .preference then collectDrafts detect? rest asked drafts
    else
      match detect? d with
      | none => collectDrafts detect? rest asked drafts
      | some draft =>
        if draft.content = "" then collectDrafts detect? rest asked drafts
        else
          let known := drafts.any fun e => e.content = draft.content
          collectDrafts detect? rest (asked || d = .explicitRequest)
            (if known then drafts else drafts ++ [draft])

/-- The drafts of one turn. -/
def draftsOf (c : LearningConfig) (k : Classifier) (i : Interaction) : List Draft :=
  collectDrafts (Detector.detect? c k i) (Detector.enabled c.detectors) false []

/-- The request that a draft becomes, with the tags that came with the turn. -/
def Draft.toRequest (d : Draft) (owner : String) (given : List String) (v : Vocabulary) :
    NewMemory :=
  let category := Classifier.classifyCategory d.content
  { owner
    content := d.content
    tags := Classifier.extractTags d.content (given ++ d.tags) d.type category v
    type := some d.type
    category := some category
    importance := d.importance
    confidence := d.confidence
    sourceType := some d.sourceType
    createdBy := some systemActor
    metadata := Document.put "detector" (.text d.detector.name) d.metadata }

end LongTermMemory
