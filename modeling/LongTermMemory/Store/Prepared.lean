import LongTermMemory.Store.Query
import LongTermMemory.Store.Statement

/-!
The statements that are put together from a request, piece by piece: the query that lists memories
and the update of a memory. The values for the placeholders stand in a list beside the pieces, and
whatever they were meant for, each placeholder takes the next of them.
-/

namespace LongTermMemory

/-- A value for a placeholder. Times, ids, metadata and phrases stand for their texts. -/
inductive Bound where
  | int (i : Int)
  | real (x : Single)
  | text (t : String)
  | time (t : Instant)
  | ids (l : List MemoryId)
  | metadata (fields : List (String × Document))
  | phrases (words : List String)
  | null

namespace Prepared

/-- Deals values out to pieces, to each as many as it has places; the others are left. -/
def deal {κ : Type} (places : κ → Nat) : List κ → List Bound → List (κ × List Bound) × List Bound
  | [], values => ([], values)
  | piece :: rest, values =>
    let (dealt, left) := deal places rest (values.drop (places piece))
    ((piece, values.take (places piece)) :: dealt, left)

/-! ## Listing -/

inductive Condition where
  | owner
  | active
  /-- The content has one of some phrases, or a tag is one of so many names. -/
  | matching (names : Nat)
  /-- A tag is one of so many names. -/
  | tagged (names : Nat)
  | type
  | category
  | minImportance
  | afterId

namespace Condition

def places : Condition → Nat
  | .active => 0
  | .matching names => names + 1
  | .tagged names => names
  | .owner | .type | .category | .minImportance | .afterId => 1

/-- Whether a memory carries a tag that is one of some values. -/
def carries (m : Memory) (names : List Bound) : Bool :=
  names.any fun
    | .text name => m.tags.any fun t => Text.NoCase.same t name
    | _ => false

/-- Whether the content of a memory has one of some phrases. -/
def hasPhrase (e : Entry) (words : List String) : Bool :=
  words.any fun word =>
    let phrase := Text.Index.terms word
    !phrase.isEmpty && Text.Index.occursIn phrase e.terms

/-- Whether a memory satisfies a condition with its values. -/
def holds (e : Entry) : Condition × List Bound → Bool
  | (.owner, [.text name]) => e.memory.owner = name
  | (.active, []) => !e.memory.archived
  | (.matching _, .phrases words :: names) => hasPhrase e words || carries e.memory names
  | (.tagged _, names) => carries e.memory names
  | (.type, [.text name]) => e.memory.type.name = name
  | (.category, [.text name]) => e.memory.category = name
  | (.minImportance, [.int i]) => i ≤ e.memory.importance
  | (.afterId, [.int id]) => id < e.memory.id
  | _ => false

end Condition

/-- A query for all memories that satisfy some conditions. The last two values are for the limit and
the offset. -/
structure Query where
  conditions : List Condition := []
  values : List Bound := []
  sortBy : SortField := .default
  sortOrder : SortOrder := .default

namespace Query

/-- A query with one more condition. -/
def having (q : Query) (condition : Condition) (values : List Bound) : Query :=
  { q with conditions := q.conditions ++ [condition], values := q.values ++ values }

/-- A condition on a value that may be absent. -/
def havingSome {α : Type} (q : Query) (condition : Condition) (bind : α → List Bound) :
    Option α → Query
  | none => q
  | some a => q.having condition (bind a)

def havingActive (q : Query) (includeArchived : Bool) : Query :=
  if includeArchived then q else q.having .active []

def havingWords (q : Query) : Option (List String) → Query
  | none => q
  | some words => q.having (.matching words.length) (.phrases words :: words.map .text)

def havingTags (q : Query) : Option (List String) → Query
  | none | some [] => q
  | some tags => q.having (.tagged tags.length) (tags.map fun t => .text (normalizeTag t))

/-- The conditions of a selection, with the words of a search if it is one. -/
def conditionsOf (owner : String) (words : Option (List String)) (c : Selection) : Query :=
  let q : Query := {}
  let q := ((q.having .owner [.text owner]).havingActive c.includeArchived).havingWords words
  let q := (q.havingTags c.tags).havingSome .type (fun t => [.text t.name]) c.type
  let q := q.havingSome .category (fun name => [.text name]) c.category
  let q := q.havingSome .minImportance (fun i => [.int i]) c.minImportance
  q.havingSome .afterId (fun id => [.int id]) c.afterId

def ofSelection (owner : String) (words : Option (List String)) (c : Selection) : Query :=
  let q := conditionsOf owner words c
  let limit := c.limit.getD Selection.defaultLimit
  let offset := c.offset.getD 0
  { q with
    values := q.values ++ [.int limit, .int offset]
    sortBy := c.sortBy.getD .default
    sortOrder := c.sortOrder.getD .default }

/-- The rows that a query gives, none if it has more or fewer values than places. -/
def rows? (q : Query) (now : Instant) (s : Store) : Option (List Memory) :=
  match deal Condition.places q.conditions q.values with
  | (dealt, [.int limit, .int offset]) =>
    let found := s.entries.filter fun e => dealt.all (Condition.holds e)
    let sorted := (found.map (·.memory)).mergeSort (q.sortBy.atOrBefore q.sortOrder)
    let page : Selection := { limit := some limit, offset := some offset }
    some ((page.page sorted).map (·.readAt now))
  | _ => none

end Query

/-! ## Updating -/

/-- What is set of a memory, each with one place but the version, which is counted on. -/
inductive Column where
  | lastModified
  | version
  | content
  | digest
  | type
  | category
  | importance
  | dynamicImportance
  | confidence
  | metadata
  | related
  | archived
  | archiveReason

namespace Column

def places : Column → Nat
  | .version => 0
  | _ => 1

/-- Sets a column to its value. The index follows the content. -/
def set (e : Entry) : Column × List Bound → Entry
  | (.lastModified, [.time t]) => { e with memory := { e.memory with lastModified := t } }
  | (.version, []) => { e with memory := { e.memory with version := e.memory.version + 1 } }
  | (.content, [.text t]) =>
    { e with memory := { e.memory with content := t }, terms := Text.Index.terms t }
  | (.digest, [.text t]) => { e with digest := t }
  | (.type, [.text t]) =>
    { e with memory := { e.memory with type := (MemoryType.parse? t).getD .default } }
  | (.category, [.text t]) => { e with memory := { e.memory with category := t } }
  | (.importance, [.int i]) => { e with memory := { e.memory with importance := i } }
  | (.dynamicImportance, [.real x]) =>
    { e with memory := { e.memory with dynamicImportance := x.stored } }
  | (.confidence, [.real x]) => { e with memory := { e.memory with confidence := x.stored } }
  | (.metadata, [.metadata fields]) => { e with memory := { e.memory with metadata := fields } }
  | (.related, [.ids l]) => { e with memory := { e.memory with related := l } }
  | (.archived, [.int i]) => { e with memory := { e.memory with archived := i ≠ 0 } }
  | (.archiveReason, [.null]) => { e with memory := { e.memory with archiveReason := none } }
  | (.archiveReason, [.text t]) => { e with memory := { e.memory with archiveReason := some t } }
  | (_, _) => e

end Column

/-- An update of the memory with an id and a version, for which the last two values are. -/
structure Update where
  columns : List Column := []
  values : List Bound := []

namespace Update

/-- An update that sets some more columns, each to its values. -/
def setting (u : Update) (more : List (Column × List Bound)) : Update :=
  { columns := u.columns ++ more.map (·.1), values := u.values ++ more.flatMap (·.2) }

/-- An update that sets columns for a value that may be absent. -/
def settingSome {α : Type} (u : Update) (bind : α → List (Column × List Bound)) :
    Option α → Update
  | none => u
  | some a => u.setting (bind a)

def settingReason (u : Update) : ReasonChange → Update
  | .keep => u
  | .clear => u.setting [(.archiveReason, [.null])]
  | .set reason => u.setting [(.archiveReason, [.text reason])]

/-- The columns that changes set, those of tags aside, which are kept apart. -/
def columnsOf (now : Instant) (c : Changes) : Update :=
  let u : Update := {}
  let u := u.setting [(.lastModified, [.time now]), (.version, [])]
  let u := u.settingSome
    (fun t => [(.content, [.text t]), (.digest, [.text (Digest.ofContent t)])]) c.content
  let u := u.settingSome (fun t => [(.type, [.text t.name])]) c.type
  let u := u.settingSome (fun t => [(.category, [.text t])]) c.category
  let u := u.settingSome
    (fun i => [(.importance, [.int i]), (.dynamicImportance, [.real (Single.ofInt i)])])
    c.importance
  let u := u.settingSome (fun x => [(.confidence, [.real x])]) c.confidence
  let u := u.settingSome (fun fields => [(.metadata, [.metadata fields])]) c.metadata
  let u := u.settingSome (fun l => [(.related, [.ids (Ascending.ofList l)])]) c.related
  let u := u.settingSome (fun b => [(.archived, [.int (if b then 1 else 0)])]) c.archived
  u.settingReason c.archiveReason

def ofChanges (now : Instant) (id : MemoryId) (version : Int) (c : Changes) : Update :=
  let u := columnsOf now c
  { u with values := u.values ++ [.int id, .int version] }

/-- The statement, which says whether it has found the memory; none if there are more or fewer
values than places. The table checks a changed memory. -/
def statement? (u : Update) : Option (Statements Bool) :=
  match deal Column.places u.columns u.values with
  | (dealt, [.int id, .int version]) => some <| Statements.write fun s =>
    match s.entry? id with
    | some e =>
      if e.memory.version = version then do
        let changed := dealt.foldl Column.set e
        Store.requireConstraint (Store.importanceInRange changed.memory.importance)
          .importanceRange
        Store.requireConstraint changed.memory.confidence.inUnit .confidenceRange
        .ok (true, s.modify id fun e => dealt.foldl Column.set e)
      else .ok (false, s)
    | none => .ok (false, s)
  | _ => none

end Update

end Prepared

end LongTermMemory
