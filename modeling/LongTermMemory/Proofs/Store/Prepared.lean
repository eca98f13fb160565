import LongTermMemory.Proofs.Store.Sound
import LongTermMemory.Store.Prepared
import Mathlib.Tactic.IntervalCases

/-!
What statements put together from a request do. Each piece came with as many values as it has
places, so that dealing the values out gives every piece its own ones, in whichever combination the
pieces stand. The query of a selection therefore gives the rows that the store selects, and the
update of some changes sets what they name.
-/

namespace LongTermMemory

namespace MemoryType

theorem parse?_name (t : MemoryType) : parse? t.name = some t := by
  cases t <;> decide

end MemoryType

theorem Single.stored_ofInt {i : Int} (h : Store.importanceInRange i = true) :
    (ofInt i).stored = ofInt i := by
  obtain ⟨hlow, hhigh⟩ : 1 ≤ i ∧ i ≤ 10 := of_decide_eq_true h
  interval_cases i <;> decide

namespace Prepared

/-! ## Dealing out -/

section

variable {κ : Type} {places : κ → Nat} {pieces : List κ} {values : List Bound}
  {parts : List (κ × List Bound)}

/-- Pieces and values that were put side by side, each piece with as many values as it has
places. -/
structure Made (places : κ → Nat) (pieces : List κ) (values : List Bound)
    (parts : List (κ × List Bound)) : Prop where
  pieces : pieces = parts.map (·.1)
  values : values = parts.flatMap (·.2)
  places : ∀ part ∈ parts, part.2.length = places part.1

theorem Made.nil : Made places [] [] [] := ⟨rfl, rfl, by simp⟩

theorem Made.append (h : Made places pieces values parts) (more : List (κ × List Bound))
    (hmore : ∀ part ∈ more, part.2.length = places part.1) :
    Made places (pieces ++ more.map (·.1)) (values ++ more.flatMap (·.2)) (parts ++ more) := by
  refine ⟨by rw [h.pieces, List.map_append], by rw [h.values, List.flatMap_append], ?_⟩
  intro part hpart
  exact (List.mem_append.mp hpart).elim (h.places part) (hmore part)

theorem Made.add (h : Made places pieces values parts) (piece : κ) {more : List Bound}
    (hmore : more.length = places piece) :
    Made places (pieces ++ [piece]) (values ++ more) (parts ++ [(piece, more)]) := by
  have happend := h.append [(piece, more)] (by simpa using hmore)
  simpa using happend

/-- Every piece gets the values that came with it, and what was added after all is left. -/
theorem deal_of_places (parts : List (κ × List Bound))
    (h : ∀ part ∈ parts, part.2.length = places part.1) (last : List Bound) :
    deal places (parts.map (·.1)) (parts.flatMap (·.2) ++ last) = (parts, last) := by
  induction parts with
  | nil => simp [deal]
  | cons part parts ih =>
    have hrest := ih fun part hpart => h part (List.mem_cons_of_mem _ hpart)
    have hlength := h part List.mem_cons_self
    simp only [List.map_cons, List.flatMap_cons, List.append_assoc, deal]
    rw [List.take_left' hlength, List.drop_left' hlength, hrest]

theorem Made.deal (h : Made places pieces values parts) (last : List Bound) :
    Prepared.deal places pieces (values ++ last) = (parts, last) := by
  rw [h.pieces, h.values]
  exact deal_of_places parts h.places last

end

/-! ## Listing -/

namespace Query

variable {q : Query} {admitted : Entry → Bool}

/-- The conditions of a query, each with its own values, admit just some entries. -/
def Admits (q : Query) (admitted : Entry → Bool) : Prop :=
  ∃ parts, Made Condition.places q.conditions q.values parts ∧
    ∀ e, parts.all (Condition.holds e) = admitted e

theorem Admits.congr (h : q.Admits admitted) {admitted' : Entry → Bool}
    (heq : ∀ e, admitted e = admitted' e) : q.Admits admitted' := by
  rwa [← funext heq]

theorem Admits.having (h : q.Admits admitted) (condition : Condition) (values : List Bound)
    (hvalues : values.length = condition.places) :
    (q.having condition values).Admits
      fun e => admitted e && Condition.holds e (condition, values) := by
  obtain ⟨parts, hmade, hall⟩ := h
  exact ⟨_, hmade.add condition hvalues, fun e => by simp [hall]⟩

theorem Admits.havingSome (h : q.Admits admitted) {α : Type} (condition : Condition)
    (bind : α → List Bound) (hvalues : ∀ a, (bind a).length = condition.places) (o : Option α) :
    (q.havingSome condition bind o).Admits
      fun e => admitted e && o.all fun a => Condition.holds e (condition, bind a) := by
  cases o with
  | none => simpa [Query.havingSome] using h
  | some a => exact h.having condition (bind a) (hvalues a)

theorem carries_texts (m : Memory) (names : List String) :
    Condition.carries m (names.map .text) = Selection.carries m names := by
  simp only [Condition.carries, Selection.carries, List.any_map, Function.comp_def]
  rw [Bool.eq_iff_iff]
  simp only [List.any_eq_true]
  exact ⟨fun ⟨name, hname, t, ht, hsame⟩ => ⟨t, ht, name, hname, hsame⟩,
    fun ⟨t, ht, name, hname, hsame⟩ => ⟨name, hname, t, ht, hsame⟩⟩

theorem Admits.havingTags (h : q.Admits admitted) (c : Selection) :
    (q.havingTags c.tags).Admits fun e => admitted e && c.matchesTags e.memory := by
  unfold Selection.matchesTags
  cases c.tags with
  | none => simpa [Query.havingTags] using h
  | some tags =>
    cases tags with
    | nil => simpa [Query.havingTags] using h
    | cons tag tags =>
      have hvalues : (tag :: tags).map (fun t => Bound.text (normalizeTag t)) =
          ((tag :: tags).map normalizeTag).map .text := by
        rw [List.map_map]
        rfl
      have hholds (e : Entry) : Condition.holds e (.tagged (tag :: tags).length,
          (tag :: tags).map fun t => .text (normalizeTag t)) =
            Selection.carries e.memory ((tag :: tags).map normalizeTag) := by
        rw [hvalues, ← carries_texts]
        rfl
      have hlength : ((tag :: tags).map fun t => Bound.text (normalizeTag t)).length =
          (Condition.tagged (tag :: tags).length).places := List.length_map _
      have hadmits := h.having _ _ hlength
      simp only [hholds] at hadmits
      exact hadmits

/-- A memory matches a search where it has a phrase or carries a tag of it. -/
theorem holds_matching (e : Entry) (words : List String) :
    Condition.holds e (.matching words.length, .phrases words :: words.map .text) =
      words.any (Store.matchesWord · e) := by
  have hholds : Condition.holds e (.matching words.length, .phrases words :: words.map .text) =
      (Condition.hasPhrase e words || Condition.carries e.memory (words.map .text)) := rfl
  rw [hholds, Condition.hasPhrase, Condition.carries, List.any_map, Bool.eq_iff_iff]
  simp only [Bool.or_eq_true, List.any_eq_true, Function.comp_apply, Store.matchesWord]
  constructor
  · rintro (⟨word, hword, h⟩ | ⟨word, hword, h⟩)
    · exact ⟨word, hword, Or.inl h⟩
    · exact ⟨word, hword, Or.inr h⟩
  · rintro ⟨word, hword, h | h⟩
    · exact Or.inl ⟨word, hword, h⟩
    · exact Or.inr ⟨word, hword, h⟩

theorem Admits.havingActive (h : q.Admits admitted) (includeArchived : Bool) :
    (q.havingActive includeArchived).Admits
      fun e => admitted e && (includeArchived || !e.memory.archived) := by
  cases includeArchived with
  | false => exact h.having .active [] rfl
  | true => simpa [Query.havingActive] using h

theorem Admits.havingWords (h : q.Admits admitted) (words : Option (List String)) :
    (q.havingWords words).Admits
      fun e => admitted e && words.all (·.any (Store.matchesWord · e)) := by
  cases words with
  | none => simpa [Query.havingWords] using h
  | some words =>
    have hlength : (Bound.phrases words :: words.map .text).length =
        (Condition.matching words.length).places := congrArg (· + 1) (List.length_map _)
    have hadmits := h.having _ _ hlength
    simp only [holds_matching] at hadmits
    exact hadmits

/-- The conditions of a selection admit what the store selects. -/
theorem admits_conditionsOf (owner : String) (words : Option (List String)) (c : Selection) :
    (conditionsOf owner words c).Admits fun e => decide (e.memory.owner = owner) &&
      (words.all (·.any (Store.matchesWord · e)) && c.admits e.memory) := by
  have hnone : Admits {} fun _ => true := ⟨[], .nil, fun _ => rfl⟩
  have howner := hnone.having .owner [.text owner] rfl
  have htags := ((howner.havingActive c.includeArchived).havingWords words).havingTags c
  have htype := htags.havingSome .type (fun t => [.text t.name]) (fun _ => rfl) c.type
  have hcategory := htype.havingSome .category (fun name => [.text name]) (fun _ => rfl) c.category
  have himportance := hcategory.havingSome .minImportance (fun i => [.int i]) (fun _ => rfl)
    c.minImportance
  have hafter := himportance.havingSome .afterId (fun id => [.int id]) (fun _ => rfl) c.afterId
  have htypes (e : Entry) (t : MemoryType) :
      decide (e.memory.type.name = t.name) = decide (t = e.memory.type) :=
    decide_eq_decide.mpr ⟨fun h => (MemoryType.name_inj h).symm, fun h => by rw [h]⟩
  have hcategories (e : Entry) (name : String) :
      decide (e.memory.category = name) = decide (name = e.memory.category) :=
    decide_eq_decide.mpr eq_comm
  refine hafter.congr fun e => ?_
  simp only [Condition.holds, htypes, hcategories, Selection.admits, Bool.true_and]
  ac_rfl

/-- The query of a selection gives the rows that the store selects. -/
theorem rows?_ofSelection (owner : String) (words : Option (List String)) (c : Selection)
    (now : Instant) (s : Store) : (ofSelection owner words c).rows? now s =
      some (s.select now owner c fun e => words.all (·.any (Store.matchesWord · e))) := by
  obtain ⟨parts, hmade, hall⟩ := admits_conditionsOf owner words c
  unfold rows? ofSelection
  dsimp only
  rw [hmade.deal]
  dsimp only
  have hfound : s.entries.filter (fun e => parts.all (Condition.holds e)) =
      (s.entriesOf owner).filter fun e =>
        words.all (·.any (Store.matchesWord · e)) && c.admits e.memory := by
    simp only [hall, Store.entriesOf, List.filter_filter, Bool.and_comm]
  rw [hfound]
  rfl

end Query

/-! ## Updating -/

namespace Update

variable {u : Update} {f : Entry → Entry}

/-- The columns of an update, each set to its own values, make `f e` of an entry `e`. -/
def Sets (u : Update) (f : Entry → Entry) : Prop :=
  ∃ parts, Made Column.places u.columns u.values parts ∧ ∀ e, parts.foldl Column.set e = f e

theorem Sets.setting (h : u.Sets f) (more : List (Column × List Bound))
    (hmore : ∀ part ∈ more, part.2.length = part.1.places) :
    (u.setting more).Sets fun e => more.foldl Column.set (f e) := by
  obtain ⟨parts, hmade, hfold⟩ := h
  exact ⟨_, hmade.append more hmore, fun e => by rw [List.foldl_append, hfold]⟩

/-- What is set for a value that may be absent: `g none` changes nothing, and `g (some a)` is what
the columns for `a` make. -/
theorem Sets.settingSome (h : u.Sets f) {α : Type} (o : Option α)
    (bind : α → List (Column × List Bound)) (g : Option α → Entry → Entry)
    (hplaces : ∀ a, ∀ part ∈ bind a, part.2.length = part.1.places) (hnone : ∀ e, g none e = e)
    (hsome : ∀ a e, (bind a).foldl Column.set e = g (some a) e) :
    (u.settingSome bind o).Sets fun e => g o (f e) := by
  cases o with
  | none => simpa only [Update.settingSome, hnone] using h
  | some a =>
    have hsets := h.setting (bind a) (hplaces a)
    simp only [hsome a] at hsets
    exact hsets

theorem Sets.settingReason (h : u.Sets f) (change : ReasonChange) :
    (u.settingReason change).Sets fun e =>
      { f e with
        memory := { (f e).memory with
          archiveReason :=
            match change with
            | .keep => (f e).memory.archiveReason
            | .clear => none
            | .set reason => some reason } } := by
  cases change with
  | keep => exact h
  | clear => exact h.setting [(.archiveReason, [.null])] (by simp [Column.places])
  | set reason => exact h.setting [(.archiveReason, [.text reason])] (by simp [Column.places])

/-- The changed entry, the importance in force as its column keeps it. -/
def writtenEntry (now : Instant) (c : Changes) (e : Entry) : Entry :=
  let changed := Store.changedEntry now c none e
  { changed with
    memory := { changed.memory with
      dynamicImportance :=
        c.importance.elim e.memory.dynamicImportance fun i => (Single.ofInt i).stored } }

theorem writtenEntry_eq (now : Instant) {c : Changes}
    (hc : c.importance.all Store.importanceInRange = true) (e : Entry) :
    writtenEntry now c e = Store.changedEntry now c none e := by
  cases hi : c.importance with
  | none => simp [writtenEntry, Store.changedEntry, Store.changed, hi]
  | some i =>
    rw [hi] at hc
    simp [writtenEntry, Store.changedEntry, Store.changed, hi, Single.stored_ofInt hc]

/-- The columns that changes set make the changed entry. -/
theorem sets_columnsOf (now : Instant) (c : Changes) :
    (columnsOf now c).Sets (writtenEntry now c) := by
  have hnone : Sets {} id := ⟨[], .nil, fun _ => rfl⟩
  have hstamped := hnone.setting [(.lastModified, [.time now]), (.version, [])]
    (by simp [Column.places])
  have hcontent := hstamped.settingSome c.content
    (fun t => [(.content, [.text t]), (.digest, [.text (Digest.ofContent t)])])
    (fun o e =>
      { memory := { e.memory with content := o.getD e.memory.content }
        digest := o.elim e.digest Digest.ofContent
        terms := o.elim e.terms Text.Index.terms })
    (by simp [Column.places]) (fun _ => rfl) fun _ _ => rfl
  have htype := hcontent.settingSome c.type (fun t => [(.type, [.text t.name])])
    (fun o e => { e with memory := { e.memory with type := o.getD e.memory.type } })
    (by simp [Column.places]) (fun _ => rfl) fun t e => by simp [Column.set, MemoryType.parse?_name]
  have hcategory := htype.settingSome c.category (fun t => [(.category, [.text t])])
    (fun o e => { e with memory := { e.memory with category := o.getD e.memory.category } })
    (by simp [Column.places]) (fun _ => rfl) fun _ _ => rfl
  have himportance := hcategory.settingSome c.importance
    (fun i => [(.importance, [.int i]), (.dynamicImportance, [.real (Single.ofInt i)])])
    (fun o e =>
      { e with
        memory := { e.memory with
          importance := o.getD e.memory.importance
          dynamicImportance :=
            o.elim e.memory.dynamicImportance fun i => (Single.ofInt i).stored } })
    (by simp [Column.places]) (fun _ => rfl) fun _ _ => rfl
  have hconfidence := himportance.settingSome c.confidence (fun x => [(.confidence, [.real x])])
    (fun o e =>
      { e with
        memory := { e.memory with confidence := o.elim e.memory.confidence Single.stored } })
    (by simp [Column.places]) (fun _ => rfl) fun _ _ => rfl
  have hmetadata := hconfidence.settingSome c.metadata
    (fun fields => [(.metadata, [.metadata fields])])
    (fun o e => { e with memory := { e.memory with metadata := o.getD e.memory.metadata } })
    (by simp [Column.places]) (fun _ => rfl) fun _ _ => rfl
  have hrelated := hmetadata.settingSome c.related
    (fun l => [(.related, [.ids (Ascending.ofList l)])])
    (fun o e =>
      { e with memory := { e.memory with related := o.elim e.memory.related Ascending.ofList } })
    (by simp [Column.places]) (fun _ => rfl) fun _ _ => rfl
  have harchived := hrelated.settingSome c.archived
    (fun b => [(.archived, [.int (if b then 1 else 0)])])
    (fun o e => { e with memory := { e.memory with archived := o.getD e.memory.archived } })
    (by simp [Column.places]) (fun _ => rfl) fun b e => by cases b <;> rfl
  exact harchived.settingReason c.archiveReason

/-- The update of some changes is the statement that makes them. The table finds fault with the
changed memory only where it does with what was changed. -/
theorem statement?_ofChanges (now : Instant) (id : MemoryId) (version : Int) (c : Changes) :
    ∃ statement, (ofChanges now id version c).statement? = some statement ∧
      ∀ s : Store, s.Sound →
        statement.outcome s = (Statements.updateMemory now id version c).outcome s := by
  obtain ⟨parts, hmade, hset⟩ := sets_columnsOf now c
  unfold statement? ofChanges
  dsimp only
  rw [hmade.deal]
  refine ⟨_, rfl, fun s hs => congrArg s.settled ?_⟩
  simp only [hset, Store.kept?]
  cases hentry : s.entry? id with
  | none => rfl
  | some e =>
    have hmem : e.memory ∈ s.memories := List.mem_map_of_mem (List.mem_of_find?_eq_some hentry)
    have hsound := hs.memories _ hmem
    have himportance : Store.importanceInRange (writtenEntry now c e).memory.importance =
        c.importance.all Store.importanceInRange := by
      show Store.importanceInRange (c.importance.getD e.memory.importance) = _
      cases c.importance with
      | none => simpa [Store.importanceInRange] using hsound.importance
      | some i => rfl
    have hconfidence : (writtenEntry now c e).memory.confidence.inUnit =
        c.confidence.all Single.inUnit := by
      show (c.confidence.elim e.memory.confidence Single.stored).inUnit = _
      cases c.confidence with
      | none => exact hsound.confidence
      | some x => exact Single.inUnit_stored_eq x
    simp only [Option.map_some, himportance, hconfidence]
    cases hi : c.importance.all Store.importanceInRange with
    | false => rfl
    | true => simp only [writtenEntry_eq now hi]

end Update

end Prepared

end LongTermMemory
