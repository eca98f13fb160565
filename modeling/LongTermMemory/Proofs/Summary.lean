import LongTermMemory.Proofs.Merging
import LongTermMemory.Proofs.Text.ByteOrder

/-!
What the request for the memory of a group says about the group: the tags of all its members, the
greatest of their confidences, the type and the category that most of them have, who they are, and
in the content a part for each display group among them.
-/

namespace LongTermMemory

/-! ## Content -/

/-- The tool that a memory names: the one on record or, if there is none, what it says. -/
def Memory.Names (m : Memory) (tool : String) : Prop :=
  Document.lookup "tool" m.metadata = some (.text tool) ∨
    (∀ t, Document.lookup "tool" m.metadata ≠ some (.text t)) ∧ tool = Text.trim m.content

/-- A part of a summary: what the first members of one display group say or, when they are about
tools, the first of the tools that they name. -/
def IsPart (limit : Nat) (group : List Memory) (g : DisplayGroup) (part : String) : Prop :=
  let members := group.filter fun m => DisplayGroup.ofMemory m = g
  match g with
  | .toolPreference => ∃ names tools, List.Forall₂ Memory.Names members names ∧
    FirstSeen names tools ∧ part = "User prefers tools: " ++ ", ".intercalate (tools.take limit)
  | _ => part =
    g.key ++ ": " ++ "; ".intercalate ((members.take limit).map fun m => Text.trim m.content)

/-- A summary has one part for each display group among the memories, in order of appearance. -/
def IsSummary (limit : Nat) (group : List Memory) (content : String) : Prop :=
  ∃ groups parts, FirstSeen (group.map DisplayGroup.ofMemory) groups ∧
    List.Forall₂ (IsPart limit group) groups parts ∧ content = " | ".intercalate parts

theorem Memory.names_preferredTool (m : Memory) : m.Names m.preferredTool := by
  unfold preferredTool
  split
  · next tool htool => exact Or.inl htool
  · next hnone => exact Or.inr ⟨hnone, rfl⟩

theorem isPart_summarizeGroup (limit : Nat) (group : List Memory) (g : DisplayGroup) :
    IsPart limit group g
      (summarizeGroup limit g (group.filter fun m => DisplayGroup.ofMemory m = g)) := by
  unfold IsPart summarizeGroup
  cases g with
  | toolPreference =>
    exact ⟨_, _, List.forall₂_map_right_iff.mpr
      (List.forall₂_same.mpr fun m _ => m.names_preferredTool), firstSeen_eraseDups _, rfl⟩
  | communicationStyle => simp only [List.map_take]
  | type t => simp only [List.map_take]

theorem isSummary_synthesize (limit : Nat) (group : List Memory) :
    IsSummary limit group (synthesize limit group) :=
  ⟨_, _, firstSeen_eraseDups _, List.forall₂_map_right_iff.mpr
    (List.forall₂_same.mpr fun g _ => isPart_summarizeGroup limit group g), rfl⟩

/-! ## Confidence -/

/-- The greatest of some numbers of the unit interval is one of them, as a number. -/
theorem Single.exists_eq_foldl_max {values : List Single} (hne : values ≠ [])
    (h : ∀ x ∈ values, x.inUnit = true) :
    (∃ x ∈ values, x.le (values.foldl max zero) = true ∧ (values.foldl max zero).le x = true) ∧
      ∀ x ∈ values, x.le (values.foldl max zero) = true := by
  have hnumbers : ∀ x ∈ zero :: values, x.isNaN = false := List.forall_mem_cons.mpr
    ⟨isNaN_of_inUnit inUnit_zero, fun x hx => isNaN_of_inUnit (h x hx)⟩
  obtain ⟨-, hbound⟩ := List.forall_mem_cons.mp (le_foldl_max hnumbers)
  refine ⟨?_, hbound⟩
  rcases List.mem_cons.mp (foldl_max_mem zero values) with hzero | hmem
  · obtain ⟨x, hx⟩ := List.exists_mem_of_ne_nil values hne
    have hunit := h x hx
    rw [inUnit, Bool.and_eq_true] at hunit
    exact ⟨x, hx, hbound x hx, by rw [hzero]; exact hunit.1⟩
  · have hself := le_refl (hnumbers _ (List.mem_cons_of_mem zero hmem))
    exact ⟨_, hmem, hself, hself⟩

/-! ## The request -/

/-- The request says of the group what is to be kept of it. -/
structure NewMemory.Summarizes (r : NewMemory) (limit : Nat) (owner : String)
    (group : List Memory) : Prop where
  owner : r.owner = owner
  tags : r.tags.Pairwise (fun s t => Text.bytes s < Text.bytes t) ∧
    ∀ t, t ∈ r.tags ↔ ∃ m ∈ group, t ∈ m.tags
  /-- Some member has the confidence, as a number, and none has a greater one. -/
  confidence : (∀ m ∈ group, m.confidence.inUnit = true) →
    (∃ m ∈ group, m.confidence.le r.confidence = true ∧ r.confidence.le m.confidence = true) ∧
      ∀ m ∈ group, m.confidence.le r.confidence = true
  type : ∃ t, r.type = some t ∧ IsMode (group.map (·.type)) t
  category : ∃ c, r.category = some c ∧ IsMode (group.map (·.category)) c
  members : r.related = group.map (·.id) ∧
    Document.lookup "consolidated_from" r.metadata = some (.list (group.map fun m => .integer m.id))
  content : IsSummary limit group r.content

/-- The request for the memory that takes the place of a group summarizes it. -/
theorem ConsolidationConfig.mergedRequest_summarizes (c : ConsolidationConfig) (owner : String)
    {group : List Memory} (hne : group ≠ []) :
    (c.mergedRequest owner group).Summarizes c.maxItemsPerType owner group := by
  have htypes : group.map (·.type) ≠ [] := mt List.map_eq_nil_iff.mp hne
  have hcategories : group.map (·.category) ≠ [] := mt List.map_eq_nil_iff.mp hne
  have hconfidences : group.map (·.confidence) ≠ [] := mt List.map_eq_nil_iff.mp hne
  obtain ⟨t, htype, ht⟩ := exists_mostFrequent htypes
  obtain ⟨category, hcategory, hmode⟩ := exists_mostFrequent hcategories
  refine
    { owner := rfl
      tags := ⟨(Ascending.pairwise_ofList _).imp Text.bytes_lt_bytes.mpr, fun t => ?_⟩
      confidence := fun hunit => ?_
      type := ⟨t, by rw [mergedRequest, htype, Option.getD_some], ht⟩
      category := ⟨category, by rw [mergedRequest, hcategory, Option.getD_some], hmode⟩
      members := ⟨rfl, ?_⟩
      content := isSummary_synthesize c.maxItemsPerType group }
  · rw [mergedRequest, Ascending.mem_ofList, List.mem_flatMap]
  · simpa [mergedRequest] using Single.exists_eq_foldl_max hconfidences (by simpa using hunit)
  · simp [mergedRequest, Document.lookup, Document.integers]

/-- Four notes about tools, two of them naming one, and a goal between them. -/
def toolNotes : List Memory :=
  [("uses grep", .preference, ["tool", "work"], [("tool", .text "grep")]),
   (" run ten miles ", .goal, ["health"], []),
   (" vim ", .preference, ["tool"], [("tool", .null)]),
   ("grep again", .preference, ["tool"], [("tool", .text "grep")]),
   ("likes make", .preference, ["tool"], [("tool", .text "make")])].mapIdx
    fun i (content, type, tags, metadata) => Store.newMemory ⟨0⟩ (7 - i) tags
      { owner := "ann", content, type := some type, category := some "work", importance := 5,
        metadata }

/-- Two tools are kept of three, the one named twice counting once. -/
theorem mergedRequest_summarizes_toolNotes : toolNotes ≠ [] ∧
    let r := ConsolidationConfig.mergedRequest { maxItemsPerType := 2 } "ann" toolNotes
    r.Summarizes 2 "ann" toolNotes ∧
      r.content = "User prefers tools: grep, vim | goal: run ten miles" ∧
      r.tags = ["health", "tool", "work"] ∧ r.type = some .preference := by
  have hne : toolNotes ≠ [] := by decide
  exact ⟨hne, ConsolidationConfig.mergedRequest_summarizes _ _ hne, by decide,
    by decide, by decide⟩

end LongTermMemory
