import LongTermMemory.Proofs.Exactness
import LongTermMemory.Request
import LongTermMemory.Store.Saved

/-!
Changes written as a JSON object and read back from it. What is not changed is written as a null,
and so is the clearing of a reason, which is therefore read as no change. Everything else is read as
it was written.
-/

namespace LongTermMemory

/-- A JSON value: the names in a record are distinct, integers have 64 bits with or without a sign,
and other numbers are finite in double precision. -/
inductive Document.IsJson : Document → Prop
  | null : IsJson .null
  | bool (b : Bool) : IsJson (.bool b)
  | integer {i : Int}
      (h : IntegerRange.int64.contains i = true ∨ IntegerRange.nat64.contains i = true) :
      IsJson (.integer i)
  | decimal {d : Decimal} (h : (Single.ofDecimal? d).isSome = true) : IsJson (.real (.decimal d))
  | text (s : String) : IsJson (.text s)
  | list {items : List Document} (h : ∀ d ∈ items, IsJson d) : IsJson (.list items)
  | record {fields : List (String × Document)} (hnames : (fields.map (·.1)).Nodup)
      (h : ∀ f ∈ fields, IsJson f.2) : IsJson (.record fields)

/-- The numbers have the size of their fields, the confidence is finite, and the metadata are a JSON
object. -/
structure Changes.InBounds (c : Changes) : Prop where
  importance : ∀ i, c.importance = some i → IntegerRange.int32.contains i = true
  confidence : ∀ x, c.confidence = some x → x.isFinite = true
  metadata : ∀ fields, c.metadata = some fields → (Document.record fields).IsJson
  related : ∀ ids, c.related = some ids → ∀ id ∈ ids, IntegerRange.int64.contains id = true
  expectedVersion : ∀ v, c.expectedVersion = some v → IntegerRange.int64.contains v = true

/-- The reason that is given, if one is. -/
def ReasonChange.given? : ReasonChange → Option String
  | .set reason => some reason
  | _ => none

namespace Changes

/-- The changes without the clearing of a reason. -/
def withoutClearing (c : Changes) : Changes :=
  { c with archiveReason := c.archiveReason.given?.elim .keep .set }

open Document (ofOption)

/-- The changes as the fields of a record. -/
def fields (c : Changes) : List (String × Document) :=
  [("content", ofOption .text c.content),
   ("tags", ofOption Document.texts c.tags),
   ("memory_type", ofOption (fun t => .text t.name) c.type),
   ("category", ofOption .text c.category),
   ("importance_score", ofOption .integer c.importance),
   ("confidence_score", ofOption (fun x => .real (.decimal x.exactly)) c.confidence),
   ("metadata", ofOption .record c.metadata),
   ("related_memory_ids", ofOption Document.integers c.related),
   ("is_archived", ofOption .bool c.archived),
   ("archive_reason", ofOption .text c.archiveReason.given?),
   ("expected_version", ofOption .integer c.expectedVersion)]

end Changes

/-! ## Writing -/

namespace Document

theorem isJson_ofOption {α : Type} {write : α → Document} {o : Option α}
    (h : ∀ a, o = some a → (write a).IsJson) : (ofOption write o).IsJson := by
  cases o with
  | none => exact .null
  | some a => exact h a rfl

theorem isJson_texts (l : List String) : (texts l).IsJson := by
  refine .list fun d hd => ?_
  obtain ⟨s, -, rfl⟩ := List.mem_map.mp hd
  exact .text s

theorem isJson_integers {l : List Int} (h : ∀ i ∈ l, IntegerRange.int64.contains i = true) :
    (integers l).IsJson := by
  refine .list fun d hd => ?_
  obtain ⟨i, hi, rfl⟩ := List.mem_map.mp hd
  exact .integer (.inl (h i hi))

end Document

theorem IntegerRange.int64_of_int32 {i : Int} (h : int32.contains i = true) :
    int64.contains i = true := by
  obtain ⟨hlow, hhigh⟩ : int32.low ≤ i ∧ i ≤ int32.high := of_decide_eq_true h
  have hrange : int64.low ≤ i ∧ i ≤ int64.high := by
    simp only [int32, int64] at *
    omega
  exact decide_eq_true hrange

theorem Changes.nodup_fields (c : Changes) : (c.fields.map (·.1)).Nodup := by
  simp [fields]

/-- What is written is a JSON object. -/
theorem Changes.isJson_fields {c : Changes} (h : c.InBounds) :
    (Document.record c.fields).IsJson := by
  refine .record c.nodup_fields fun f hf => ?_
  simp only [fields, List.mem_cons, List.not_mem_nil, or_false] at hf
  rcases hf with rfl | rfl | rfl | rfl | rfl | rfl | rfl | rfl | rfl | rfl | rfl <;>
    refine Document.isJson_ofOption fun a ha => ?_
  · exact .text a
  · exact Document.isJson_texts a
  · exact .text a.name
  · exact .text a
  · exact .integer (.inl (IntegerRange.int64_of_int32 (h.importance a ha)))
  · exact .decimal (by rw [Single.ofDecimal?_exactly (h.confidence a ha)]; rfl)
  · exact h.metadata a ha
  · exact Document.isJson_integers (h.related a ha)
  · exact .bool a
  · exact .text a
  · exact .integer (.inl (h.expectedVersion a ha))

/-! ## Reading -/

open Document (ofOption asFields? asBool? asText? asList? asInt32? asInt64? asSingle? asRecord?)

namespace Document

theorem lookup_of_mem {fields : List (String × Document)} (hnames : (fields.map (·.1)).Nodup)
    {name : String} {d : Document} (h : (name, d) ∈ fields) : lookup name fields = some d := by
  induction fields with
  | nil => cases h
  | cons first rest ih =>
    obtain ⟨n, v⟩ := first
    obtain ⟨hfirst, hrest⟩ := List.nodup_cons.mp hnames
    unfold lookup
    rcases List.mem_cons.mp h with heq | hmem
    · cases heq
      exact if_pos rfl
    · have hne : n ≠ name := by
        rintro rfl
        exact hfirst (List.mem_map.mpr ⟨(n, d), hmem, rfl⟩)
      rw [if_neg hne]
      exact ih hrest hmem

theorem lookup_eq_none {fields : List (String × Document)} {name : String}
    (h : name ∉ fields.map (·.1)) : lookup name fields = none := by
  induction fields with
  | nil => rfl
  | cons first rest ih =>
    obtain ⟨n, v⟩ := first
    obtain ⟨hne, hrest⟩ := not_or.mp (List.mem_cons.not.mp h)
    unfold lookup
    rw [if_neg (Ne.symm hne)]
    exact ih hrest

/-- A field that is there under the first of its names is read as it was written, if its value is,
and a null as nothing. -/
theorem Fields.optional_of_getElem? {α : Type} {fields : List (String × Document)}
    (hnames : (fields.map (·.1)).Nodup) (place : Nat) (read : Document → Option α) {name : String}
    {others : List String} {write : α → Document} {o : Option α}
    (hplace : fields[place]? = some (name, ofOption write o))
    (hothers : ∀ n ∈ others, n ∉ fields.map (·.1))
    (hread : ∀ a, o = some a → read (write a) = some a) (hnull : ∀ a, (write a).isNull = false) :
    (Fields.named fields).optional place (name :: others) read = some o := by
  have hname := lookup_of_mem hnames (List.mem_of_getElem? hplace)
  have hfind : (Fields.named fields).find? place (name :: others) =
      some (some (ofOption write o)) := by
    unfold find?
    dsimp only
    rw [List.filterMap_cons_some (f := fun n => lookup n fields) hname,
      List.filterMap_eq_nil_iff.mpr fun n hn => lookup_eq_none (hothers n hn)]
  unfold optional orAbsent withDefault
  dsimp only
  rw [hfind]
  cases o with
  | none => rfl
  | some a => simp [ofOption, hread a rfl, hnull]

theorem asIntegerIn?_integer {r : IntegerRange} {i : Int} (h : r.contains i = true) :
    asIntegerIn? r (.integer i) = some i := by
  simp [asIntegerIn?, h]

theorem asList?_integers_of_contains {l : List Int}
    (h : ∀ i ∈ l, IntegerRange.int64.contains i = true) :
    asList? asInt64? (integers l) = some l := by
  unfold asList? integers
  dsimp only
  induction l with
  | nil => rfl
  | cons i rest ih =>
    have hfirst : asInt64? (.integer i) = some i := asIntegerIn?_integer (h i (by simp))
    simp only [List.map_cons, List.mapM_cons, hfirst, ih fun j hj => h j (by simp [hj])]
    rfl

theorem asSingle?_exactly {x : Single} (h : x.isFinite = true) :
    asSingle? (.real (.decimal x.exactly)) = some x := by
  simp [asSingle?, Real.toSingle, Single.ofDecimal?_exactly h]

end Document

/-- What is read is what was written, but for the clearing of a reason. -/
theorem Changes.ofDocument?_fields {c : Changes} (h : c.InBounds) :
    Changes.ofDocument? (.record c.fields) = some c.withoutClearing := by
  have hfields : asFields? 11 (.record c.fields) = some (.named c.fields) := rfl
  have hfield {α : Type} (place : Nat) (read : Document → Option α) {name : String}
      {write : α → Document} {o : Option α}
      (hplace : c.fields[place]? = some (name, ofOption write o))
      (hread : ∀ a, o = some a → read (write a) = some a)
      (hnull : ∀ a, (write a).isNull = false) :
      (Document.Fields.named c.fields).optional place [name] read = some o :=
    Document.Fields.optional_of_getElem? c.nodup_fields place read hplace (fun _ hn => nomatch hn)
      hread hnull
  have hcontent := hfield 0 asText? rfl (fun _ _ => rfl) fun _ => rfl
  have htags := hfield 1 Document.asTexts? rfl (fun l _ => Document.asList?_texts l) fun _ => rfl
  have htype : (Document.Fields.named c.fields).optional 2 typeNames MemoryType.ofDocument? =
      some c.type :=
    Document.Fields.optional_of_getElem? c.nodup_fields 2 MemoryType.ofDocument? rfl
      (List.forall_mem_singleton.mpr (by simp [fields])) (fun t _ => MemoryType.ofName?_name t)
      fun _ => rfl
  have hcategory := hfield 3 asText? rfl (fun _ _ => rfl) fun _ => rfl
  have himportance := hfield 4 asInt32? rfl
    (fun i hi => Document.asIntegerIn?_integer (h.importance i hi)) fun _ => rfl
  have hconfidence := hfield 5 asSingle? rfl
    (fun x hx => Document.asSingle?_exactly (h.confidence x hx)) fun _ => rfl
  have hmetadata := hfield 6 asRecord? rfl (fun _ _ => rfl) fun _ => rfl
  have hrelated := hfield 7 (asList? asInt64?) rfl
    (fun l hl => Document.asList?_integers_of_contains (h.related l hl)) fun _ => rfl
  have harchived := hfield 8 asBool? rfl (fun _ _ => rfl) fun _ => rfl
  have hreason := hfield 9 asText? rfl (fun _ _ => rfl) fun _ => rfl
  have hversion := hfield 10 asInt64? rfl
    (fun i hi => Document.asIntegerIn?_integer (h.expectedVersion i hi)) fun _ => rfl
  unfold ofDocument?
  rw [hfields, Option.bind_eq_bind, Option.bind_some, hreason, hcontent, htags, htype, hcategory,
    himportance, hconfidence, hmetadata, hrelated, harchived, hversion]
  rfl

/-- No document clears a reason. -/
theorem Changes.archiveReason_ne_clear {d : Document} {c : Changes}
    (h : Changes.ofDocument? d = some c) : c.archiveReason ≠ .clear := by
  obtain ⟨f, -, h⟩ := Option.bind_eq_some_iff.mp h
  obtain ⟨reason, -, h⟩ := Option.bind_eq_some_iff.mp h
  iterate 10 obtain ⟨_, -, h⟩ := Option.bind_eq_some_iff.mp h
  cases h
  cases reason <;> simp

end LongTermMemory
