import LongTermMemory.Proofs.Store.Altering

/-!
Changes of a store that commute: removals with each other, and with changes of single memories that
keep ids and do not look at parents.
-/

namespace LongTermMemory

namespace Memory

def withParent (m : Memory) (parent : Option MemoryId) : Memory := { m with parent }

/-- The change keeps the id of a memory, and neither looks at its parent nor changes it. -/
structure KeepsPlace (f : Memory → Memory) : Prop where
  id : ∀ m, (f m).id = m.id
  parent : ∀ m parent, f (m.withParent parent) = (f m).withParent parent

namespace KeepsPlace

variable {f g : Memory → Memory}

theorem parent_eq (h : KeepsPlace f) (m : Memory) : (f m).parent = m.parent := by
  have hsame : f m = (f m).withParent m.parent := h.parent m m.parent
  rw [hsame]
  rfl

theorem comp (hg : KeepsPlace g) (hf : KeepsPlace f) : KeepsPlace fun m => g (f m) :=
  ⟨fun m => (hg.id _).trans (hf.id m), fun m parent => by rw [hf.parent, hg.parent]⟩

theorem ite {p : Memory → Bool} (hp : ∀ m parent, p (m.withParent parent) = p m)
    (hf : KeepsPlace f) : KeepsPlace fun m => if p m then f m else m := by
  constructor
  case id =>
    intro m
    split
    · exact hf.id m
    · rfl
  case parent =>
    intro m parent
    rw [hp]
    split
    · exact hf.parent m parent
    · rfl

end KeepsPlace

end Memory

namespace Store

variable {s : Store} {f g : Memory → Memory}

/-- Changes every memory. -/
def mapMemories (s : Store) (f : Memory → Memory) : Store :=
  { s with entries := s.entries.map fun e => { e with memory := f e.memory } }

theorem modifyWhere_eq_mapMemories (s : Store) (p : Memory → Bool) (f : Memory → Memory) :
    s.modifyWhere p f = s.mapMemories fun m => if p m then f m else m := by
  unfold modifyWhere mapMemories
  congr 1
  refine List.map_congr_left fun e _ => ?_
  by_cases hp : p e.memory = true <;> simp [hp]

@[simp] theorem memories_mapMemories (s : Store) (f : Memory → Memory) :
    (s.mapMemories f).memories = s.memories.map f := by
  simp [memories, mapMemories]

theorem mapMemories_congr (h : ∀ m ∈ s.memories, f m = g m) :
    s.mapMemories f = s.mapMemories g := by
  unfold mapMemories
  congr 1
  refine List.map_congr_left fun e he => ?_
  rw [h e.memory (List.mem_map_of_mem he)]

theorem mapMemories_mapMemories (s : Store) (f g : Memory → Memory) :
    (s.mapMemories f).mapMemories g = s.mapMemories fun m => g (f m) := by
  simp [mapMemories]

/-- Changes of which each leaves what the other changes commute. -/
theorem mapMemories_comm (h : ∀ m, g (f m) = f (g m)) :
    (s.mapMemories f).mapMemories g = (s.mapMemories g).mapMemories f := by
  rw [mapMemories_mapMemories, mapMemories_mapMemories]
  exact mapMemories_congr fun m _ => h m

theorem removeAll_removeAll (s : Store) (ids ids' : List MemoryId) :
    (s.removeAll ids).removeAll ids' = s.removeAll (ids ++ ids') := by
  induction ids' using List.reverseRecOn with
  | nil => rw [removeAll_nil, List.append_nil]
  | append_singleton front id ih =>
    rw [← removeAll_remove, ih, removeAll_remove, List.append_assoc]

theorem removeAll_mapMemories (hf : Memory.KeepsPlace f) (ids : List MemoryId) :
    (s.mapMemories f).removeAll ids = (s.removeAll ids).mapMemories f := by
  unfold removeAll mapMemories
  congr 1
  have hid : ∀ e : Entry, decide ((f e.memory).id ∉ ids) = decide (e.memory.id ∉ ids) :=
    fun e => by rw [hf.id]
  rw [List.filter_map, List.map_map, List.map_map]
  simp only [Function.comp_def, hid]
  refine List.map_congr_left fun e _ => ?_
  rw [hf.parent_eq]
  split
  · exact congrArg (fun m => { e with memory := m }) (hf.parent e.memory none).symm
  · rfl

end Store

end LongTermMemory
