import LongTermMemory.Proofs.Operations
import LongTermMemory.Store.Saved

/-!
The digests and the index terms of memories, which are kept beside them: they are those of the
contents, whichever operations have changed them. A store that was reached therefore reads back as
it was from its saved form.
-/

namespace LongTermMemory

/-- Digests and terms follow the contents. -/
def Store.Indexed (s : Store) : Prop := ∀ e ∈ s.entries, Entry.ofMemory e.memory = e

namespace Store

variable {s s' : Store}

theorem indexed_empty : empty.Indexed := by
  intro e he
  cases he

theorem indexed_changedEntry {now : Instant} {c : Changes} {tags : Option (List String)} {e : Entry}
    (h : Entry.ofMemory e.memory = e) :
    Entry.ofMemory (changedEntry now c tags e).memory = changedEntry now c tags e := by
  rw [← h]
  cases hc : c.content <;> simp [changedEntry, changed, Entry.ofMemory, hc]

namespace Indexed

variable (h : s.Indexed)
include h

theorem modify {id : MemoryId} {f : Entry → Entry}
    (hf : ∀ e, Entry.ofMemory e.memory = e → Entry.ofMemory (f e).memory = f e) :
    (s.modify id f).Indexed := by
  intro e' he'
  obtain ⟨e, he, rfl⟩ := List.mem_map.mp he'
  split
  · exact hf e (h e he)
  · exact h e he

theorem modifyMemory {id : MemoryId} {f : Memory → Memory} (hf : ∀ m, (f m).content = m.content) :
    (s.modifyMemory id f).Indexed := by
  refine h.modify fun e he => ?_
  rw [← he]
  simp [Entry.ofMemory, hf]

theorem write {v : Vocabulary} (hw : Write v s s') : s'.Indexed := by
  cases hw with
  | @create now r =>
    obtain ⟨kept, last, heq, -⟩ := withNewcomer_eq s now r
    intro e he
    rw [heq] at he
    rcases List.mem_append.mp he with he | he
    · exact h e he
    · rw [List.mem_singleton.mp he]
      rfl
  | update => exact h.modify fun _ => indexed_changedEntry
  | remove =>
    intro e' he'
    obtain ⟨e, he, rfl⟩ := List.mem_map.mp he'
    have hindexed := h e (List.mem_filter.mp he).1
    split
    · rw [← hindexed]
      rfl
    · exact hindexed
  | access => exact h.modifyMemory (f := accessed _) fun _ => rfl
  | context => exact h
  | relate => exact h
  | archive => exact h.modifyMemory fun _ => rfl
  | age => exact h.modifyMemory fun _ => rfl

theorem writes {v : Vocabulary} (hw : Writes v s s') : s'.Indexed := by
  induction hw with
  | refl => exact h
  | tail _ hstep ih => exact ih.write hstep

end Indexed

end Store

namespace World

theorem Reached.indexed {p : Engine → Prop} {w : World} (hw : w.Reached p) : w.store.Indexed :=
  hw.holds Store.indexed_empty fun _ _ h hwrite => h.write hwrite

/-- Every store that a run reaches reads back as it was. -/
theorem Reached.ofSaved?_saved {p : Engine → Prop} {w : World} (hw : w.Reached p) :
    Store.ofSaved? w.store.saved = some w.store :=
  Store.ofSaved?_saved w.store hw.indexed

end World

end LongTermMemory
