import LongTermMemory.Proofs.Preparation
import LongTermMemory.Proofs.Run
import LongTermMemory.Proofs.Single
import LongTermMemory.Proofs.Store.Writing

/-!
The writes that the operations of engines are made of. Each is of one of eight kinds, and is told
with what was checked before it.
-/

namespace LongTermMemory

/-- What writes of memories may be held to: the two kinds that change how important a memory is, and
the time that is put down. -/
inductive Revision where
  | update
  | age
  | stamp (t : Instant)

/-- One change to a store, as an engine with the vocabulary `v` makes it that may make some kinds
of revisions. -/
inductive WriteOf (v : Vocabulary) (may : Revision → Prop) : Store → Store → Prop
  | create {s : Store} {now : Instant} {r : NewMemory} (hr : r.Normal v)
      (hp : ∀ p, r.parent = some p → p = s.lastMemoryId + 1 ∨ s.exists? p = true)
      (hnow : may (.stamp now)) : WriteOf v may s (s.withNewcomer now r)
  | update {s : Store} {now : Instant} {id : MemoryId} {c : Changes} (hc : c.Normal v)
      (hmay : may .update) (hnow : may (.stamp now)) : WriteOf v may s (s.withChanges now id c)
  | remove {s : Store} {id : MemoryId} : WriteOf v may s (s.remove id)
  | access {s : Store} {now : Instant} {id : MemoryId} {n : AccessNote}
      (hid : s.exists? id = true) (hnow : may (.stamp now)) :
      WriteOf v may s (s.withAccess now id n)
  | context {s : Store} {id : MemoryId} {c : NewContext} (hid : s.exists? id = true)
      (hc : c.confidence.inUnit = true) : WriteOf v may s (s.addContext id c).2
  | relate {s : Store} {now : Instant} {r : NewRelationship} (hs : s.exists? r.source = true)
      (ht : s.exists? r.target = true) (hne : r.source ≠ r.target)
      (hr : r.strength.inUnit = true) : WriteOf v may s (s.withEdge now r)
  | archive {s : Store} {now : Instant} {id : MemoryId} {reason : String}
      (hnow : may (.stamp now)) :
      WriteOf v may s (s.modifyMemory id (Store.archivedMemory now reason))
  | age {s : Store} {t : Instant} {id : MemoryId} {importance : Int}
      (hi : Store.importanceInRange importance = true) (hmay : may .age)
      (hnow : may (.stamp t)) :
      WriteOf v may s (s.modifyMemory id (Store.agedMemory t importance))

/-- A write of any kind. -/
abbrev Write (v : Vocabulary) : Store → Store → Prop := WriteOf v fun _ => True

abbrev WritesOf (v : Vocabulary) (may : Revision → Prop) : Store → Store → Prop :=
  Relation.ReflTransGen (WriteOf v may)

/-- A sequence of writes. -/
abbrev Writes (v : Vocabulary) : Store → Store → Prop := WritesOf v fun _ => True

/-- No id is given out twice. -/
theorem WriteOf.last_le {v : Vocabulary} {may : Revision → Prop} {s s' : Store}
    (h : WriteOf v may s s') : s.lastMemoryId ≤ s'.lastMemoryId := by
  cases h with
  | @create now r =>
    rw [Store.lastMemoryId_withNewcomer]
    exact Int.le_of_lt (Int.lt_succ _)
  | update | remove | access | context | relate | archive | age => exact Int.le_refl _

theorem WriteOf.mono {v : Vocabulary} {may may' : Revision → Prop} (hle : ∀ r, may r → may' r)
    {s s' : Store} (h : WriteOf v may s s') : WriteOf v may' s s' := by
  cases h with
  | create hr hp hnow => exact .create hr hp (hle _ hnow)
  | update hc hmay hnow => exact .update hc (hle _ hmay) (hle _ hnow)
  | remove => exact .remove
  | access hid hnow => exact .access hid (hle _ hnow)
  | context hid hc => exact .context hid hc
  | relate hs ht hne hr => exact .relate hs ht hne hr
  | archive hnow => exact .archive (hle _ hnow)
  | age hi hmay hnow => exact .age hi (hle _ hmay) (hle _ hnow)

namespace WritesOf

variable {v : Vocabulary} {may : Revision → Prop} {s s' : Store}

theorem last_le (h : WritesOf v may s s') : s.lastMemoryId ≤ s'.lastMemoryId := by
  induction h with
  | refl => exact Int.le_refl _
  | tail _ hstep ih => exact Int.le_trans ih hstep.last_le

theorem toWrites (h : WritesOf v may s s') : Writes v s s' :=
  Relation.ReflTransGen.mono (fun _ _ hwrite => hwrite.mono fun _ _ => trivial) _ _ h

theorem one (h : WriteOf v may s s') : WritesOf v may s s' := .single h

theorem recordAccess {now : Instant} {id : MemoryId} {n : AccessNote} (hnow : may (.stamp now))
    (h : s.recordAccess now id n = .ok s') : WritesOf v may s s' := by
  obtain ⟨hid, rfl⟩ := Store.recordAccess_eq_ok.mp h
  exact one (.access hid hnow)

theorem delete {id : MemoryId} (h : s.delete id = .ok s') : WritesOf v may s s' := by
  obtain ⟨-, rfl⟩ := Store.delete_eq_ok.mp h
  exact one .remove

theorem archiveIfVersion {now : Instant} {id : MemoryId} {version : Int} {reason : String}
    {done : Bool} (hnow : may (.stamp now))
    (h : s.archiveIfVersion now id version reason = (done, s')) : WritesOf v may s s' := by
  rcases Store.archiveIfVersion_cases s now id version reason with heq | heq
  · rw [heq] at h
    cases h
    exact .refl
  · rw [heq] at h
    cases h
    exact one (.archive hnow)

theorem age {t : Instant} {id : MemoryId} {version importance : Int} {done : Bool}
    (hmay : may .age) (hnow : may (.stamp t))
    (h : s.age t id version importance = .ok (done, s')) : WritesOf v may s s' := by
  rcases Store.age_eq_ok h with rfl | ⟨hi, rfl⟩
  · exact .refl
  · exact one (.age hi hmay hnow)

theorem relate {now : Instant} {r : NewRelationship} {q : Relationship}
    (hne : r.source ≠ r.target) (hr : r.strength.inUnit = true)
    (h : s.relate now r = .ok (q, s')) : WritesOf v may s s' := by
  obtain ⟨hs, ht, rfl⟩ := Store.relate_eq_ok h
  exact one (.relate hs ht hne hr)

end WritesOf

end LongTermMemory
