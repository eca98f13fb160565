import LongTermMemory.Proofs.Teaching

/-!
What is kept of a text that was learned. The content of a memory is a short form of a text of its
turn, which the configured limit and every greater one leave alone; so what is learned again is
compared with just the text that was stored.
-/

namespace LongTermMemory

/-- The content of a memory that a turn taught comes again as it is. -/
structure Memory.Recurs (e : Engine) (i : Interaction) (m : Memory) : Prop where
  stable : ∀ limit, e.config.learning.maxContentChars ≤ limit →
    Text.shorten limit m.content = m.content
  /-- The turn says it again when it is learned again. -/
  again : ∃ d ∈ e.drafts i, (e.requestOf i d).content = m.content
  /-- So does each draft that is cut from the content, under this limit or a greater one. -/
  said : ∀ (c : LearningConfig) (k : Classifier) (i' : Interaction) (detector : Detector)
    (d : Draft), e.config.learning.maxContentChars ≤ c.maxContentChars →
    Detector.detect? c k i' detector = some d → Text.trim (detector.source i') = m.content →
    d.content = m.content

namespace Engine

variable {e : Engine} {now : Instant} {i : Interaction} {d : Draft} {m : Memory}

theorem recurs_of_madeOf (hd : d ∈ e.drafts i) (hm : e.MadeOf now i d m) : m.Recurs e i := by
  have hcontent : m.content = d.content := hm.tells.1
  obtain ⟨-, hdetect⟩ :=
    (collected_draftsOf e.config.learning e.classifier i).made d hd
  obtain ⟨-, hcut⟩ := Detector.detect_spec hdetect
  have hstable : ∀ limit, e.config.learning.maxContentChars ≤ limit →
      Text.shorten limit m.content = m.content := by
    rw [hcontent, hcut]
    exact (Text.shortForm_shorten _ _).stable
  refine ⟨hstable, ⟨d, hd, hcontent.symm⟩, fun c k i' detector d' hle hdetect' hsource => ?_⟩
  rw [(Detector.detect_spec hdetect').2, ← Text.shorten_trim, hsource]
  exact hstable _ hle

theorem recurs_of_learn {s : Store} (hs : s.Indexed) (hm : m ∈ (e.learn now i s).1) :
    m ∈ (e.learn now i s).2.memories ∧ m.Recurs e i := by
  cases hblank : Text.blank i.owner with
  | true => simp [learn, hblank] at hm
  | false =>
    have hlearn : e.learn now i s = e.learnDrafts now i (e.drafts i) s := by simp [learn, hblank]
    rw [hlearn] at hm ⊢
    obtain ⟨kept, hsub, hmade, hextended⟩ := extended_learnDrafts hs now i (e.drafts i)
    obtain ⟨d, hd, hmd⟩ := exists_draft_of_mem hmade hm
    refine ⟨?_, recurs_of_madeOf (hsub.subset hd) hmd⟩
    rw [hextended.memories]
    exact List.mem_append_right _ hm

end Engine

namespace World

/-- Shortening gives a bounded front of the trimmed text that stays as it is under every limit from
this one on; so does the content of each memory that a turn teaches, which comes again whenever it
is learned again. -/
theorem learned_texts_recur :
    (∀ limit s, Text.ShortForm limit s (Text.shorten limit s)) ∧
    ∀ (p : Engine → Prop) (w : World), w.Reached p → ∀ (e : Engine) (now : Instant)
      (i : Interaction), ∀ m ∈ (e.learn now i w.store).1,
        m ∈ (e.learn now i w.store).2.memories ∧ m.Recurs e i :=
  ⟨Text.shortForm_shorten, fun _ _ hw _ _ _ _ hm => Engine.recurs_of_learn hw.indexed hm⟩

/-- An engine that keeps twelve characters of a text. -/
def brief : Engine :=
  .ofUnchecked { Config.oneTag with learning := { maxContentChars := 12 } }

/-- A turn of which more is said than is kept. -/
def longRequest : Interaction :=
  { owner := "ann"
    userInput := " Save this:\t standup moved to 10 "
    agentResponse := ""
    tags := ["food"] }

/-- Two words are kept, and the same turn and its content are learned as these two words. -/
theorem learned_texts_recur_longRequest : ∃ m, (brief.learn ⟨0⟩ longRequest .empty).1 = [m] ∧
    m.content = "Save this:" ∧ Text.shorten 13 m.content = "Save this:" ∧
    (∃ d ∈ brief.drafts longRequest, (brief.requestOf longRequest d).content = "Save this:") ∧
    ∀ d, Detector.detect? { maxContentChars := 13 } brief.classifier
      { longRequest with userInput := "Save this:\n" } .explicitRequest = some d →
      d.content = "Save this:" := by
  have hcontents : (brief.learn ⟨0⟩ longRequest .empty).1.map (·.content) = ["Save this:"] := by
    decide
  obtain ⟨m, rest, hms, hm, hrest⟩ := List.map_eq_cons_iff.mp hcontents
  obtain rfl : rest = [] := List.map_eq_nil_iff.mp hrest
  have hreached : (start ⟨0⟩).Reached (· = brief) := ⟨⟨0⟩, .refl⟩
  obtain ⟨-, hrecurs⟩ := learned_texts_recur.2 _ _ hreached brief ⟨0⟩ longRequest m
    (hms ▸ List.mem_singleton_self m)
  refine ⟨m, hms, hm, hm ▸ hrecurs.stable 13 (by decide), hm ▸ hrecurs.again, fun d hd => ?_⟩
  exact hm ▸ hrecurs.said _ _ _ _ d (by decide) hd (by rw [hm]; decide)

end World

end LongTermMemory
