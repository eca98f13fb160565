import LongTermMemory.Engine.Learn
import LongTermMemory.Engine.Maintain
import Mathlib.Logic.Relation

/-!
Runs: a world is a store and a clock, and a run is any sequence of operations on it, each by some
engine. An operation that fails leaves the store as it was.
-/

namespace LongTermMemory

structure World where
  store : Store
  clock : Instant

/-- What a client can do to a store, and the moving of the clock. -/
inductive Operation where
  | create (r : NewMemory)
  | update (id : MemoryId) (c : Changes)
  | delete (id : MemoryId)
  | deleteOwned (owner : String) (id : MemoryId)
  | recordAccess (id : MemoryId) (n : AccessNote)
  | addContext (id : MemoryId) (c : NewContext)
  | relate (r : NewRelationship)
  | learn (i : Interaction)
  | retrieve (owner query : String) (limit : Option Int)
  | retrieveContext (owner query : String) (maxLength : Option Nat)
  | consolidate (owner : String) (deadline : Deadline)
  | lifecycle (owner : String) (asOf : Instant) (deadline : Deadline)
  | maintain
  | moveClock (millis : Int)

namespace Operation

/-- The instants that an operation takes for the time: the clock, unless it is only moved, and that
as of which a lifecycle runs. -/
def instants (now : Instant) : Operation → List Instant
  | .lifecycle _ asOf _ => [now, asOf]
  | .moveClock _ => []
  | _ => [now]

theorem now_mem_instants (now : Instant) {op : Operation} (h : ∀ millis, op ≠ .moveClock millis) :
    now ∈ op.instants now := by
  cases op with
  | moveClock millis => exact absurd rfl (h millis)
  | _ => simp [instants]

end Operation

namespace Engine

/-- The store after an operation at the instant `now`. -/
def act (e : Engine) (now : Instant) (s : Store) : Operation → Except Error Store
  | .create r => (·.2) <$> e.create now r s
  | .update id c => (·.2) <$> e.update now id c s
  | .delete id => s.delete id
  | .deleteOwned owner id => deleteOwned owner id s
  | .recordAccess id n => s.recordAccess now id n
  | .addContext id c => (·.2) <$> addContext id c s
  | .relate r => (·.2) <$> relate now r s
  | .learn i => .ok (e.learn now i s).2
  | .retrieve owner query limit => (·.2) <$> e.retrieve now owner query limit s
  | .retrieveContext owner query maxLength =>
    (·.2) <$> e.retrieveContext now owner query maxLength s
  | .consolidate owner deadline => do
    Invalid.raise (Invalid.checkOwner owner)
    (·.2) <$> e.consolidateBy now owner deadline s
  | .lifecycle owner asOf deadline => do
    Invalid.raise (Invalid.checkOwner owner)
    (·.2) <$> e.lifecycleAt now asOf owner deadline s
  | .maintain => .ok (e.maintain now s).2
  | .moveClock _ => .ok s

/-- The clock after an operation. -/
def tick (now : Instant) : Operation → Instant
  | .moveClock millis => ⟨now.millis + millis⟩
  | _ => now

def perform (e : Engine) (op : Operation) (w : World) : World :=
  { store := (e.act w.clock w.store op).toOption.getD w.store
    clock := tick w.clock op }

end Engine

namespace World

def start (clock : Instant) : World := ⟨.empty, clock⟩

/-- Operations of engines that satisfy `p` lead from one world to another. -/
def Runs (p : Engine → Prop) : World → World → Prop :=
  Relation.ReflTransGen fun w w' => ∃ e op, p e ∧ w' = e.perform op w

/-- A run from an empty store leads to the world. -/
def Reached (p : Engine → Prop) (w : World) : Prop := ∃ clock, Runs p (start clock) w

end World

namespace World

/-- Operations of one engine, one after another, are a run. -/
theorem runs_foldl {p : Engine → Prop} {e : Engine} (he : p e) (ops : List Operation) (w : World) :
    Runs p w (ops.foldl (fun w op => e.perform op w) w) := by
  induction ops generalizing w with
  | nil => exact .refl
  | cons op ops ih => exact .head ⟨e, op, he, rfl⟩ (ih _)

end World

/-- The smallest vocabulary. -/
def Config.oneTag : Config := { vocabulary := ["food"] }

/-- The engine of the concrete runs. -/
def Engine.oneTag : Engine := ofUnchecked .oneTag

theorem Engine.ofConfig_oneTag : ofConfig .oneTag = .ok oneTag := rfl

namespace World

/-- What the memories of the concrete runs are made of. -/
def tea (importance : Int) : NewMemory :=
  { owner := "ann"
    content := "tea"
    tags := ["food"]
    type := some .preference
    category := some "personal"
    importance }

/-- A world with one memory, of id 1 and at version 1. -/
def withTea (clock : Instant) (importance : Int) : World :=
  Engine.oneTag.perform (.create (tea importance)) (start clock)

theorem reached_withTea (clock : Instant) (importance : Int) :
    (withTea clock importance).Reached (· = .oneTag) :=
  ⟨clock, .single ⟨.oneTag, _, rfl, rfl⟩⟩

end World

end LongTermMemory
