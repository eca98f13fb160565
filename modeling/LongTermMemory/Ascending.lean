/-!
Finite sets as strictly ascending lists. `insert` keeps a list strictly ascending and adds one
member; `ofList` sorts a list and keeps one of each group of equal members.
-/

namespace LongTermMemory.Ascending

variable {α : Type} [LT α] [DecidableRel (fun a b : α => a < b)]

def insert (a : α) : List α → List α
  | [] => [a]
  | b :: rest =>
    if a < b then a :: b :: rest
    else if b < a then b :: insert a rest
    else b :: rest

def ofList (l : List α) : List α := l.foldr insert []

/-- Each member is less than the next. -/
def Strict : List α → Prop
  | [] => True
  | [_] => True
  | a :: b :: rest => a < b ∧ Strict (b :: rest)

@[simp] theorem insert_nil (a : α) : insert a [] = [a] := rfl

theorem insert_cons (a b : α) (l : List α) : insert a (b :: l) =
    if a < b then a :: b :: l else if b < a then b :: insert a l else b :: l := rfl

@[simp] theorem ofList_nil : ofList ([] : List α) = [] := rfl

@[simp] theorem ofList_cons (a : α) (l : List α) : ofList (a :: l) = insert a (ofList l) := rfl

end LongTermMemory.Ascending
