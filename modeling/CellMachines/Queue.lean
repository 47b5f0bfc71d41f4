/-!
# Queues

A first-in-first-out queue in two lists, so that both ends are reached in
constant time on average; the number of values is kept beside them.  `toList` is
the view of a queue that every operation is explained by: the values from the
oldest to the newest.
-/

namespace CellMachines

/-- A queue whose newer values wait in reverse until the older ones are gone. -/
structure Queue (α : Type) where
  /-- The oldest values, oldest first. -/
  front : List α
  /-- The values after those, newest first. -/
  back : List α
  length : Nat
  length_eq : length = front.length + back.length

namespace Queue

variable {α : Type}

def empty : Queue α := ⟨[], [], 0, rfl⟩

/-- The values from the oldest to the newest. -/
def toList (queue : Queue α) : List α :=
  queue.front ++ queue.back.reverse

/-- Adds a value, which is the newest then. -/
def push (queue : Queue α) (value : α) : Queue α where
  front := queue.front
  back := value :: queue.back
  length := queue.length + 1
  length_eq := by
    have equal := queue.length_eq
    simp only [List.length_cons]
    omega

/-- The queue that hands out the values of a list in order. -/
def ofList (values : List α) : Queue α where
  front := values
  back := []
  length := values.length
  length_eq := rfl

/-- The oldest value and the queue of the others.  The newer ones are turned
around only when none of the older ones is left. -/
def pop? (queue : Queue α) : Option (α × Queue α) :=
  match shape : queue.front with
  | value :: front =>
    some (value, ⟨front, queue.back, queue.length - 1, by
      have equal := queue.length_eq
      simp only [shape, List.length_cons] at equal
      omega⟩)
  | [] =>
    match queue.back.reverse with
    | value :: front => some (value, ofList front)
    | [] => none

@[simp] theorem toList_empty : (empty : Queue α).toList = [] := rfl

@[simp] theorem toList_ofList (values : List α) :
    (ofList values).toList = values := by
  simp [ofList, toList]

@[simp] theorem toList_push (queue : Queue α) (value : α) :
    (queue.push value).toList = queue.toList ++ [value] := by
  simp [push, toList]

@[simp] theorem length_toList (queue : Queue α) :
    queue.toList.length = queue.length := by
  simp [toList, queue.length_eq]

theorem pop?_eq_none_iff {queue : Queue α} :
    queue.pop? = none ↔ queue.toList = [] := by
  unfold pop? toList
  split
  · simp [*]
  · split <;> simp_all

theorem toList_of_pop? {queue rest : Queue α} {value : α}
    (popped : queue.pop? = some (value, rest)) :
    queue.toList = value :: rest.toList := by
  unfold pop? at popped
  split at popped
  · simp only [Option.some.injEq, Prod.mk.injEq] at popped
    obtain ⟨rfl, rfl⟩ := popped
    simp [toList, *]
  · split at popped
    · simp only [Option.some.injEq, Prod.mk.injEq] at popped
      obtain ⟨rfl, rfl⟩ := popped
      simp [toList, ofList, *]
    · simp at popped

end Queue

end CellMachines
