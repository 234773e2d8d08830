/-!
# Priority queues

A heap is an array in which no entry comes before its parent. The entry at a place
has its children at twice that place and one or two more. Which of two entries
comes first is asked of a comparison, and what needs one that fails fails with it.
-/

namespace CatalogPlan.Heap

variable {α ε : Type} {n : Nat} (before : α → α → Except ε Bool)

def parent (i : Nat) : Nat :=
  (i - 1) / 2

theorem parent_lt (h : top < i) : parent i < i := by
  unfold parent
  omega

theorem parent_lt_size (h : top < i) (hi : i < n) : parent i < n :=
  Nat.lt_trans (parent_lt h) hi

/-- Moves an entry up past the parents that it comes before, no farther than `top`. -/
def rise (top : Nat) (entries : Vector α n) (i : Nat) (hi : i < n) : Except ε (Vector α n) :=
  if h : top < i then do
    if ← before entries[i] (entries.get ⟨parent i, parent_lt_size h hi⟩) then
      rise top (entries.swap i (parent i) hi (parent_lt_size h hi)) (parent i) (parent_lt_size h hi)
    else return entries
  else return entries
termination_by i
decreasing_by exact parent_lt h

def firstChild (entries : Vector α n) (i : Nat) (h : 2 * i + 1 < n) :
    Except ε { c : Nat // i < c ∧ c < n } :=
  if hr : 2 * i + 2 < n then do
    if ← before entries[2 * i + 1] entries[2 * i + 2] then return ⟨2 * i + 1, by omega⟩
    else return ⟨2 * i + 2, by omega⟩
  else return ⟨2 * i + 1, by omega⟩

/-- Moves an entry down past all first children, and from there up to its place. -/
def settle (top : Nat) (entries : Vector α n) (i : Nat) (hi : i < n) : Except ε (Vector α n) :=
  if h : 2 * i + 1 < n then do
    let c ← firstChild before entries i h
    settle top (entries.swap i c.1 hi c.2.2) c.1 c.2.2
  else rise before top entries i hi
termination_by n - i
decreasing_by
  have := c.2
  omega

def settleAll (entries : Vector α n) : (k : Nat) → k ≤ n → Except ε (Vector α n)
  | 0, _ => return entries
  | k + 1, h => do settleAll (← settle before k entries k h) k (Nat.le_of_succ_le h)

def ofList (xs : List α) : Except ε (Array α) := do
  let entries := xs.toArray.toVector
  return (← settleAll before entries (xs.toArray.size / 2) (Nat.div_le_self ..)).toArray

def push (heap : Array α) (x : α) : Except ε (Array α) := do
  return (← rise before 0 (heap.push x).toVector heap.size (by simp)).toArray

theorem size_pop_pos {heap : Array α} (h : 1 < heap.size) : 0 < heap.pop.size := by
  rw [Array.size_pop]
  omega

/-- The entries but for the first one, with the last one in its place. -/
def lastFirst (heap : Array α) (h : 1 < heap.size) : Array α :=
  heap.pop.set 0 (heap.back (Nat.zero_lt_of_lt h)) (size_pop_pos h)

theorem size_lastFirst (heap : Array α) (h : 1 < heap.size) :
    (lastFirst heap h).size = heap.size - 1 := by
  rw [lastFirst, Array.size_set, Array.size_pop]

theorem size_lastFirst_pos {heap : Array α} (h : 1 < heap.size) : 0 < (lastFirst heap h).size := by
  rw [size_lastFirst]
  omega

def dropFirst (heap : Array α) (h : 1 < heap.size) : Except ε (Array α) := do
  return (← settle before 0 (lastFirst heap h).toVector 0 (size_lastFirst_pos h)).toArray

def pop? (heap : Array α) : Except ε (Option (α × Array α)) :=
  if h : 1 < heap.size then
    return some (getElem heap 0 (Nat.zero_lt_of_lt h), ← dropFirst before heap h)
  else return heap.back?.map fun x => (x, #[])

end CatalogPlan.Heap
