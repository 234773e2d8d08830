/-!
# Sorting by a total preorder

A stable insertion sort that reduces by structural recursion, and the order on
pairs that compares the first components first.
-/

namespace CatalogPlan

def insertBy (le : α → α → Bool) (x : α) : List α → List α
  | [] => [x]
  | y :: rest => if le x y then x :: y :: rest else y :: insertBy le x rest

/-- Sorts a list; elements that compare equal keep their order. -/
def sortBy (le : α → α → Bool) : List α → List α
  | [] => []
  | x :: rest => insertBy le x (sortBy le rest)

def sortOn (le : κ → κ → Bool) (key : α → κ) (xs : List α) : List α :=
  sortBy (fun a b => le (key a) (key b)) xs

/-- The first pair comes before the second or is equal to it: the first
components decide unless they are equal. -/
def lexLe [BEq α] (ltFirst : α → α → Bool) (leSecond : β → β → Bool) (a b : α × β) : Bool :=
  ltFirst a.1 b.1 || (a.1 == b.1 && leSecond a.2 b.2)

def textLe (a b : String) : Bool :=
  decide (a < b) || a == b

def textLt (a b : String) : Bool :=
  decide (a < b)

theorem insertBy_perm (le : α → α → Bool) (x : α) (xs : List α) :
    (insertBy le x xs).Perm (x :: xs) := by
  induction xs with
  | nil => exact .refl _
  | cons y rest ih =>
    unfold insertBy
    split
    · exact .refl _
    · exact (ih.cons y).trans (.swap x y rest)

theorem sortBy_perm (le : α → α → Bool) (xs : List α) : (sortBy le xs).Perm xs := by
  induction xs with
  | nil => exact .refl _
  | cons x rest ih => exact (insertBy_perm le x _).trans (ih.cons x)

end CatalogPlan
