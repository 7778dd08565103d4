/-!
Cutting a list into consecutive chunks of a given size, the last one possibly shorter. A size of
zero counts as one.
-/
namespace Vivarium

/-- The elements that still fit into a chunk with the given room, and the chunks after it. -/
def fillChunk {α : Type} (size : Nat) : Nat → List α → List α × List (List α)
  | _, [] => ([], [])
  | 0, x :: xs =>
    let (chunk, rest) := fillChunk size (size - 1) xs
    ([], (x :: chunk) :: rest)
  | room + 1, x :: xs =>
    let (chunk, rest) := fillChunk size room xs
    (x :: chunk, rest)

def chunks {α : Type} (size : Nat) (xs : List α) : List (List α) := (fillChunk size 0 xs).2

theorem fillChunk_flatten {α : Type} (size room : Nat) (xs : List α) :
    (fillChunk size room xs).1 ++ (fillChunk size room xs).2.flatten = xs := by
  induction xs generalizing room with
  | nil => cases room <;> rfl
  | cons x xs ih =>
    cases room with
    | zero => simpa [fillChunk] using ih (size - 1)
    | succ room => simpa [fillChunk] using ih room

/-- Nothing is lost, added or moved. -/
theorem chunks_flatten {α : Type} (size : Nat) (xs : List α) : (chunks size xs).flatten = xs := by
  cases xs with
  | nil => rfl
  | cons x xs => simpa [chunks, fillChunk] using fillChunk_flatten size (size - 1) xs

end Vivarium
