/-!
Rearranging a list so that the element of a given rank stands at its place, with no larger element
before it and no smaller one after it. Short lists are sorted; in long ones a pivot splits off the
part that the place is in, round after round. Elements that compare equal end up in one definite
order, which the choice of pivots and the way of splitting decide.
-/
namespace Vivarium.Selection
variable {α : Type}

/-- Sorted; elements that compare equal keep their order. -/
def sorted (less : α → α → Bool) (xs : List α) : List α := xs.mergeSort fun a b => !less b a

/-- The one of three places whose element is neither the smallest nor the largest. -/
def median (less : α → α → Bool) (xs : Array α) (a b c : Nat) : Nat :=
  let before i j := match xs[i]?, xs[j]? with
    | some u, some v => less u v
    | _, _ => false
  if before a b == before a c then
    if before b c == before a b then b else c
  else a

/-- The median of three places, each of them first replaced by a median out of the `width` places
from it on while these are many. -/
def spreadMedian (less : α → α → Bool) (xs : Array α) : Nat → Nat → Nat → Nat → Nat → Nat
  | 0, _, a, b, c => median less xs a b c
  | depth + 1, width, a, b, c =>
    if width < 8 then median less xs a b c
    else
      let step := width / 8
      let within i := spreadMedian less xs depth step i (i + step * 4) (i + step * 7)
      median less xs (within a) (within b) (within c)

/-- The place of the element to split at. -/
def pivotPlace (less : α → α → Bool) (xs : Array α) : Nat :=
  let step := xs.size / 8
  spreadMedian less xs xs.size step 0 (step * 4) (step * 7)

/-- One step of splitting. The places from 1 up to `low` hold what goes before the pivot, those from
`low` to `i - 2` what does not; the element met first waits at `i - 1`. The element at `i` joins one
of the two sides. -/
def sweep (goesBefore : α → Bool) (low i : Nat) (xs : Array α) : Nat × Array α :=
  let joins := (xs[i]?.map goesBefore).getD false
  (if joins then low + 1 else low, (xs.swapIfInBounds (i - 1) low).swapIfInBounds low i)

def sweepAll (goesBefore : α → Bool) : List Nat → Nat → Array α → Nat × Array α
  | [], low, xs => (low, xs)
  | i :: rest, low, xs =>
    let (low, xs) := sweep goesBefore low i xs
    sweepAll goesBefore rest low xs

/-- Splits at the element of a place: the number of elements that go before it, and the array with
these in front of it and all others behind it. -/
def split (goesBefore : α → α → Bool) (place : Nat) (xs : Array α) : Nat × Array α :=
  match xs[place]? with
  | none => (0, xs)
  | some pivot =>
    let last := xs.size - 1
    let (low, xs) :=
      sweepAll (goesBefore · pivot) (List.range' 2 (last - 1)) 1 (xs.swapIfInBounds 0 place)
    let joins := (xs[last]?.map (goesBefore · pivot)).getD false
    let before := if joins then low else low - 1
    (before, (xs.swapIfInBounds last low).swapIfInBounds 0 before)

/-- The largest list that is sorted instead of split. -/
def shortSize : Nat := 16

/-- Rounds of splitting around the place of rank `k`, at most `rounds` of them. No element is smaller
than `floor`, so that a pivot not larger than it splits off its equals instead. -/
def narrow (less : α → α → Bool) : Nat → Option α → Nat → List α → List α
  | 0, _, _, xs => sorted less xs
  | rounds + 1, floor, k, xs =>
    if xs.length ≤ shortSize then sorted less xs
    else
      let items := xs.toArray
      let place := pivotPlace less items
      let atFloor := match floor, items[place]? with
        | some f, some pivot => !less f pivot
        | _, _ => false
      let (mid, items) :=
        split (if atFloor then fun a b => !less b a else less) place items
      let left := items.toList.take mid
      match items.toList.drop mid with
      | [] => left
      | pivot :: right =>
        if mid < k then
          let floor := if atFloor then none else some pivot
          left ++ pivot :: narrow less rounds floor (k - mid - 1) right
        else if k < mid && !atFloor then narrow less rounds floor k left ++ pivot :: right
        else left ++ pivot :: right

/-- The place of a largest element, the first of several. -/
def largestPlace (less : α → α → Bool) (xs : List α) : Nat :=
  (xs.zipIdx.foldl (fun best (x, i) => match best with
    | none => some (x, i)
    | some (y, j) => if less y x then some (x, i) else some (y, j)) none).elim 0 (·.2)

/-- Brings the element of rank `k` to its place. -/
def select (less : α → α → Bool) (k : Nat) (xs : List α) : List α :=
  if k + 1 = xs.length then
    (xs.toArray.swapIfInBounds (largestPlace less xs) k).toList
  else narrow less 16 none k xs

end Vivarium.Selection
