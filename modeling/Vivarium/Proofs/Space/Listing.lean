import Mathlib.Data.List.Perm.Basic
import Vivarium.Space.Listing

/-! The listing of a picture rearranges its positions: none is lost, added or listed twice. Selecting
an element works by swaps and sorts, whatever the comparison; cutting and listing then go by recursion. -/
namespace Vivarium
variable {α : Type}

namespace Selection

theorem swap_perm (xs : Array α) (i j : Nat) : (xs.swapIfInBounds i j).Perm xs := by
  rw [Array.swapIfInBounds_def]
  split
  · split
    · exact Array.swap_perm ‹_› ‹_›
    · exact .rfl
  · exact .rfl

theorem sorted_perm (less : α → α → Bool) (xs : List α) : (sorted less xs).Perm xs :=
  List.mergeSort_perm xs _

theorem sweep_perm (goesBefore : α → Bool) (low i : Nat) (xs : Array α) :
    (sweep goesBefore low i xs).2.Perm xs :=
  (swap_perm _ low i).trans (swap_perm xs (i - 1) low)

theorem sweepAll_perm (goesBefore : α → Bool) (places : List Nat) (low : Nat) (xs : Array α) :
    (sweepAll goesBefore places low xs).2.Perm xs := by
  induction places generalizing low xs with
  | nil => exact .rfl
  | cons i rest ih => exact (ih _ _).trans (sweep_perm goesBefore low i xs)

theorem split_perm (goesBefore : α → α → Bool) (place : Nat) (xs : Array α) :
    (split goesBefore place xs).2.Perm xs := by
  rw [split]
  split
  · exact .rfl
  · rename_i pivot there
    have swept := sweepAll_perm (goesBefore · pivot) (List.range' 2 (xs.size - 1 - 1)) 1
      (xs.swapIfInBounds 0 place)
    exact ((swap_perm _ _ _).trans (swap_perm _ _ _)).trans (swept.trans (swap_perm xs 0 place))

/-- Each round rearranges one of the two parts next to the pivot. -/
theorem narrow_perm (less : α → α → Bool) (rounds : Nat) (floor : Option α) (k : Nat)
    (xs : List α) : (narrow less rounds floor k xs).Perm xs := by
  induction rounds generalizing floor k xs with
  | zero => exact sorted_perm less xs
  | succ rounds ih =>
    rw [narrow]
    split
    · exact sorted_perm less xs
    · extract_lets items place atFloor
      generalize (if atFloor = true then fun a b => !less b a else less) = goesBefore
      have parted : (split goesBefore place items).2.toList.Perm xs :=
        (split_perm goesBefore place items).toList
      generalize split goesBefore place items = parts at parted ⊢
      obtain ⟨mid, rearranged⟩ := parts
      refine List.Perm.trans ?_ parted
      have whole := List.take_append_drop mid rearranged.toList
      dsimp only
      split
      · rename_i none
        rw [none, List.append_nil] at whole
        rw [whole]
      · rename_i pivot right rest
        rw [rest] at whole
        conv_rhs => rw [← whole]
        split
        · exact ((ih _ _ right).cons pivot).append_left _
        · split
          · exact (ih floor k _).append_right _
          · exact .refl _

/-- Bringing an element to its place loses none and adds none. -/
theorem select_perm (less : α → α → Bool) (k : Nat) (xs : List α) : (select less k xs).Perm xs := by
  rw [select]
  split
  · exact (swap_perm xs.toArray _ k).toList
  · exact narrow_perm less 16 none k xs

end Selection

namespace Listing

theorem cut_flatten_perm (less : α → α → Bool) (size fuel : Nat) (xs : List α) :
    (cut less size fuel xs).flatten.Perm xs := by
  induction fuel generalizing xs with
  | zero => simp [cut]
  | succ fuel ih =>
    rw [cut]
    split
    · simp
    · have selected := Selection.select_perm less size xs
      rw [List.flatten_cons]
      refine List.Perm.trans ?_ selected
      conv_rhs => rw [← List.take_append_drop size (Selection.select less size xs)]
      exact (ih _).append_left _

theorem cutInto_flatten_perm (less : α → α → Bool) (parts : Nat) (xs : List α) :
    (cutInto less parts xs).flatten.Perm xs :=
  cut_flatten_perm less _ parts xs

/-- What rearranges each part of a cut rearranges the whole. -/
theorem cutInto_flatMap_perm (less : α → α → Bool) (parts : Nat) {f : List α → List α}
    (each : ∀ part, (f part).Perm part) (xs : List α) :
    ((cutInto less parts xs).flatMap f).Perm xs := by
  refine List.Perm.trans ?_ (cutInto_flatten_perm less parts xs)
  rw [← List.flatMap_id]
  exact List.Perm.flatMap_left _ fun part _ => each part

/-- The listing names every position as often as it was given. -/
theorem listed_perm {F : Type} [Scalar F] (levels : Nat) (all : List (Sighting F)) :
    (listed levels all).Perm all := by
  induction levels generalizing all with
  | zero => exact all.reverse_perm
  | succ levels ih =>
    rw [listed]
    split
    · exact all.reverse_perm
    · apply cutInto_flatMap_perm northOf
      intro slab
      exact cutInto_flatMap_perm westOf _ ih slab

end Listing
end Vivarium
