import Mathlib.Data.List.TakeWhile
import Vivarium.Grid.Direction

/-! Texts for directions. A direction is read from its letter and from its name, in any letter case and with
blanks around it, and from nothing else. -/
namespace Vivarium

/-! Texts with blanks around them. -/

namespace Text

theorem dropWhile_word {word : List Char} (nonempty : word ≠ [])
    (visible : ∀ c ∈ word, isBlank c = false) (rest : List Char) :
    (word ++ rest).dropWhile isBlank = word ++ rest := by
  cases word with
  | nil => exact absurd rfl nonempty
  | cons c word => simp [visible c List.mem_cons_self]

/-- Trimming takes the blanks from both ends of a word, and nothing else. -/
theorem trim_around {before word after : List Char} (blank : ∀ c ∈ before ++ after, isBlank c = true)
    (nonempty : word ≠ []) (visible : ∀ c ∈ word, isBlank c = false) :
    trim (before ++ word ++ after) = word := by
  rw [List.forall_mem_append] at blank
  have back : ∀ c ∈ after.reverse, isBlank c = true := by simpa using blank.2
  have turned : ∀ c ∈ word.reverse, isBlank c = false := by simpa using visible
  have last := dropWhile_word (by simpa using nonempty) turned []
  rw [List.append_nil] at last
  rw [trim, List.append_assoc, List.dropWhile_append_of_pos blank.1, dropWhile_word nonempty visible,
    List.reverse_append, List.dropWhile_append_of_pos back, last, List.reverse_reverse]

/-- What trimming takes away is blank. -/
theorem trim_parts (s : List Char) :
    ∃ before after, s = before ++ trim s ++ after ∧ ∀ c ∈ before ++ after, isBlank c = true := by
  let rest := s.dropWhile isBlank
  refine ⟨s.takeWhile isBlank, (rest.reverse.takeWhile isBlank).reverse, ?_, ?_⟩
  · have front : s.takeWhile isBlank ++ rest = s := List.takeWhile_append_dropWhile
    have back : trim s ++ (rest.reverse.takeWhile isBlank).reverse = rest := by
      rw [trim, ← List.reverse_append, List.takeWhile_append_dropWhile, List.reverse_reverse]
    rw [List.append_assoc, back, front]
  · intro c among
    rcases List.mem_append.mp among with front | back
    · exact List.mem_takeWhile_imp front
    · exact List.mem_takeWhile_imp (List.mem_reverse.mp back)

/-- A blank has no other letter case. -/
theorem toLower_blank {c : Char} (blank : isBlank c = true) : c.toLower = c := by
  have apart : ¬(c.val ≥ 'A'.val ∧ c.val ≤ 'Z'.val) := by
    simp only [isBlank, Bool.or_eq_true, Bool.and_eq_true, decide_eq_true_eq, beq_iff_eq] at blank
    intro ⟨low, high⟩
    have low : 65 ≤ c.toNat := UInt32.le_iff_toNat_le.mp low
    have high : c.toNat ≤ 90 := UInt32.le_iff_toNat_le.mp high
    omega
  exact dif_neg apart

end Text

/-! Names of directions. -/

namespace Direction
variable {d : Direction} {word : List Char}

def name : Direction → String
  | north => "north"
  | east => "east"
  | south => "south"
  | west => "west"

/-- The word is the letter or the name of the direction, in any letter case. -/
def Means (d : Direction) (word : List Char) : Prop :=
  word.map Char.toLower = d.letter.toList.map Char.toLower ∨ word.map Char.toLower = d.name.toList

/-- The text is such a word, with blanks around it. -/
def Spells (d : Direction) (text : String) : Prop :=
  ∃ before word after : List Char, text.toList = before ++ word ++ after ∧
    (∀ c ∈ before ++ after, Text.isBlank c = true) ∧ d.Means word

theorem Means.visible (means : d.Means word) :
    word ≠ [] ∧ ∀ c ∈ word, Text.isBlank c = false := by
  have letters : word.map Char.toLower ≠ [] ∧ (word.map Char.toLower).any Text.isBlank = false := by
    rcases means with same | same <;> rw [same] <;> cases d <;> decide
  refine ⟨by simpa using letters.1, fun c among => ?_⟩
  rw [Bool.eq_false_iff]
  intro blank
  have there := List.mem_map_of_mem (f := Char.toLower) among
  rw [Text.toLower_blank blank] at there
  exact List.any_eq_false.mp letters.2 c there blank

theorem ofName?_iff_means (s : String) (d : Direction) :
    ofName? s = some d ↔ d.Means (Text.trim s.toList) := by
  rw [ofName?, Means]
  generalize (Text.trim s.toList).map Char.toLower = word
  have reads : ∀ text : String, String.ofList word = text ↔ word = text.toList := fun text => by
    rw [← String.toList_inj, String.toList_ofList]
  split <;> simp only [reads] at *
  case h_9 => cases d <;> simp_all [letter, name]
  all_goals
    subst word
    cases d <;> decide

/-- A text is read as the direction that it spells. -/
theorem ofName?_eq_some {text : String} : ofName? text = some d ↔ d.Spells text := by
  rw [ofName?_iff_means]
  constructor
  · intro means
    obtain ⟨before, after, parts, blank⟩ := Text.trim_parts text.toList
    exact ⟨before, _, after, parts, blank, means⟩
  · rintro ⟨before, word, after, parts, blank, means⟩
    obtain ⟨nonempty, visible⟩ := means.visible
    rwa [parts, Text.trim_around blank nonempty visible]

theorem ofName?_eq_none {text : String} : ofName? text = none ↔ ∀ d : Direction, ¬d.Spells text := by
  simp only [← ofName?_eq_some, Option.eq_none_iff_forall_ne_some, ne_eq]

theorem Spells.unique {d' : Direction} {text : String} (spells : d.Spells text)
    (spells' : d'.Spells text) : d = d' :=
  Option.some.inj ((ofName?_eq_some.mpr spells).symm.trans (ofName?_eq_some.mpr spells'))

end Direction

end Vivarium
