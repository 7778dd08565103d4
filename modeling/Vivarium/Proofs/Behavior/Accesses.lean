import Mathlib.Tactic.Common
import Vivarium.Behavior.Basic

/-! What accesses find and leave. While agents act nothing moves, so there are only two pictures of the
positions: the one from before the step, and the one that the first query by distance takes if that is
outdated. Queries answer the same with either; who looks at their flag and their count can tell them
apart. -/
namespace Vivarium

namespace Space
variable (s : Space Float)

/-- The picture that agents find, before and after it was brought up to date. -/
def picture (taken : Bool) : SpatialIndex Float := if taken then s.refreshed.index else s.index

/-- One of these pictures. -/
def Views (index : SpatialIndex Float) : Prop := ∃ taken, index = s.picture taken

/-- The picture stays as it is, or a new one is taken. -/
def Retakes (index index' : SpatialIndex Float) : Prop := index' = index ∨ index' = s.picture true

theorem picture_true : s.picture true = s.refreshed.index := rfl

/-- A picture that is up to date is not taken again. -/
theorem refreshed_refreshed : s.refreshed.refreshed = s.refreshed := by
  cases old : s.index.outdated <;> simp [refreshed, SpatialIndex.refreshed, old]

/-- Whoever brings the picture up to date leaves the same one. -/
theorem refreshed_pictured (taken : Bool) : (s.pictured (s.picture taken)).refreshed = s.refreshed := by
  cases taken with
  | false => rfl
  | true =>
    have same : s.pictured s.refreshed.index = s.refreshed := rfl
    rw [picture_true, same, refreshed_refreshed]

theorem within_pictured (taken : Bool) (center : Point Float) (radius : Float) :
    (s.pictured (s.picture taken)).within center radius =
      ((s.within center radius).1,
        s.pictured (s.picture (taken || decide (Scalar.zero ≤ radius)))) := by
  simp only [within, refreshed_pictured]
  split
  · rename_i known
    rw [decide_eq_true known, Bool.or_true]
    rfl
  · rename_i bare
    rw [decide_eq_false bare, Bool.or_false]

theorem nearest?_pictured (taken : Bool) (center : Point Float) (limit : Nat) :
    (s.pictured (s.picture taken)).nearest? center limit =
      ((s.nearest? center limit).1, s.pictured (s.picture true)) := by
  simp only [nearest?, refreshed_pictured]
  rfl

variable {s} {index index' index'' : SpatialIndex Float}

theorem Retakes.trans (first : s.Retakes index index') (second : s.Retakes index' index'') :
    s.Retakes index index'' := by
  rcases second with rfl | newer
  · exact first
  · exact .inr newer

theorem Retakes.views (retakes : s.Retakes index index') (views : s.Views index) :
    s.Views index' := by
  rcases retakes with rfl | newer
  · exact views
  · exact ⟨true, newer⟩

end Space

namespace Access

/-- The access looks at the positions in the picture, which is then up to date. -/
def surveys : Access → Bool
  | within _ radius => decide (Scalar.zero ≤ radius)
  | nearest _ _ => true
  | _ => false

/-- An answer that the access can get: the board may hold anything, and the picture is one that may be
seen. -/
def Gets (s : Space Float) (seen : Bool → Prop) (a : Access) (answer : a.Answer) : Prop :=
  ∃ board taken, seen taken ∧ (a.perform s ⟨board, s.picture taken⟩).1 = answer

/-- The pictures that may be seen after an access. -/
def leaves (a : Access) (seen : Bool → Prop) : Bool → Prop :=
  if a.surveys then (· = true) else seen

variable {s : Space Float} {seen seen' : Bool → Prop} {a : Access} {x : Commons} {taken : Bool}

/-- What an access does to the picture. -/
theorem perform_index (found : x.index = s.picture taken) (a : Access) :
    (a.perform s x).2.index = s.picture (taken || a.surveys) := by
  obtain ⟨board, index⟩ := x
  obtain rfl : index = s.picture taken := found
  cases a with
  | within center radius =>
    simp only [perform, Space.within_pictured, surveys]
    rfl
  | nearest center limit =>
    simp only [perform, Space.nearest?_pictured, surveys, Bool.or_true]
    rfl
  | _ => simp [perform, surveys]

/-- A query by distance leaves the picture that is up to date, any other access the one that is
there. -/
theorem perform_taken (found : x.index = s.picture taken) (a : Access) :
    (a.surveys = true ∧ (a.perform s x).2.index = s.picture true) ∨
      (a.surveys = false ∧ (a.perform s x).2.index = x.index) := by
  have index := perform_index found a
  cases surveys : a.surveys with
  | true =>
    rw [surveys, Bool.or_true] at index
    exact .inl ⟨rfl, index⟩
  | false =>
    rw [surveys, Bool.or_false, ← found] at index
    exact .inr ⟨rfl, index⟩

theorem perform_gets (found : x.index = s.picture taken) (may : seen taken) (a : Access) :
    a.Gets s seen (a.perform s x).1 := by
  obtain ⟨board, index⟩ := x
  obtain rfl : index = s.picture taken := found
  exact ⟨board, taken, may, rfl⟩

theorem leaves_of_seen (may : seen taken) (a : Access) : a.leaves seen (taken || a.surveys) := by
  rw [leaves]
  split
  · rename_i surveys
    rw [surveys, Bool.or_true]
  · rename_i blind
    rwa [Bool.eq_false_iff.mpr blind, Bool.or_false]

theorem leaves_true (may : seen true) (a : Access) : a.leaves seen true :=
  leaves_of_seen may a

theorem Gets.mono (implies : ∀ taken, seen taken → seen' taken) {answer : a.Answer}
    (gets : a.Gets s seen answer) : a.Gets s seen' answer := by
  obtain ⟨board, taken, may, same⟩ := gets
  exact ⟨board, taken, implies taken may, same⟩

theorem leaves_mono (implies : ∀ taken, seen taken → seen' taken) :
    ∀ taken, a.leaves seen taken → a.leaves seen' taken := by
  intro taken may
  by_cases surveys : a.surveys = true
  · rw [leaves, if_pos surveys] at may ⊢
    exact may
  · rw [leaves, if_neg surveys] at may ⊢
    exact implies taken may

/-- A query by distance has one answer. -/
theorem gets_within {center : Point Float} {radius : Float} {ids : List AgentId}
    (gets : (within center radius).Gets s seen ids) : ids = (s.within center radius).1 := by
  obtain ⟨board, taken, -, rfl⟩ := gets
  simp only [perform, Space.within_pictured]

end Access

namespace Turn
variable {α : Type}

/-- Some answers let the turn end in this result; `surveyed` tells whether it has brought the picture
up to date. -/
inductive Yields (s : Space Float) : (Bool → Prop) → Turn α → Bool → α → Prop where
  | done {seen} (result) : Yields s seen (.done result) false result
  | access {seen a next answer surveyed result} : a.Gets s seen answer →
      Yields s (a.leaves seen) (next answer) surveyed result →
      Yields s seen (.access a next) (a.surveys || surveyed) result

variable {s : Space Float} {seen seen' : Bool → Prop} {t : Turn α} {x : α} {surveyed taken : Bool}

theorem Yields.mono (yields : t.Yields s seen surveyed x)
    (implies : ∀ taken, seen taken → seen' taken) : t.Yields s seen' surveyed x := by
  induction yields generalizing seen' with
  | done x => exact .done x
  | access gets rest ih => exact .access (gets.mono implies) (ih (Access.leaves_mono implies))

/-- A turn that is run yields what it comes to, and leaves the picture as it says. -/
theorem run_yields (t : Turn α) (seen : Bool → Prop) {shared : Commons}
    (found : shared.index = s.picture taken) (may : seen taken) : ∃ surveyed, t.Yields s seen surveyed (t.run s shared).1 ∧
      (t.run s shared).2.index = s.picture (taken || surveyed) := by
  induction t generalizing shared taken seen with
  | done x => exact ⟨false, .done x, by rw [Bool.or_false]; exact found⟩
  | access a next ih =>
    obtain ⟨surveyed, rest, index⟩ :=
      ih _ (a.leaves seen) (Access.perform_index found a) (a.leaves_of_seen may)
    refine ⟨a.surveys || surveyed, .access (Access.perform_gets found may a) rest, ?_⟩
    rw [← Bool.or_assoc]
    exact index

/-- There is always a way for a turn to end. -/
theorem exists_yields (t : Turn α) (s : Space Float) (may : seen taken) :
    ∃ surveyed x, t.Yields s seen surveyed x := by
  have found : (⟨.empty, s.picture taken⟩ : Commons).index = s.picture taken := rfl
  obtain ⟨surveyed, yields, -⟩ := t.run_yields seen found may
  exact ⟨surveyed, _, yields⟩

/-! In the middle of a turn. -/

/-- What is left of the turn `whole` where the picture is `index`: as it can end, the whole turn can. -/
def Remains (s : Space Float) (whole : Turn α) (index : SpatialIndex Float) (t : Turn α) : Prop :=
  ∃ (seen : Bool → Prop) (taken : Bool), seen true ∧ seen taken ∧ index = s.picture taken ∧
    ∀ surveyed x, t.Yields s seen surveyed x →
      ∃ surveyed, whole.Yields s (fun _ => True) surveyed x

variable {whole : Turn α} {index index' : SpatialIndex Float}

theorem remains_whole (views : s.Views index) (t : Turn α) : t.Remains s index t := by
  obtain ⟨taken, found⟩ := views
  exact ⟨fun _ => True, taken, trivial, trivial, found, fun surveyed _ yields => ⟨surveyed, yields⟩⟩

theorem Remains.ends (remains : whole.Remains s index (.done x)) :
    ∃ surveyed, whole.Yields s (fun _ => True) surveyed x := by
  obtain ⟨seen, taken, -, -, -, rest⟩ := remains
  exact rest false x (.done x)

theorem Remains.retakes (remains : whole.Remains s index t) (retakes : s.Retakes index index') :
    whole.Remains s index' t := by
  obtain ⟨seen, taken, new, may, found, rest⟩ := remains
  rcases retakes with rfl | rfl
  · exact ⟨seen, taken, new, may, found, rest⟩
  · exact ⟨seen, true, new, new, rfl, rest⟩

theorem Remains.advance {shared : Commons} (remains : whole.Remains s shared.index t) :
    whole.Remains s (t.advance s shared).2.index (t.advance s shared).1 := by
  obtain ⟨seen, taken, new, may, found, rest⟩ := remains
  cases t with
  | done x => exact ⟨seen, taken, new, may, found, rest⟩
  | access a next =>
    refine ⟨a.leaves seen, _, Access.leaves_true new a, Access.leaves_of_seen may a,
      Access.perform_index found a, fun surveyed x yields => ?_⟩
    exact rest _ x (.access (Access.perform_gets found may a) yields)

theorem advance_retakes (t : Turn α) {shared : Commons} (views : s.Views shared.index) :
    s.Retakes shared.index (t.advance s shared).2.index := by
  obtain ⟨taken, found⟩ := views
  cases t with
  | done x => exact .inl rfl
  | access a next =>
    rcases Access.perform_taken found a with ⟨-, new⟩ | ⟨-, same⟩
    · exact .inr new
    · exact .inl same

theorem run_views (t : Turn α) {shared : Commons} (views : s.Views shared.index) :
    s.Views (t.run s shared).2.index := by
  obtain ⟨taken, found⟩ := views
  obtain ⟨surveyed, -, index⟩ := t.run_yields (fun _ => True) found trivial
  exact ⟨_, index⟩

theorem advance_views (t : Turn α) {shared : Commons} (views : s.Views shared.index) :
    s.Views (t.advance s shared).2.index := (t.advance_retakes views).views views

end Turn
end Vivarium
