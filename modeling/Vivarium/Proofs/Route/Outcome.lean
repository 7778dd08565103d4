import Vivarium.Proofs.Route.Walks
import Vivarium.Proofs.Scalar.Rounded

/-! What a search answers, said by rules instead of a recursion. The rules name an exit by its place
in the order of testing, so they hold of searches whose tiles propose their exits in that order; apart
from this the exits are arbitrary. Main statement: a search with notes answers as the rules say. -/
namespace Vivarium.WallSearch
variable {F : Type} [Scalar F] {s : WallSearch F} {t : s.grid.Tile} {e : Exit F s.course}
  {found : Exit F s.course → s.Found} {result : s.Found}

/-- Every tile proposes its exits in the order in which edges are tested, no edge twice. -/
def Ordered (s : WallSearch F) : Prop :=
  ∀ t, ((s.exits t).map (·.edge)).Sublist Direction.all

/-- The exit is the first walled one of its tile. -/
structure Blocks (s : WallSearch F) (t : s.grid.Tile) (e : Exit F s.course) : Prop where
  exit : e ∈ s.exits t
  walled : (s.grid.walls t).has e.edge = true
  first : ∀ e' ∈ s.exits t, (s.grid.walls t).has e'.edge = true → e.edge.rank ≤ e'.edge.rank

/-- The square of the distance from the origin to a hit. -/
def reach (s : WallSearch F) (hit : Hit F s.grid.extent) : F := hit.point.squaredDistance s.origin

/-- The result is the nearest of the hits behind the exits, the first of several equally near ones. -/
def Nearest (s : WallSearch F) (t : s.grid.Tile) (found : Exit F s.course → s.Found) :
    s.Found → Prop
  | none => ∀ e ∈ s.exits t, found e = none
  | some hit => ∃ e ∈ s.exits t, found e = some hit ∧
      ∀ e' ∈ s.exits t, ∀ hit', found e' = some hit' →
        ¬s.reach hit' < s.reach hit ∧
          (e'.edge.rank < e.edge.rank → s.reach hit < s.reach hit')

/-- The walk from a tile ends at the destination; or it is stopped by the first walled exit; or it
goes on through all exits, and the nearest of what they lead to counts. -/
inductive Outcome (s : WallSearch F) : s.grid.Tile → s.Found → Prop where
  | arrived {t : s.grid.Tile} : s.goal = some t → Outcome s t none
  | blocked {t : s.grid.Tile} {e : Exit F s.course} : s.goal ≠ some t → s.Blocks t e →
      Outcome s t (some ⟨t, e.edge, e.point⟩)
  | onward {t : s.grid.Tile} {found : Exit F s.course → s.Found} {result : s.Found} :
      s.goal ≠ some t → s.Open t →
      (∀ e ∈ s.exits t, ∀ next, s.grid.extent.neighbour? t.x t.y e.edge = some next →
        Outcome s next (found e)) →
      s.Nearest t found result → Outcome s t result

omit [Scalar F] in
theorem Ordered.ascending (ordered : s.Ordered) (t : s.grid.Tile) :
    (s.exits t).Pairwise (·.edge.rank < ·.edge.rank) := by
  have all : Direction.all.Pairwise (·.rank < ·.rank) := by decide
  have edges := all.sublist (ordered t)
  rwa [List.pairwise_map] at edges

omit [Scalar F] in
/-- A segment leaves a tile through two edges at most. -/
theorem Ordered.exits_few (ordered : s.Ordered) (t : s.grid.Tile) : (s.exits t).length ≤ 2 := by
  have facing : ((s.exits t).map (·.edge)).filter s.course.faces = (s.exits t).map (·.edge) := by
    rw [List.filter_eq_self]
    intro d among
    obtain ⟨e, -, rfl⟩ := List.mem_map.mp among
    exact e.facing
  have ahead : ∀ c : Course, (Direction.all.filter c.faces).length ≤ 2 := by
    rintro ⟨_ | _ | _, _ | _ | _⟩ <;> decide
  have few := ((ordered t).filter s.course.faces).length_le
  rw [facing, List.length_map] at few
  exact few.trans (ahead s.course)

/-! The first walled exit. -/

/-- In a list that ascends in rank the first element of a kind is the one of least rank. -/
theorem find?_eq_some_iff_least {α : Type} {rank : α → Nat} {p : α → Bool} {xs : List α}
    (ascending : xs.Pairwise (rank · < rank ·)) {x : α} :
    xs.find? p = some x ↔ x ∈ xs ∧ p x = true ∧ ∀ y ∈ xs, p y = true → rank x ≤ rank y := by
  induction xs with
  | nil => simp
  | cons a rest ih =>
    rw [List.pairwise_cons] at ascending
    obtain ⟨least, ascending⟩ := ascending
    have further := ih ascending
    cases here : p a with
    | true =>
      rw [List.find?_cons_of_pos here]
      grind
    | false =>
      rw [List.find?_cons_of_neg (by simp [here])]
      grind

omit [Scalar F] in
theorem Ordered.blocked_eq_some (ordered : s.Ordered) {hit : Hit F s.grid.extent} :
    s.blocked t (s.exits t) = some hit ↔ ∃ e, s.Blocks t e ∧ hit = ⟨t, e.edge, e.point⟩ := by
  simp only [blocked, Option.map_eq_some_iff, find?_eq_some_iff_least (ordered.ascending t)]
  constructor
  · rintro ⟨e, ⟨exit, walled, first⟩, rfl⟩
    exact ⟨e, ⟨exit, walled, first⟩, rfl⟩
  · rintro ⟨e, ⟨exit, walled, first⟩, rfl⟩
    exact ⟨e, ⟨exit, walled, first⟩, rfl⟩

/-! The nearest hit. -/

variable [Rounded F]

/-- Keeping the nearer of two hits, exit after exit, leaves the nearest. -/
theorem Ordered.nearest_iff (ordered : s.Ordered) :
    s.Nearest t found result ↔
      (s.exits t).foldl (fun best e => s.nearer best (found e)) none = result := by
  have few := ordered.exits_few t
  have ascending := ordered.ascending t
  have asymm : ∀ {a b : F}, a < b → ¬b < a := Rounded.lt_asymm
  have start : ∀ e, s.nearer none (found e) = found e := fun _ => rfl
  unfold Nearest
  match exits : s.exits t with
  | [] => cases result <;> simp
  | [e] =>
    rw [List.foldl_cons, start, List.foldl_nil]
    cases result with
    | none => simp
    | some hit =>
      simp only [List.mem_singleton]
      grind
  | [e, e'] =>
    have less : e.edge.rank < e'.edge.rank := by simpa [exits] using ascending
    rw [List.foldl_cons, start, List.foldl_cons, List.foldl_nil]
    simp only [List.mem_cons, List.not_mem_nil, or_false]
    cases first : found e with
    | none => cases result <;> grind [nearer]
    | some hit =>
      cases second : found e' with
      | none => cases result <;> grind [nearer]
      | some hit' => cases result <;> grind [nearer, reach]
  | _ :: _ :: _ :: _ => simp [exits] at few

/-! The rules and the search. -/

theorem Outcome.find_eq (ordered : s.Ordered) (outcome : s.Outcome t result) :
    s.find t = result := by
  induction outcome with
  | arrived arrived => exact find_arrived arrived
  | @blocked t e elsewhere blocks =>
    exact find_blocked elsewhere (ordered.blocked_eq_some.mpr ⟨e, blocks, rfl⟩)
  | @onward t found result elsewhere unblocked _ nearest ih =>
    have same : ∀ e ∈ s.exits t, s.onward t e = found e := by
      intro e among
      obtain ⟨next, step, onward⟩ := onward_open (unblocked e among)
      exact onward.trans (ih e among next step)
    rw [find_open elsewhere unblocked, ← ordered.nearest_iff.mp nearest]
    exact List.foldl_ext _ _ _ fun best e among => by rw [same e among]

theorem Ordered.find_outcome (ordered : s.Ordered) (t : s.grid.Tile) : s.Outcome t (s.find t) := by
  generalize ahead : s.course.ahead t = n
  induction n using Nat.strongRecOn generalizing t with
  | _ n ih =>
    by_cases arrived : s.goal = some t
    · rw [find_arrived arrived]
      exact .arrived arrived
    · by_cases unblocked : s.Open t
      · have nearest : s.Nearest t (s.onward t) (s.find t) := by
          rw [ordered.nearest_iff, find_open arrived unblocked]
        refine .onward arrived unblocked ?_ nearest
        intro e among next step
        have passes : s.Passes t next := ⟨arrived, e, among, unblocked e among, step⟩
        rw [onward, through_tile step]
        exact ih _ (ahead ▸ passes.ahead_lt) next rfl
      · rw [← blocked_eq_none, ← ne_eq, Option.ne_none_iff_exists'] at unblocked
        obtain ⟨hit, walled⟩ := unblocked
        obtain ⟨e, blocks, rfl⟩ := ordered.blocked_eq_some.mp walled
        rw [find_blocked arrived walled]
        exact .blocked arrived blocks

/-- The search that takes notes answers as the rules say, and the rules allow one answer. -/
theorem Ordered.trace_eq_iff (ordered : s.Ordered) : s.trace t = result ↔ s.Outcome t result := by
  rw [trace_eq_find]
  constructor
  · rintro rfl
    exact ordered.find_outcome t
  · exact fun outcome => outcome.find_eq ordered

end Vivarium.WallSearch
