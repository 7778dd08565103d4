import Mathlib.Logic.Relation
import Vivarium.Proofs.Grid.Rooms
import Vivarium.Proofs.Route.Memo

/-! Walks. A walk goes on through the open exits of one tile after the other until the tile of the
destination. The search answers for all walks from a tile at once: it finds nothing exactly if none
of them meets a wall, and what it finds is a walled exit that one of them meets. -/
namespace Vivarium.WallSearch
variable {F : Type} [Scalar F] {s : WallSearch F} {t u next : s.grid.Tile}
  {hit : Hit F s.grid.extent}

/-! The nearest of several outcomes. -/

theorem nearer_eq_none {best found : s.Found} :
    s.nearer best found = none ↔ best = none ∧ found = none := by
  cases best <;> cases found <;> simp only [nearer, reduceCtorEq, and_self, and_false, false_and]
  split <;> simp

theorem nearer_eq_some {best found : s.Found} (nearer : s.nearer best found = some hit) :
    best = some hit ∨ found = some hit := by
  cases best with
  | none => exact .inr nearer
  | some first =>
    cases found with
    | none => exact .inl nearer
    | some second =>
      simp only [WallSearch.nearer] at nearer
      split at nearer
      · exact .inr nearer
      · exact .inl nearer

theorem nearest_eq_none {α : Type} {outcome : α → s.Found} {exits : List α} {best : s.Found} :
    exits.foldl (fun best e => s.nearer best (outcome e)) best = none ↔
      best = none ∧ ∀ e ∈ exits, outcome e = none := by
  induction exits generalizing best with
  | nil => simp
  | cons e rest ih => simp [ih, nearer_eq_none, and_assoc]

theorem nearest_eq_some {α : Type} {outcome : α → s.Found} {exits : List α} {best : s.Found}
    (nearest : exits.foldl (fun best e => s.nearer best (outcome e)) best = some hit) :
    best = some hit ∨ ∃ e ∈ exits, outcome e = some hit := by
  induction exits generalizing best with
  | nil => exact .inl nearest
  | cons e rest ih =>
    rcases ih nearest with first | ⟨e', among, hit⟩
    · rcases nearer_eq_some first with before | here
      · exact .inl before
      · exact .inr ⟨e, by simp, here⟩
    · exact .inr ⟨e', by simp [among], hit⟩

/-! One tile. -/

/-- None of the exits is walled. -/
def Open (s : WallSearch F) (t : s.grid.Tile) : Prop :=
  ∀ e ∈ s.exits t, (s.grid.walls t).has e.edge = false

/-- What leads on from a tile. -/
def onward (s : WallSearch F) (t : s.grid.Tile) : Exit F s.course → s.Found :=
  s.through t fun next _ => s.find next

omit [Scalar F] in
theorem blocked_eq_none : s.blocked t (s.exits t) = none ↔ s.Open t := by
  simp [blocked, Open]

theorem find_arrived (arrived : s.goal = some t) : s.find t = none := by
  rw [find_eq_settle, settle, if_pos arrived]

theorem find_blocked (elsewhere : s.goal ≠ some t) (walled : s.blocked t (s.exits t) = some hit) :
    s.find t = some hit := by
  rw [find_eq_settle, settle, if_neg elsewhere]
  simp only [walled]

theorem find_open (elsewhere : s.goal ≠ some t) (unblocked : s.Open t) :
    s.find t = (s.exits t).foldl (fun best e => s.nearer best (s.onward t e)) none := by
  rw [find_eq_settle, settle, if_neg elsewhere]
  simp only [blocked_eq_none.mpr unblocked]
  rfl

/-- An open exit leads to the tile behind it. -/
theorem onward_open {e : Exit F s.course} (free : (s.grid.walls t).has e.edge = false) :
    ∃ next, s.grid.extent.neighbour? t.x t.y e.edge = some next ∧ s.onward t e = s.find next := by
  obtain ⟨next, step⟩ := Grid.exists_behind free
  exact ⟨next, step, through_tile step _⟩

/-- A search without a hit has arrived, or all exits are open and lead on without a hit. -/
theorem find_eq_none (elsewhere : s.goal ≠ some t) :
    s.find t = none ↔ s.Open t ∧ ∀ e ∈ s.exits t, s.onward t e = none := by
  constructor
  · intro free
    have unblocked : s.Open t := by
      rw [← blocked_eq_none, Option.eq_none_iff_forall_ne_some]
      intro hit walled
      cases free.symm.trans (find_blocked elsewhere walled)
    rw [find_open elsewhere unblocked] at free
    exact ⟨unblocked, (nearest_eq_none.mp free).2⟩
  · rintro ⟨unblocked, onward⟩
    rw [find_open elsewhere unblocked]
    exact nearest_eq_none.mpr ⟨rfl, onward⟩

/-- A hit is a walled exit of the tile itself, or what an open exit leads to. -/
theorem find_eq_some (found : s.find t = some hit) :
    s.goal ≠ some t ∧
      ((∃ e ∈ s.exits t, (s.grid.walls t).has e.edge = true ∧ hit = ⟨t, e.edge, e.point⟩) ∨
        ∃ e ∈ s.exits t, (s.grid.walls t).has e.edge = false ∧ s.onward t e = some hit) := by
  have elsewhere : s.goal ≠ some t := by
    intro arrived
    cases (find_arrived arrived).symm.trans found
  refine ⟨elsewhere, ?_⟩
  cases walled : s.blocked t (s.exits t) with
  | some first =>
    obtain rfl := Option.some.inj ((find_blocked elsewhere walled).symm.trans found)
    simp only [blocked, Option.map_eq_some_iff] at walled
    obtain ⟨e, first, rfl⟩ := walled
    exact .inl ⟨e, List.mem_of_find?_eq_some first, by simpa using List.find?_some first, rfl⟩
  | none =>
    have unblocked := blocked_eq_none.mp walled
    rw [find_open elsewhere unblocked] at found
    rcases nearest_eq_some found with nothing | ⟨e, among, onward⟩
    · cases nothing
    · exact .inr ⟨e, among, unblocked e among, onward⟩

/-! Many tiles. -/

/-- A walk goes on from one tile into the other. -/
def Passes (s : WallSearch F) (t next : s.grid.Tile) : Prop :=
  s.goal ≠ some t ∧ ∃ e ∈ s.exits t, (s.grid.walls t).has e.edge = false ∧
    s.grid.extent.neighbour? t.x t.y e.edge = some next

/-- Some walk from the first tile comes to the second. -/
def Walks (s : WallSearch F) : s.grid.Tile → s.grid.Tile → Prop := Relation.ReflTransGen s.Passes

omit [Scalar F] in
theorem Passes.ahead_lt (passes : s.Passes t next) : s.course.ahead next < s.course.ahead t := by
  obtain ⟨-, e, -, -, step⟩ := passes
  exact Course.ahead_lt e.facing step

omit [Scalar F] in
/-- Where the two sides of every edge agree a walk stays in its room. -/
theorem Walks.sameRoom (agrees : s.grid.Agrees) (walks : s.Walks t u) : s.grid.SameRoom t u := by
  induction walks with
  | refl => exact .refl
  | tail _ passes ih =>
    obtain ⟨-, e, -, free, step⟩ := passes
    obtain ⟨next, step', joined⟩ := agrees.joined free
    obtain rfl := Option.some.inj (step.symm.trans step')
    exact ih.tail joined

/-- The search finds nothing exactly if no walk meets a wall before it ends. -/
theorem find_eq_none_iff :
    s.find t = none ↔ ∀ u, s.Walks t u → s.goal ≠ some u → s.Open u := by
  constructor
  · intro free u walks
    induction walks using Relation.ReflTransGen.head_induction_on with
    | refl => exact fun elsewhere => ((find_eq_none elsewhere).mp free).1
    | head passes _ ih =>
      obtain ⟨elsewhere, e, among, clear, step⟩ := passes
      have onward := ((find_eq_none elsewhere).mp free).2 e among
      exact ih ((through_tile step _).symm.trans onward)
  · intro unwalled
    generalize ahead : s.course.ahead t = n
    induction n using Nat.strongRecOn generalizing t with
    | _ n ih =>
      by_cases arrived : s.goal = some t
      · exact find_arrived arrived
      · have unblocked := unwalled t .refl arrived
        refine (find_eq_none arrived).mpr ⟨unblocked, fun e among => ?_⟩
        obtain ⟨next, step, same⟩ := onward_open (unblocked e among)
        have passes : s.Passes t next := ⟨arrived, e, among, unblocked e among, step⟩
        rw [same]
        exact ih _ (ahead ▸ passes.ahead_lt) (fun u walks => unwalled u (.head passes walks)) rfl

/-- What the search finds is a walled exit of a tile that a walk comes to. -/
theorem find_walks (found : s.find t = some hit) :
    s.Walks t hit.tile ∧ ∃ e ∈ s.exits hit.tile,
      (s.grid.walls hit.tile).has e.edge = true ∧ hit.edge = e.edge ∧ hit.point = e.point := by
  generalize ahead : s.course.ahead t = n
  induction n using Nat.strongRecOn generalizing t with
  | _ n ih =>
    obtain ⟨elsewhere, ⟨e, among, walled, rfl⟩ | ⟨e, among, free, further⟩⟩ := find_eq_some found
    · exact ⟨.refl, e, among, walled, rfl, rfl⟩
    · obtain ⟨next, step, same⟩ := onward_open free
      have passes : s.Passes t next := ⟨elsewhere, e, among, free, step⟩
      obtain ⟨walks, exit⟩ := ih _ (ahead ▸ passes.ahead_lt) (same.symm.trans further) rfl
      exact ⟨.head passes walks, exit⟩

end Vivarium.WallSearch
