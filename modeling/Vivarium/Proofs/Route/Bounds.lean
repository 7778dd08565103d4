import Mathlib.Data.List.Nodup
import Vivarium.Proofs.Route.Walks
import Vivarium.Route.Terrain

/-! What a search costs. The search carries proofs that its tiles exist and that it always goes on
to a tile with fewer tiles ahead. Here the same search runs without them, on bare coordinates: it is
broken off where it would go too deep or read the walls of no tile, and it writes down what it does.
Main statement: it finds the same hit, is never broken off within as many nested calls as the grid
has columns and rows, and works out the exits of a tile only once. -/
namespace Vivarium

/-! Every tile is settled once. -/

namespace WallSearch
variable {F : Type} [Scalar F] {s : WallSearch F} {t next : s.grid.Tile}
  {notes notes' notes'' : s.Notes}

/-- What is known when the search comes to a tile: the tiles whose exits were worked out are
settled, or they are still open and the search has come from them. -/
structure Notes.Tidy (notes : s.Notes) (t : s.grid.Tile) : Prop where
  once : notes.expanded.Nodup
  expanded : ∀ u ∈ notes.expanded, u ∈ notes.settled ∨ s.course.ahead t < s.course.ahead u

/-- From one state of the notes to a later one: every tile whose exits were worked out in between is
settled. -/
structure Notes.Grows (notes notes' : s.Notes) : Prop where
  once : notes'.expanded.Nodup
  kept : ∀ u ∈ notes.settled, u ∈ notes'.settled
  expanded : ∀ u ∈ notes'.expanded, u ∈ notes.expanded ∨ u ∈ notes'.settled

omit [Scalar F] in
theorem Notes.blank_tidy (t : s.grid.Tile) : (Notes.blank s).Tidy t :=
  ⟨.nil, List.forall_mem_nil _⟩

omit [Scalar F] in
theorem Notes.Tidy.refl (tidy : notes.Tidy t) : notes.Grows notes :=
  ⟨tidy.once, fun _ known => known, fun _ old => .inl old⟩

omit [Scalar F] in
theorem Notes.Grows.trans (first : notes.Grows notes') (second : notes'.Grows notes'') :
    notes.Grows notes'' where
  once := second.once
  kept u known := second.kept u (first.kept u known)
  expanded u among := by
    rcases second.expanded u among with old | settled
    · exact (first.expanded u old).imp_right (second.kept u)
    · exact .inr settled

omit [Scalar F] in
theorem Notes.Grows.tidy (grows : notes.Grows notes') (tidy : notes.Tidy t) : notes'.Tidy t where
  once := grows.once
  expanded u among := by
    rcases grows.expanded u among with old | settled
    · exact (tidy.expanded u old).imp_left (grows.kept u)
    · exact .inl settled

omit [Scalar F] in
/-- A tile that is not settled has not been expanded. -/
theorem Notes.Tidy.new (tidy : notes.Tidy t) (unsettled : t ∉ notes.settled) :
    (t :: notes.expanded).Nodup := by
  refine List.nodup_cons.mpr ⟨fun among => ?_, tidy.once⟩
  exact (tidy.expanded t among).elim unsettled (Nat.lt_irrefl _)

omit [Scalar F] in
/-- While a tile is open the search comes to tiles further on. -/
theorem Notes.Tidy.expand (tidy : notes.Tidy t) (unsettled : t ∉ notes.settled)
    (fewer : s.course.ahead next < s.course.ahead t) :
    Notes.Tidy { notes with expanded := t :: notes.expanded } next where
  once := tidy.new unsettled
  expanded u among := by
    rcases List.mem_cons.mp among with rfl | old
    · exact .inr fewer
    · exact (tidy.expanded u old).imp_right (Nat.lt_trans fewer)

omit [Scalar F] in
/-- Whatever it is settled with, a tile that was expanded is settled then. -/
theorem Notes.Grows.settle
    (grows : Notes.Grows { notes with expanded := t :: notes.expanded } notes') (found : s.Found) :
    notes.Grows { notes' with settled := notes'.settled.insert t found } where
  once := grows.once
  kept u known := Std.HashMap.mem_insert.mpr (.inr (grows.kept u known))
  expanded u among := by
    rcases grows.expanded u among with here | settled
    · rcases List.mem_cons.mp here with rfl | old
      · exact .inr Std.HashMap.mem_insert_self
      · exact .inl old
    · exact .inr (Std.HashMap.mem_insert.mpr (.inr settled))

/-- What is asked of the calls for the tiles further on. -/
def Orderly (s : WallSearch F) (t : s.grid.Tile)
    (onward : (next : s.grid.Tile) → s.course.ahead next < s.course.ahead t →
      s.Notes → s.Found × s.Notes) : Prop :=
  ∀ next fewer notes, Notes.Tidy notes next → notes.Grows (onward next fewer notes).2

theorem throughAll_grows {onward : (next : s.grid.Tile) → s.course.ahead next < s.course.ahead t →
      s.Notes → s.Found × s.Notes} (orderly : s.Orderly t onward) (exits : List (Exit F s.course))
    (best : s.Found) (once : notes.expanded.Nodup)
    (tidy : ∀ next, s.course.ahead next < s.course.ahead t → notes.Tidy next) :
    notes.Grows (s.throughAll t onward exits best notes).2 := by
  induction exits generalizing best notes with
  | nil => exact ⟨once, fun _ known => known, fun _ old => .inl old⟩
  | cons e rest ih =>
    simp only [throughAll]
    split
    · rename_i next behind
      have fewer := Course.ahead_lt e.facing behind
      have grows := orderly next fewer notes (tidy next fewer)
      exact grows.trans (ih _ grows.once fun other fewer => grows.tidy (tidy other fewer))
    · exact ih _ once tidy

theorem settleNoting_grows {onward : (next : s.grid.Tile) → s.course.ahead next < s.course.ahead t →
      s.Notes → s.Found × s.Notes} (orderly : s.Orderly t onward) (tidy : notes.Tidy t) :
    notes.Grows (s.settleNoting t onward notes).2 := by
  rw [settleNoting]
  split
  · exact tidy.refl
  · split
    · exact tidy.refl
    · rename_i unknown
      have unsettled : t ∉ notes.settled := by
        intro settled
        rw [Std.HashMap.getElem?_eq_some_getElem settled] at unknown
        cases unknown
      have once := tidy.new unsettled
      refine Notes.Grows.settle ?_ _
      cases s.blocked t (s.exits t) with
      | some hit => exact ⟨once, fun _ known => known, fun _ old => .inl old⟩
      | none =>
        exact throughAll_grows orderly (s.exits t) none once fun _ fewer =>
          tidy.expand unsettled fewer

theorem traceWithin_grows (n : Nat) (t : s.grid.Tile) (bound : s.course.ahead t ≤ n)
    (tidy : notes.Tidy t) : notes.Grows (s.traceWithin n t bound notes).2 := by
  induction n generalizing t notes with
  | zero =>
    refine settleNoting_grows (fun next fewer => ?_) tidy
    omega
  | succ n ih => exact settleNoting_grows (fun next fewer notes tidy => ih next _ tidy) tidy

/-- No tile is expanded twice. -/
theorem traceNoting_once (t : s.grid.Tile) : (s.traceNoting t).2.expanded.Nodup :=
  (traceWithin_grows _ t (Nat.le_refl _) (Notes.blank_tidy t)).once

end WallSearch

/-! The search on bare coordinates. -/

/-- The coordinates of a tile. -/
def Extent.Tile.bare {e : Extent} (t : e.Tile) : Nat × Nat := (t.x, t.y)

theorem Extent.Tile.bare_inj {e : Extent} {t u : e.Tile} : t.bare = u.bare ↔ t = u := by
  refine ⟨fun same => ?_, congrArg _⟩
  obtain ⟨hx, hy⟩ := Prod.mk.inj same
  exact ext_index hx hy

/-- A hit; whether its tile exists is left open. -/
structure BareHit (F : Type) where
  tile : Nat × Nat
  edge : Direction
  point : Point F

def Hit.bare {F : Type} {e : Extent} (h : Hit F e) : BareHit F := ⟨h.tile.bare, h.edge, h.point⟩

/-- An edge through which a search goes on. -/
structure Passage where
  tile : Nat × Nat
  edge : Direction
  deriving DecidableEq

/-- Why a search is broken off. -/
inductive Breakdown where
  /-- More calls are nested in each other than are allowed. -/
  | tooDeep
  /-- Walls were read that no tile has. -/
  | noTile (tile : Nat × Nat)

/-- What a search on bare coordinates did, the latest first. -/
structure Survey (F : Type) where
  settled : Std.HashMap (Nat × Nat) (Option (BareHit F))
  /-- The tiles for which it was called. -/
  visited : List (Nat × Nat)
  /-- The tiles whose exits were worked out. -/
  expanded : List (Nat × Nat)
  /-- The exits behind which it was called again. -/
  passages : List Passage
  /-- The exits that had neither a wall nor a tile behind them. -/
  strays : List Passage

namespace Survey
variable {F : Type}

def blank : Survey F := ⟨∅, [], [], [], []⟩

def visit (r : Survey F) (tile : Nat × Nat) : Survey F := { r with visited := tile :: r.visited }

def expand (r : Survey F) (tile : Nat × Nat) : Survey F := { r with expanded := tile :: r.expanded }

def pass (r : Survey F) (p : Passage) : Survey F := { r with passages := p :: r.passages }

def stray (r : Survey F) (p : Passage) : Survey F := { r with strays := p :: r.strays }

def settle (r : Survey F) (tile : Nat × Nat) (found : Option (BareHit F)) : Survey F :=
  { r with settled := r.settled.insert tile found }

end Survey

abbrev Probe (F : Type) := Except Breakdown (Option (BareHit F) × Survey F)

/-- The hit nearer to the origin; of two equally near ones the first. -/
def BareHit.nearer {F : Type} [Scalar F] (origin : Point F) :
    Option (BareHit F) → Option (BareHit F) → Option (BareHit F)
  | none, found => found
  | some best, none => some best
  | some best, some found =>
    if found.point.squaredDistance origin < best.point.squaredDistance origin then some found
    else some best

namespace WallSearch
variable {F : Type} [Scalar F]

/-- Going on through every exit. -/
def probeAll (s : WallSearch F) (tile : Nat × Nat) (onward : Nat × Nat → Survey F → Probe F) :
    List (Exit F s.course) → Option (BareHit F) → Survey F → Probe F
  | [], best, r => .ok (best, r)
  | e :: rest, best, r =>
    match s.grid.extent.neighbour? tile.1 tile.2 e.edge with
    | some next =>
      match onward next.bare (r.pass ⟨tile, e.edge⟩) with
      | .error b => .error b
      | .ok (found, r) => s.probeAll tile onward rest (BareHit.nearer s.origin best found) r
    | none =>
      s.probeAll tile onward rest (BareHit.nearer s.origin best (some ⟨tile, e.edge, e.point⟩))
        (r.stray ⟨tile, e.edge⟩)

/-- The search from a tile, at most so many calls deep, with exits for all coordinates. -/
def probe (s : WallSearch F) (exits : Nat × Nat → List (Exit F s.course)) :
    Nat → Nat × Nat → Survey F → Probe F
  | 0, _, _ => .error .tooDeep
  | depth + 1, tile, r =>
    let r := r.visit tile
    if s.goal.map (·.bare) = some tile then .ok (none, r)
    else
      match r.settled[tile]? with
      | some known => .ok (known, r)
      | none =>
        let r := r.expand tile
        match s.grid.slotWalls? tile.1 tile.2 with
        | none => .error (.noTile tile)
        | some walls =>
          match (exits tile).find? fun e => walls.has e.edge with
          | some e =>
            let hit := some ⟨tile, e.edge, e.point⟩
            .ok (hit, r.settle tile hit)
          | none =>
            match s.probeAll tile (s.probe exits depth) (exits tile) none r with
            | .error b => .error b
            | .ok (found, r) => .ok (found, r.settle tile found)

/-! The bare search does what the guarded one does. -/

variable {s : WallSearch F} {t : s.grid.Tile} {r : Survey F} {notes : s.Notes} {best : s.Found}

/-- An exit ahead, from one tile of the grid to another one. -/
def Leads (s : WallSearch F) (p : Passage) : Prop :=
  s.course.faces p.edge = true ∧ p.tile.1 < s.grid.extent.width ∧ p.tile.2 < s.grid.extent.height ∧
    ∃ next, s.grid.extent.neighbour? p.tile.1 p.tile.2 p.edge = some next

/-- The survey tells what the notes of the guarded search tell, and does not leave the grid. -/
structure Records (r : Survey F) (notes : s.Notes) : Prop where
  settled : ∀ t : s.grid.Tile, r.settled[t.bare]? = notes.settled[t]?.map (·.map Hit.bare)
  expanded : r.expanded = notes.expanded.map (·.bare)
  visited : ∀ v ∈ r.visited, v.1 < s.grid.extent.width ∧ v.2 < s.grid.extent.height
  passages : ∀ p ∈ r.passages, s.Leads p
  strays : r.strays = []

omit [Scalar F] in
theorem blank_records : Records .blank (.blank s) := by
  refine ⟨fun t => ?_, rfl, List.forall_mem_nil _, List.forall_mem_nil _, rfl⟩
  simp [Survey.blank, Notes.blank]

namespace Records

omit [Scalar F] in
theorem visit (records : Records r notes) (t : s.grid.Tile) : Records (r.visit t.bare) notes :=
  { records with visited := List.forall_mem_cons.mpr ⟨⟨t.x.isLt, t.y.isLt⟩, records.visited⟩ }

omit [Scalar F] in
theorem expand (records : Records r notes) (t : s.grid.Tile) :
    Records (r.expand t.bare) { notes with expanded := t :: notes.expanded } :=
  { records with expanded := congrArg (t.bare :: ·) records.expanded }

omit [Scalar F] in
theorem pass (records : Records r notes) {p : Passage} (leads : s.Leads p) :
    Records (r.pass p) notes :=
  { records with passages := List.forall_mem_cons.mpr ⟨leads, records.passages⟩ }

omit [Scalar F] in
theorem settle (records : Records r notes) (t : s.grid.Tile) (found : s.Found) :
    Records (r.settle t.bare (found.map Hit.bare))
      { notes with settled := notes.settled.insert t found } :=
  { records with
    settled := fun u => by
      simp only [Survey.settle, Std.HashMap.getElem?_insert, beq_iff_eq, Extent.Tile.bare_inj]
      split
      · rfl
      · exact records.settled u }

end Records

theorem nearer_bare (best found : s.Found) :
    BareHit.nearer s.origin (best.map Hit.bare) (found.map Hit.bare) =
      (s.nearer best found).map Hit.bare := by
  cases best with
  | none => rfl
  | some best =>
    cases found with
    | none => rfl
    | some found => exact (apply_ite (Option.map Hit.bare) _ (some found) (some best)).symm

theorem throughAll_tile {next : s.grid.Tile} {e : Exit F s.course} {rest : List (Exit F s.course)}
    (behind : s.grid.extent.neighbour? t.x t.y e.edge = some next)
    (onward : (next : s.grid.Tile) → s.course.ahead next < s.course.ahead t →
      s.Notes → s.Found × s.Notes) :
    s.throughAll t onward (e :: rest) best notes =
      s.throughAll t onward rest
        (s.nearer best (onward next (Course.ahead_lt e.facing behind) notes).1)
        (onward next (Course.ahead_lt e.facing behind) notes).2 := by
  rw [throughAll]
  split
  · rename_i other found
    obtain rfl := Option.some.inj (found.symm.trans behind)
    rfl
  · rename_i outside
    cases outside.symm.trans behind

/-- A bare search from a tile that finds what the guarded one finds, and records it. -/
def Traces (s : WallSearch F) (bare : Nat × Nat → Survey F → Probe F) (t : s.grid.Tile)
    (guarded : s.Notes → s.Found × s.Notes) : Prop :=
  ∀ notes r, Records r notes →
    ∃ r', bare t.bare r = .ok ((guarded notes).1.map Hit.bare, r') ∧ Records r' (guarded notes).2

/-- Exits without a wall all have a tile behind them. -/
theorem probeAll_traces {bare : Nat × Nat → Survey F → Probe F}
    {onward : (next : s.grid.Tile) → s.course.ahead next < s.course.ahead t →
      s.Notes → s.Found × s.Notes} (traces : ∀ next fewer, s.Traces bare next (onward next fewer))
    {exits : List (Exit F s.course)} (free : ∀ e ∈ exits, (s.grid.walls t).has e.edge = false)
    (best : s.Found) (records : Records r notes) :
    ∃ r', s.probeAll t.bare bare exits (best.map Hit.bare) r =
        .ok ((s.throughAll t onward exits best notes).1.map Hit.bare, r') ∧
      Records r' (s.throughAll t onward exits best notes).2 := by
  induction exits generalizing best notes r with
  | nil => exact ⟨r, rfl, records⟩
  | cons e rest ih =>
    rw [List.forall_mem_cons] at free
    obtain ⟨next, behind⟩ := Grid.exists_behind free.1
    have leads : s.Leads ⟨t.bare, e.edge⟩ := ⟨e.facing, t.x.isLt, t.y.isLt, next, behind⟩
    obtain ⟨r₁, went, records₁⟩ := traces next (Course.ahead_lt e.facing behind) notes _
      (records.pass leads)
    obtain ⟨r₂, others, records₂⟩ := ih free.2 _ records₁
    rw [throughAll_tile behind]
    refine ⟨r₂, ?_, records₂⟩
    have coordinates : s.grid.extent.neighbour? t.bare.1 t.bare.2 e.edge = some next := behind
    rw [← others, ← nearer_bare]
    simp only [probeAll, coordinates, went]

omit [Scalar F] in
theorem slotWalls?_bare (t : s.grid.Tile) :
    s.grid.slotWalls? t.bare.1 t.bare.2 = some (s.grid.walls t) :=
  dif_pos (Extent.slot_lt_area t.x.isLt t.y.isLt)

/-- One call. -/
theorem probe_settles {exits : Nat × Nat → List (Exit F s.course)}
    (agree : ∀ t : s.grid.Tile, exits t.bare = s.exits t) {depth : Nat}
    {onward : (next : s.grid.Tile) → s.course.ahead next < s.course.ahead t →
      s.Notes → s.Found × s.Notes}
    (traces : ∀ next fewer, s.Traces (s.probe exits depth) next (onward next fewer)) :
    s.Traces (s.probe exits (depth + 1)) t (s.settleNoting t onward) := by
  intro notes r records
  have visited := records.visit t
  have goal : s.goal.map (·.bare) = some t.bare ↔ s.goal = some t := by
    simp [Extent.Tile.bare_inj]
  have walls := slotWalls?_bare t
  simp only [probe, settleNoting, goal, agree, walls]
  by_cases arrived : s.goal = some t
  · simp only [if_pos arrived]
    exact ⟨_, rfl, visited⟩
  · simp only [if_neg arrived]
    have known : (r.visit t.bare).settled[t.bare]? = _ := visited.settled t
    rw [known]
    cases notes.settled[t]? with
    | some found => exact ⟨_, rfl, visited⟩
    | none =>
      have expanded := visited.expand t
      simp only [Option.map_none]
      cases walled : s.blocked t (s.exits t) with
      | some hit =>
        obtain ⟨e, first, rfl⟩ := Option.map_eq_some_iff.mp walled
        simp only [first]
        exact ⟨_, rfl, expanded.settle t (some ⟨t, e.edge, e.point⟩)⟩
      | none =>
        have unwalled := Option.map_eq_none_iff.mp walled
        have free : ∀ e ∈ s.exits t, (s.grid.walls t).has e.edge = false := by
          simpa using List.find?_eq_none.mp unwalled
        obtain ⟨r', went, records'⟩ := probeAll_traces traces free none expanded
        simp only [Option.map_none] at went
        simp only [unwalled, went]
        exact ⟨_, rfl, records'.settle t _⟩

/-- The bare search, allowed one call more than tiles lie ahead. -/
theorem probe_traces (exits : Nat × Nat → List (Exit F s.course))
    (agree : ∀ t : s.grid.Tile, exits t.bare = s.exits t) (n : Nat) (t : s.grid.Tile)
    (bound : s.course.ahead t ≤ n) :
    s.Traces (s.probe exits (n + 1)) t (s.traceWithin n t bound) := by
  induction n generalizing t with
  | zero =>
    refine probe_settles agree fun next fewer => ?_
    omega
  | succ n ih => exact probe_settles agree fun next _ => ih next _

/-- What a bare search from a tile finds and writes down. -/
theorem probe_eq (exits : Nat × Nat → List (Exit F s.course))
    (agree : ∀ t : s.grid.Tile, exits t.bare = s.exits t) (n : Nat) (t : s.grid.Tile)
    (bound : s.course.ahead t ≤ n) :
    ∃ (survey : Survey F) (notes : s.Notes),
      s.probe exits (n + 1) t.bare .blank = .ok ((s.trace t).map Hit.bare, survey) ∧
      Records survey notes ∧ notes.expanded.Nodup := by
  obtain ⟨survey, went, records⟩ := probe_traces exits agree n t bound _ _ blank_records
  rw [(traceWithin_follows n t bound Notes.blank_faithful).1, ← trace_eq_find] at went
  exact ⟨survey, _, went, records, (traceWithin_grows n t bound (Notes.blank_tidy t)).once⟩

end WallSearch

/-- A course never faces both an edge and the one opposite to it. -/
theorem Course.faces_one {c : Course} {d : Direction} (facing : c.faces d = true) :
    c.faces d.opposite = false := by
  cases d <;> simp_all [faces, Direction.opposite]

namespace Grid

/-- Whatever arithmetic works out the exits, and whichever tile of the grid is the first, the bare
search is not broken off within as many nested calls as the grid has columns and rows less one, and
finds the hit of the guarded search. It is called only for tiles of the grid, and goes on only along
the course, never through two opposite edges; no exit without a wall misses the tile behind it, and
the exits of no tile are worked out twice. -/
theorem search_bounded {F : Type} [Scalar F] (g : Grid) (origin destination : Point F)
    (start : g.Tile) :
    let way : Segment F := ⟨origin, destination⟩
    let s := g.searchAlong way
    ∃ survey : Survey F,
      s.probe (fun tile => way.exits tile.1 tile.2) (g.extent.width + g.extent.height - 1)
          start.bare .blank = .ok ((s.trace start).map Hit.bare, survey) ∧
      (∀ tile ∈ survey.visited, tile.1 < g.extent.width ∧ tile.2 < g.extent.height) ∧
      (∀ p ∈ survey.passages, s.Leads p ∧ ∀ p' ∈ survey.passages, p'.edge ≠ p.edge.opposite) ∧
      survey.strays = [] ∧ survey.expanded.Nodup ∧ (s.traceNoting start).2.expanded.Nodup := by
  intro way s
  have columns := g.extent.width_pos
  have rows := g.extent.height_pos
  have depth : g.extent.width + g.extent.height - 1 = g.extent.width + g.extent.height - 2 + 1 := by
    omega
  obtain ⟨survey, notes, went, records, once⟩ := WallSearch.probe_eq (s := s)
    (fun tile => way.exits tile.1 tile.2) (fun _ => rfl) _ start (s.course.ahead_le_size start)
  refine ⟨survey, depth ▸ went, records.visited, fun p among => ⟨records.passages p among, ?_⟩,
    records.strays, ?_, WallSearch.traceNoting_once (s := s) start⟩
  · intro p' among' opposite
    have facing := (records.passages p' among').1
    rw [opposite, Course.faces_one (records.passages p among).1] at facing
    cases facing
  · rw [records.expanded]
    exact List.Nodup.map (fun _ _ same => Extent.Tile.bare_inj.mp same) once

end Grid
end Vivarium
