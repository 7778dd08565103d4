import Vivarium.Proofs.Grid.WallLists
import Vivarium.Proofs.Sim.Capacities

/-! Building a simulation from what it is given, in any order. Each stage says when it succeeds and with
which error it does not, so a setup is built exactly if every stage accepts, and is otherwise refused for
what its first failing stage found. What is built depends on the last grid, the walls, the last prototype
of each population and the sums of the capacities, and on nothing else of the order. -/
namespace Vivarium
variable {σ μ η : Type}

namespace Setup
variable {setup : Setup σ μ η}

/-! The grid. -/

/-- The grid that was given has the configured size, or there is a vector for the tiles of an open one,
one byte for each. -/
def Fits (setup : Setup σ μ η) : Prop :=
  match setup.grid with
  | some g => g.extent.width = setup.config.width.toNat ∧ g.extent.height = setup.config.height.toNat
  | none => setup.config.width.toNat * setup.config.height.toNat < Machine.vectorLimit

/-- The error for a grid that does not. -/
def misfit (setup : Setup σ μ η) : SimError :=
  match setup.grid with
  | some g => .gridSize g.extent.width g.extent.height setup.config.width.toNat
      setup.config.height.toNat
  | none => .grid (.tooLarge setup.config.width.toNat setup.config.height.toNat)

/-- The grid before the listed walls are added. -/
structure Base (setup : Setup σ μ η) (base : Grid) : Prop where
  given : setup.grid = some base ∨ setup.grid = none ∧ ∃ e, base = .empty e
  width : base.extent.width = setup.config.width.toNat
  height : base.extent.height = setup.config.height.toNat

/-- A valid configuration has a width and a height. -/
theorem valid_size {c : Config} (valid : c.validate = .ok ()) :
    0 < c.width.toNat ∧ 0 < c.height.toNat := by
  have apart : ¬(c.width = 0 ∨ c.height = 0) := fun none => by
    rw [Config.validate, if_pos none] at valid
    cases valid
  rw [not_or, ← UInt32.toNat_inj, ← UInt32.toNat_inj] at apart
  exact ⟨Nat.pos_of_ne_zero apart.1, Nat.pos_of_ne_zero apart.2⟩

theorem baseGrid_spec (valid : setup.config.validate = .ok ()) :
    match setup.baseGrid with
    | .ok base => setup.Fits ∧ setup.Base base
    | .error e => ¬setup.Fits ∧ e = setup.misfit := by
  rw [baseGrid, Fits, misfit]
  cases given : setup.grid with
  | some g =>
    by_cases fits : g.extent.width = setup.config.width.toNat ∧
        g.extent.height = setup.config.height.toNat
    · simp only [if_pos fits]
      exact ⟨fits, .inl given, fits.1, fits.2⟩
    · simp [fits]
  | none =>
    rw [Grid.ofSize, Extent.ofSize, dif_pos (valid_size valid)]
    by_cases fits : setup.config.width.toNat * setup.config.height.toNat < Machine.vectorLimit
    · rw [if_pos (show Extent.area _ < _ from fits)]
      exact ⟨fits, .inr ⟨given, _, rfl⟩, rfl, rfl⟩
    · rw [if_neg (show ¬Extent.area _ < _ from fits)]
      exact ⟨fits, rfl⟩

/-! Building. -/

/-- The tile from which a wall is named is one of the configured size. -/
def Within (setup : Setup σ μ η) (w : Wall) : Prop :=
  w.x < setup.config.width ∧ w.y < setup.config.height

/-- Everything that was given passes its check. -/
structure Acceptable (setup : Setup σ μ η) : Prop where
  config : setup.config.validate = .ok ()
  grid : setup.Fits
  walls : ∀ w ∈ setup.walls, setup.Within w
  populations : ∀ p, about setup.capacities p ≠ [] → about setup.prototypes p ≠ []
  room : ∀ p, setup.Holdable (about setup.capacities p).sum

/-- Why a setup is refused: for what the first check finds that it does not pass. The populations are
checked together. -/
inductive Refused (setup : Setup σ μ η) : SimError → Prop where
  | config {e : ConfigError} : setup.config.validate = .error e → Refused setup (.config e)
  | grid : setup.config.validate = .ok () → ¬setup.Fits → Refused setup setup.misfit
  | wall {before after : List Wall} {w : Wall} : setup.config.validate = .ok () → setup.Fits →
      setup.walls = before ++ w :: after → (∀ v ∈ before, setup.Within v) → ¬setup.Within w →
      Refused setup (.grid (.noTile w.x.toNat w.y.toNat))
  | storage {e : AgentError} : setup.config.validate = .ok () → setup.Fits →
      (∀ w ∈ setup.walls, setup.Within w) → setup.Overdrawn e → Refused setup (.agent e)

/-- The walls of the grid that was given, or of an open one, and those that were listed. -/
structure Walled (setup : Setup σ μ η) (grid : Grid) : Prop where
  width : grid.extent.width = setup.config.width.toNat
  height : grid.extent.height = setup.config.height.toNat
  hasWall : ∀ x y d, x < grid.extent.width → y < grid.extent.height →
    (grid.hasWall x y d = true ↔ (Edge.of x y d).OnBorder grid.extent ∨
      (∃ g, setup.grid = some g ∧ g.hasWall x y d = true) ∨ ∃ w ∈ setup.walls, w.edge = .of x y d)

/-- What is built: a simulation before its first step, with the walls, the last prototype of each
population and all the storage that was asked for. -/
structure Begun (setup : Setup σ μ η) (s : Sim σ μ η) : Prop where
  start : ∃ grid, setup.Walled grid ∧ s = {
    config := setup.config
    behavior := setup.behavior
    space := .empty (.ofGrid grid)
    pool := s.pool
    agents := #[]
    slots := ∅
    queues := .empty
    board := .empty
    journal := #[]
    phase := .idle
    step := .zero
    nextId := ⟨0⟩ }
  pool : ∀ p, s.pool.bucket? p =
    (about setup.prototypes p).getLast?.map (.filled p (about setup.capacities p).sum)

theorem Refused.not_acceptable {e : SimError} (refused : setup.Refused e) : ¬setup.Acceptable := by
  intro accepted
  cases refused with
  | config invalid => simp [accepted.config] at invalid
  | grid _ misfits => exact misfits accepted.grid
  | wall _ _ listed _ beyond =>
    exact beyond (accepted.walls _ (listed ▸ List.mem_append_right _ List.mem_cons_self))
  | storage _ _ _ overdrawn =>
    cases overdrawn with
    | unknown named unknown => exact accepted.populations _ named unknown
    | noRoom large part => exact large ((accepted.room _).mono part)

section
variable {base grid : Grid} {w : Wall}

theorem Base.inside_iff (based : setup.Base base) : w.inside base.extent = true ↔ setup.Within w := by
  rw [Wall.inside, based.width, based.height, Bool.and_eq_true, decide_eq_true_iff,
    decide_eq_true_iff]
  rfl

theorem Base.walled (based : setup.Base base)
    (inside : ∀ w ∈ setup.walls, w.inside base.extent = true) :
    setup.Walled (base.addWalls setup.walls).1 := by
  have extent : (base.addWalls setup.walls).1.extent = base.extent :=
    (base.addWalls_marked setup.walls).extent
  refine ⟨extent ▸ based.width, extent ▸ based.height, fun x y d wide tall => ?_⟩
  rw [extent] at wide tall
  let t : base.Tile := ⟨⟨x, wide⟩, ⟨y, tall⟩⟩
  rw [extent, ← or_assoc]
  refine (Grid.hasWall_addWalls inside t d).trans (or_congr_left ?_)
  rcases based.given with given | ⟨given, e, rfl⟩
  · have border : (t.edgeOf d).OnBorder base.extent → base.hasWall x y d = true := fun border => by
      rw [Grid.hasWall_tile t d, decide_eq_true border, Bool.or_true]
    simp only [given, Option.some.injEq, exists_eq_left']
    exact (or_iff_right_of_imp border).symm
  · simp only [given, reduceCtorEq, false_and, exists_false, or_false]
    exact Grid.hasWall_empty t d

end

/-- A setup is built or refused. -/
theorem build_verdict (setup : Setup σ μ η) :
    match setup.build with
    | .ok s => setup.Acceptable ∧ setup.Begun s
    | .error e => setup.Refused e := by
  rcases valid : setup.config.validate with e | ⟨⟩
  · simp only [build, valid, bind, Except.bind, Except.mapError]
    exact .config valid
  · have grids := baseGrid_spec valid
    rcases based : setup.baseGrid with e | base
    · simp only [build, valid, based, bind, Except.bind, Except.mapError]
      rw [based] at grids
      obtain ⟨misfits, rfl⟩ := grids
      exact .grid valid misfits
    · rw [based] at grids
      obtain ⟨fits, grids⟩ := grids
      have walls := base.withWalls_spec setup.walls
      rcases walled : base.withWalls setup.walls with e | grid
      · simp only [build, valid, based, walled, bind, Except.bind, Except.mapError]
        rw [walled] at walls
        obtain ⟨before, w, after, listed, inside, beyond, rfl⟩ := walls
        rw [Bool.eq_false_iff, ne_eq, grids.inside_iff] at beyond
        exact .wall valid fits listed (fun v among => grids.inside_iff.mp (inside v among)) beyond
      · rw [walled] at walls
        obtain ⟨inside, rfl⟩ := walls
        have within : ∀ w ∈ setup.walls, setup.Within w := fun w among =>
          grids.inside_iff.mp (inside w among)
        have pools := setup.stockedPool_spec
        rcases stocked : setup.stockedPool with e | pool
        · simp only [build, valid, based, walled, stocked, bind, Except.bind, Except.mapError]
          rw [stocked] at pools
          exact .storage valid fits within pools
        · simp only [build, valid, based, walled, stocked, bind, Except.bind, Except.mapError]
          rw [stocked] at pools
          exact ⟨⟨valid, fits, within, fun p => (pools p).1, fun p => (pools p).2.1⟩,
            ⟨_, grids.walled inside, rfl⟩, fun p => (pools p).2.2⟩

/-! What is given. -/

namespace Input

def grid? : Input σ → Option Grid
  | .grid g => some g
  | _ => none

/-- The walls that an input lists. -/
def listed : Input σ → List Wall
  | .walls list => list
  | .wall w => [w]
  | _ => []

def state? (p : Population) : Input σ → Option σ
  | .prototype q state => if q = p then some state else none
  | _ => none

def amount? (p : Population) : Input σ → Option Nat
  | .capacity q n => if q = p then some n else none
  | _ => none

/-- Inputs that differ in order only, where the order does not matter: the last grid is the same, the
same walls are listed, and each population has the same last prototype and the same capacities. -/
structure Reordered (inputs inputs' : List (Input σ)) : Prop where
  grid : (inputs'.filterMap grid?).getLast? = (inputs.filterMap grid?).getLast?
  walls : (inputs'.flatMap listed).Perm (inputs.flatMap listed)
  state : ∀ p, (inputs'.filterMap (state? p)).getLast? = (inputs.filterMap (state? p)).getLast?
  amounts : ∀ p, (inputs'.filterMap (amount? p)).Perm (inputs.filterMap (amount? p))

theorem Reordered.symm {inputs inputs' : List (Input σ)} (reordered : Reordered inputs inputs') :
    Reordered inputs' inputs where
  grid := reordered.grid.symm
  walls := reordered.walls.symm
  state p := (reordered.state p).symm
  amounts p := (reordered.amounts p).symm

/-- Inputs may be permuted as long as the grids keep their order, and the prototypes of one population
theirs. -/
theorem Reordered.of_perm {inputs inputs' : List (Input σ)} (perm : inputs'.Perm inputs)
    (grids : inputs'.filterMap grid? = inputs.filterMap grid?)
    (states : ∀ p, inputs'.filterMap (state? p) = inputs.filterMap (state? p)) :
    Reordered inputs inputs' where
  grid := congrArg List.getLast? grids
  walls := perm.flatMap_right _
  state p := congrArg List.getLast? (states p)
  amounts _ := perm.filterMap _

end Input

/-- What a setup keeps of its inputs. -/
structure Holds (setup : Setup σ μ η) (inputs : List (Input σ)) : Prop where
  grid : setup.grid = (inputs.filterMap Input.grid?).getLast?
  walls : setup.walls = inputs.flatMap Input.listed
  states : ∀ p, about setup.prototypes p = inputs.filterMap (Input.state? p)
  amounts : ∀ p, about setup.capacities p = inputs.filterMap (Input.amount? p)

theorem Holds.given {inputs : List (Input σ)} (holds : setup.Holds inputs) (input : Input σ) :
    (setup.given input).Holds (inputs ++ [input]) where
  grid := by cases input <;> simp [Setup.given, Input.grid?, holds.grid]
  walls := by cases input <;> simp [Setup.given, Input.listed, holds.walls]
  states p := by
    rw [List.filterMap_append, ← holds.states p]
    cases input with
    | prototype q state =>
      rw [Setup.given, about_append, about_singleton]
      by_cases own : q = p <;> simp [Input.state?, own]
    | _ => simp [Setup.given, Input.state?]
  amounts p := by
    rw [List.filterMap_append, ← holds.amounts p]
    cases input with
    | capacity q n =>
      rw [Setup.given, about_append, about_singleton]
      by_cases own : q = p <;> simp [Input.amount?, own]
    | _ => simp [Setup.given, Input.amount?]

theorem givenAll_holds (config : Config) (behavior : Behavior σ μ η) (agentBytes : Nat)
    (inputs : List (Input σ)) :
    (givenAll { new config behavior with agentBytes } inputs).Holds inputs := by
  induction inputs using List.reverseRecOn with
  | nil => exact ⟨rfl, rfl, fun _ => rfl, fun _ => rfl⟩
  | append_singleton inputs input ih =>
    rw [givenAll, List.foldl_append]
    exact ih.given input

/-- What no input changes. -/
structure SameFrame (setup setup' : Setup σ μ η) : Prop where
  config : setup'.config = setup.config
  behavior : setup'.behavior = setup.behavior
  agentBytes : setup'.agentBytes = setup.agentBytes

theorem givenAll_frame (setup : Setup σ μ η) (inputs : List (Input σ)) :
    setup.SameFrame (setup.givenAll inputs) :=
  List.foldlRecOn (motive := setup.SameFrame) _ _ ⟨rfl, rfl, rfl⟩ fun s same input _ => by
    cases input <;> exact ⟨same.config, same.behavior, same.agentBytes⟩

theorem SameFrame.symm {setup' : Setup σ μ η} (same : setup.SameFrame setup') :
    setup'.SameFrame setup := ⟨same.config.symm, same.behavior.symm, same.agentBytes.symm⟩

theorem SameFrame.trans {setup' setup'' : Setup σ μ η} (first : setup.SameFrame setup')
    (second : setup'.SameFrame setup'') : setup.SameFrame setup'' :=
  ⟨second.config.trans first.config, second.behavior.trans first.behavior,
    second.agentBytes.trans first.agentBytes⟩

section
variable {setup' : Setup σ μ η} {inputs inputs' : List (Input σ)} {s : Sim σ μ η}

theorem Acceptable.reordered (accepted : setup.Acceptable) (holds : setup.Holds inputs)
    (holds' : setup'.Holds inputs') (frame : setup.SameFrame setup')
    (reordered : Input.Reordered inputs inputs') : setup'.Acceptable := by
  have grid : setup'.grid = setup.grid := by rw [holds'.grid, reordered.grid, ← holds.grid]
  refine ⟨frame.config ▸ accepted.config, ?_, ?_, ?_, ?_⟩
  · have fits := accepted.grid
    rw [Fits] at fits ⊢
    rwa [grid, frame.config]
  · intro w among
    rw [Within, frame.config]
    rw [holds'.walls, reordered.walls.mem_iff, ← holds.walls] at among
    exact accepted.walls w among
  · intro p named unknown
    rw [holds'.amounts] at named
    rw [holds'.states, ← List.getLast?_eq_none_iff, reordered.state, ← holds.states,
      List.getLast?_eq_none_iff] at unknown
    refine accepted.populations p (fun none => named ?_) unknown
    rw [holds.amounts] at none
    exact (none ▸ reordered.amounts p).eq_nil
  · intro p
    rw [Holdable, frame.agentBytes, holds'.amounts, (reordered.amounts p).sum_nat, ← holds.amounts]
    exact accepted.room p

theorem build_reordered (holds : setup.Holds inputs) (holds' : setup'.Holds inputs')
    (frame : setup.SameFrame setup') (reordered : Input.Reordered inputs inputs') (built : setup.build = .ok s) :
    ∃ pool, setup'.build = .ok { s with pool } ∧ pool.buckets.Equiv s.pool.buckets := by
  have verdict := setup.build_verdict
  rw [built] at verdict
  obtain ⟨accepted, begun⟩ := verdict
  have verdict' := setup'.build_verdict
  rcases built' : setup'.build with e | s'
  · rw [built'] at verdict'
    exact absurd (accepted.reordered holds holds' frame reordered) verdict'.not_acceptable
  · rw [built'] at verdict'
    obtain ⟨-, begun'⟩ := verdict'
    obtain ⟨base, grid, pool, based, walled, -, rfl⟩ := build_parts built
    obtain ⟨base', grid', pool', based', walled', -, rfl⟩ := build_parts built'
    have same : setup'.grid = setup.grid := by rw [holds'.grid, reordered.grid, ← holds.grid]
    rw [baseGrid, same, frame.config, ← baseGrid, based] at based'
    cases based'
    rw [holds'.walls] at walled'
    rw [holds.walls] at walled
    obtain rfl : grid' = grid := Grid.withWalls_perm reordered.walls walled' walled
    refine ⟨pool', by rw [frame.config, frame.behavior], .of_forall_constGet?_eq fun p => ?_⟩
    refine (begun'.pool p).trans (.trans ?_ (begun.pool p).symm)
    rw [holds'.states, holds'.amounts, holds.states, holds.amounts, reordered.state,
      (reordered.amounts p).sum_nat]

theorem exists_build_iff : (∃ s, setup.build = .ok s) ↔ setup.Acceptable := by
  have verdict := setup.build_verdict
  cases built : setup.build with
  | ok s =>
    rw [built] at verdict
    exact iff_of_true ⟨s, rfl⟩ verdict.1
  | error e =>
    rw [built] at verdict
    exact iff_of_false (by simp) verdict.not_acceptable

end

/-- What a setup is given is all checked, and the order hardly matters. However many bytes an agent
takes, a setup keeps the last grid and everything else as it was given; it is built exactly if all of that
is acceptable, and else refused for what the first check finds; what is built has not begun; and if the
inputs are reordered, the same is built, or nothing again. -/
theorem building_exact (config : Config) (behavior : Behavior σ μ η) (agentBytes : Nat)
    (inputs : List (Input σ)) :
    let blank : Setup σ μ η := { new config behavior with agentBytes }
    let setup := blank.givenAll inputs
    blank.SameFrame setup ∧ setup.Holds inputs ∧
      ((∃ s, setup.build = .ok s) ↔ setup.Acceptable) ∧
      (∀ e, setup.build = .error e → setup.Refused e) ∧
      (∀ s, setup.build = .ok s → setup.Begun s) ∧
      ∀ inputs', Input.Reordered inputs inputs' →
        let setup' := blank.givenAll inputs'
        ((∃ s, setup'.build = .ok s) ↔ ∃ s, setup.build = .ok s) ∧
          ∀ s, setup.build = .ok s →
            ∃ pool, setup'.build = .ok { s with pool } ∧ pool.buckets.Equiv s.pool.buckets := by
  intro blank setup
  have frame := givenAll_frame blank inputs
  have holds : setup.Holds inputs := givenAll_holds config behavior agentBytes inputs
  have verdict := setup.build_verdict
  refine ⟨frame, holds, exists_build_iff, fun e failed => ?_, fun s built => ?_, ?_⟩
  · rwa [failed] at verdict
  · rw [built] at verdict
    exact verdict.2
  · intro inputs' reordered setup'
    have holds' : setup'.Holds inputs' := givenAll_holds config behavior agentBytes inputs'
    have same : setup.SameFrame setup' := frame.symm.trans (givenAll_frame blank inputs')
    refine ⟨?_, fun s built => ?_⟩
    · rw [exists_build_iff, exists_build_iff]
      exact ⟨fun accepted => accepted.reordered holds' holds same.symm reordered.symm,
        fun accepted => accepted.reordered holds holds' same reordered⟩
    · exact build_reordered holds holds' same reordered built

/-- Two tiles with a wall between them, and two populations of which one has storage in two parts; then
the same from the last input to the first. -/
theorem building_exact_reversed :
    let inputs : List (Input Unit) := [.capacity "ant" 1, .prototype "bee" (), .walls [⟨0, 0, .east⟩],
      .prototype "ant" (), .wall ⟨1, 0, .west⟩, .capacity "ant" 2]
    let setup : Setup Unit Unit Unit := (new (.sized 2 1) .passive).givenAll inputs
    let setup' : Setup Unit Unit Unit := (new (.sized 2 1) .passive).givenAll inputs.reverse
    ∃ s, setup.build = .ok s ∧ s.pool.available "ant" = 3 ∧
      ∃ pool, setup'.build = .ok { s with pool } ∧ pool.buckets.Equiv s.pool.buckets := by
  intro inputs setup setup'
  obtain ⟨s, built, storage⟩ : ∃ s, setup.build = .ok s ∧ s.pool.available "ant" = 3 :=
    ⟨_, rfl, by decide +kernel⟩
  have reordered : Input.Reordered inputs inputs.reverse := by
    refine .of_perm inputs.reverse_perm rfl fun p => ?_
    by_cases ant : "ant" = p
    · subst ant
      rfl
    · simp [inputs, List.filterMap_cons, Input.state?, ant]
  obtain ⟨-, -, -, -, -, again⟩ := building_exact (.sized 2 1) .passive Agent.bareBytes inputs
  exact ⟨s, built, storage, (again _ reordered).2 s built⟩

/-- Nothing is wrong with what is given, but there is no vector for that many tiles. -/
theorem building_oversized :
    let setup : Setup Unit Unit Unit := (new (.sized 4294967295 4294967295) .passive).givenAll []
    setup.config.validate = .ok () ∧ setup.grid = none ∧ setup.walls = [] ∧ setup.capacities = [] ∧
      setup.build = .error (.grid (.tooLarge 4294967295 4294967295)) :=
  ⟨rfl, rfl, rfl, rfl, rfl⟩

end Setup
end Vivarium
