import Vivarium.Foraging.Ecology
import Vivarium.Proofs.Behavior.Deeds

/-! What critters do in their turns. Whatever its accesses answer, a critter that starves only gives
itself up and says so; a forager gains what it grazes; a hunter gains one meal for the forager it
has claimed and nothing without a claim; and who has enough energy then gives half of it to a child.
-/
namespace Vivarium.Foraging

theorem lowest?_mem {α : Type} {value : α → Float} {xs : List α} {a : α}
    (lowest : lowest? value xs = some a) : a ∈ xs := by
  cases xs with
  | nil => cases lowest
  | cons x rest =>
    have among : ∀ best, rest.foldl (lowest?.lower value) best ∈ best :: rest := by
      clear lowest
      induction rest with
      | nil => exact fun best => List.mem_singleton_self best
      | cons y rest ih =>
        intro best
        rw [List.foldl_cons]
        rcases List.mem_cons.mp (ih (lowest?.lower value best y)) with first | later
        · rw [first, lowest?.lower]
          split
          · exact .tail _ (.head _)
          · exact .head _
        · exact .tail _ (.tail _ later)
    cases lowest
    exact among x

theorem changeEnergy_ensures {f : Float → Float} {s : Space Float} {d : Draft Critter Alarm Float}
    {Q : List (String × Value) → Unit → Draft Critter Alarm Float → Prop} :
    (changeEnergy f).Ensures s d Q ↔ Q [] () { d with body := { d.body with
      state := { d.body.state with energy := f d.body.state.energy } } } := by
  simp [changeEnergy]

theorem run_changeEnergy_bind {α : Type} {f : Float → Float} {act : CritterAct α}
    {d : Draft Critter Alarm Float} :
    (changeEnergy f >>= fun _ => act).run.run d = act.run.run { d with body := { d.body with
      state := { d.body.state with energy := f d.body.state.energy } } } := rfl

namespace Ecology
variable {p : Ecology} {c : Context} {me : CritterAgent} {here : Projection Float}
  {d : Draft Critter Alarm Float} {s : Space Float} {shared : Commons}

/-- What the metabolism leaves of a critter's energy. -/
def spent (p : Ecology) (a : CritterAgent) : Float := a.state.energy - p.metabolism

def Starves (p : Ecology) (a : CritterAgent) : Prop := p.spent a ≤ 0.0

/-- What a critter keeps of its energy when it has divided, if it has enough to do so. -/
def kept (p : Ecology) (energy : Float) : Float :=
  if p.splitAt ≤ energy then energy - energy / 2.0 else energy

/-- The child of a critter that has enough energy. -/
def children (p : Ecology) (a : CritterAgent) (here : Projection Float) (energy : Float) :
    List (Addition Critter Alarm Float) :=
  if p.splitAt ≤ energy then [⟨a.population, here, some (energy / 2.0), none⟩] else []

/-- The last report of a critter. -/
def starvation (a : CritterAgent) : AgentEvent := ⟨a.id, "ecology", a.population ++ " starved"⟩

/-- What a hunter says of its prey. -/
def caught (prey : AgentId) : String := "caught " ++ prey.text

theorem divide_eq : (p.divide me here).run.run d = .done (.ok (),
    ⟨{ d.body with state := ⟨d.body.state.kind, p.kept d.body.state.energy⟩ },
      d.commands ++ ⟨p.children me here d.body.state.energy, [], [], []⟩⟩) := by
  rw [divide, Act.run_state_bind, kept, children]
  split
  · rw [← Commands.spawn_eq]
    rfl
  · rw [show d.commands ++ ⟨[], [], [], []⟩ = d.commands from Commands.append_empty _]
    rfl

theorem divide_ensures {Q : List (String × Value) → Unit → Draft Critter Alarm Float → Prop} :
    (p.divide me here).Ensures s d Q ↔ Q [] ()
      ⟨{ d.body with state := ⟨d.body.state.kind, p.kept d.body.state.energy⟩ },
        d.commands ++ ⟨p.children me here d.body.state.energy, [], [], []⟩⟩ := by
  rw [Act.Ensures, divide_eq]
  constructor
  · rintro ⟨_, _, holds⟩
    exact holds
  · exact fun holds => ⟨(), rfl, holds⟩

theorem drift_ensures {turn stride : Float} : (drift turn stride).Ensures s d fun won _ d' =>
    won = [] ∧ d'.body.state = d.body.state ∧ d'.commands = d.commands := by
  simp [drift]

theorem forage_ensures : (p.forage c me here).Ensures c.space d fun won _ d' => won = [] ∧
    d'.body.state = ⟨d.body.state.kind, d.body.state.energy + p.graze⟩ ∧
    ∃ mail, d'.commands = d.commands ++ ⟨[], [], mail, []⟩ := by
  have silent : ∃ mail, d.commands = d.commands ++ ⟨[], [], mail, []⟩ :=
    ⟨[], (Commands.append_empty d.commands).symm⟩
  have warns : ∀ m, ∃ mail, d.commands.send m = d.commands ++ ⟨[], [], mail, []⟩ :=
    fun m => ⟨[m], Commands.send_eq _ m⟩
  simp only [forage, Act.ensures_bind, changeEnergy_ensures]
  -- fleeing or drifting, then with a hunter in sight or not
  split <;> simp only [Act.ensures_bind, Act.ensures_setMotion, drift, Act.ensures_draw,
      Act.ensures_visibleNeighbours] <;>
    split <;> simp [Act.send, silent, warns]

theorem catchPrey_ensures {prey : AgentId} : (p.catchPrey me prey).Ensures s d fun won _ d' =>
    won = [] ∧ d'.body.state = d.body.state ∧ d'.commands = d.commands ∨
    won = [(caughtKey prey, .agent me.id)] ∧
      d'.body.state = ⟨d.body.state.kind, d.body.state.energy + p.meal⟩ ∧
      d'.commands = d.commands ++ ⟨[], [prey], [], [⟨me.id, "hunt", caught prey⟩]⟩ := by
  simp [catchPrey, changeEnergy_ensures, Act.remove, Act.report, Commands.remove_report_eq, caught]

theorem hunt_ensures : (p.hunt c me here).Ensures c.space d fun won _ d' =>
    won = [] ∧ d'.body.state = d.body.state ∧ d'.commands = d.commands ∨
    ∃ prey ∈ (c.space.visibleNeighbours me.id p.sight).1, prey.population = forager ∧
      won = [(caughtKey prey.id, .agent me.id)] ∧
      d'.body.state = ⟨d.body.state.kind, d.body.state.energy + p.meal⟩ ∧
      d'.commands = d.commands ++ ⟨[], [prey.id], [], [⟨me.id, "hunt", caught prey.id⟩]⟩ := by
  simp only [hunt, Act.ensures_bind, Act.ensures_visibleNeighbours, List.nil_append]
  split
  case h_2 => exact drift_ensures.mono fun won _ d' idle => .inl idle
  case h_1 prey nearest =>
    obtain ⟨seen, population⟩ := List.mem_filter.mp (lowest?_mem nearest)
    simp only [Act.ensures_ite, Act.ensures_bind, Act.ensures_setMotion]
    constructor
    · intro near
      refine catchPrey_ensures.mono fun won _ d' eats => ?_
      rw [List.append_nil]
      exact eats.imp_right fun eats => ⟨prey, seen, eq_of_beq population, eats⟩
    · intro far
      simp

/-- What a critter does in its turn. -/
inductive Lives (p : Ecology) (c : Context) : Deed Critter Alarm Float → Prop where
  /-- It is nowhere. -/
  | astray {a} : c.projection? a.id = none → Lives p c ⟨a, a.toBody, [], .empty⟩
  | starves {a here} : c.projection? a.id = some here → p.Starves a →
      Lives p c ⟨a, { a.toBody with state := { a.state with energy := p.spent a } }, [],
        ⟨[], [a.id], [], [starvation a]⟩⟩
  | grazes {a here body mail} : c.projection? a.id = some here → ¬p.Starves a →
      a.state.kind = .forager →
      body.state = ⟨.forager, p.kept (p.spent a + p.graze)⟩ →
      Lives p c ⟨a, body, [], ⟨p.children a here (p.spent a + p.graze), [], mail, []⟩⟩
  /-- A hunter without prey. -/
  | seeks {a here body} : c.projection? a.id = some here → ¬p.Starves a → a.state.kind = .hunter →
      body.state = ⟨.hunter, p.kept (p.spent a)⟩ →
      Lives p c ⟨a, body, [], ⟨p.children a here (p.spent a), [], [], []⟩⟩
  | eats {a here body prey} : c.projection? a.id = some here → ¬p.Starves a →
      a.state.kind = .hunter → prey ∈ (c.space.visibleNeighbours a.id p.sight).1 →
      prey.population = forager →
      body.state = ⟨.hunter, p.kept (p.spent a + p.meal)⟩ →
      Lives p c ⟨a, body, [(caughtKey prey.id, .agent a.id)],
        ⟨p.children a here (p.spent a + p.meal), [prey.id], [],
          [⟨a.id, "hunt", caught prey.id⟩]⟩⟩

/-- A critter that starves neither looks at the board nor puts anything there. -/
theorem turn_of_starves {a : CritterAgent} (there : c.projection? a.id = some here)
    (starves : p.Starves a) (buffer : Commands Critter Alarm Float) :
    p.behavior.turn c a buffer = .done (.ok (),
      ⟨{ a.toBody with state := { a.state with energy := p.spent a } },
        buffer ++ ⟨[], [a.id], [], [starvation a]⟩⟩) := by
  show (p.act c a).run.run _ = _
  simp only [act, there, run_changeEnergy_bind, Act.run_state_bind]
  rw [if_pos (show a.state.energy - p.metabolism ≤ 0.0 from starves), ← Commands.remove_report_eq]
  rfl

/-- Every turn is as `Lives` says. -/
theorem abides (p : Ecology) (c : Context) : p.behavior.Abides c (p.Lives c) := by
  intro a buffer
  cases there : c.projection? a.id with
  | none =>
    show (p.act c a).Ensures c.space _ _
    simp only [act, there]
    exact Act.ensures_pure.mpr ⟨.empty, (Commands.append_empty _).symm, .astray there⟩
  | some here =>
    by_cases starves : p.Starves a
    · show (p.behavior.turn c a buffer).Ensures c.space _
      rw [turn_of_starves there starves]
      exact ⟨(), rfl, _, rfl, .starves there starves⟩
    · show (p.act c a).Ensures c.space _ _
      simp only [act, there, Act.ensures_bind, changeEnergy_ensures, Act.ensures_state,
        Act.ensures_ite]
      refine ⟨fun starves' => absurd starves' starves, fun fed => ?_⟩
      cases kind : a.state.kind with
      | forager =>
        simp only [Act.ensures_bind, divide_ensures]
        refine forage_ensures.mono fun won _ d grazed => ?_
        obtain ⟨rfl, state, mail, asked⟩ := grazed
        rw [state]
        refine ⟨⟨_, _, mail, _⟩, ?_, .grazes there fed kind rfl⟩
        rw [asked, Commands.append_assoc]
        simp [Commands.append_eq, spent]
      | hunter =>
        simp only [Act.ensures_bind, divide_ensures]
        refine hunt_ensures.mono fun won _ d hunted => ?_
        rcases hunted with ⟨rfl, state, asked⟩ | ⟨prey, seen, population, rfl, state, asked⟩
        · rw [state]
          refine ⟨_, ?_, .seeks there fed kind rfl⟩
          rw [asked]
          rfl
        · rw [state]
          refine ⟨_, ?_, .eats there fed kind seen population rfl⟩
          rw [asked, Commands.append_assoc]
          simp [Commands.append_eq, spent]

/-! A claim that succeeds. -/

theorem catchPrey_of_unclaimed {prey : AgentId}
    (unclaimed : shared.board.contains (caughtKey prey) = false) :
    ((p.catchPrey me prey).run.run d).run s shared =
      ((.ok (), ⟨{ d.body with state := ⟨d.body.state.kind, d.body.state.energy + p.meal⟩ },
        d.commands ++ ⟨[], [prey], [], [⟨me.id, "hunt", caught prey⟩]⟩⟩),
        ⟨shared.board.put (caughtKey prey) (.agent me.id), shared.index⟩) := by
  have won : shared.board.claim (caughtKey prey) (.agent me.id) =
      (true, shared.board.put (caughtKey prey) (.agent me.id)) := by
    rw [Board.claim, unclaimed]
    rfl
  have claimed : ((Act.claim (caughtKey prey) (.agent me.id) : CritterAct Bool).run.run d).run s
      shared = ((.ok true, d), ⟨shared.board.put (caughtKey prey) (.agent me.id), shared.index⟩) := by
    show ((Except.ok (shared.board.claim _ _).1, d), (⟨(shared.board.claim _ _).2, _⟩ : Commons)) = _
    rw [won]
  rw [← Commands.remove_report_eq, catchPrey, Act.run_of_ok claimed]
  rfl

/-- A hunter that reaches a forager which nobody has claimed eats it. -/
theorem eats_of_unclaimed {a : CritterAgent} {prey : Entry Float}
    (there : c.projection? a.id = some here) (fed : ¬p.Starves a) (hunts : a.state.kind = .hunter)
    (nearest : lowest? (fun e => here.position.squaredDistance e.projection.position)
      ((c.space.visibleNeighbours a.id p.sight).1.filter fun e => e.population == forager) =
        some prey)
    (near : prey.projection.position.distance here.position ≤ p.reach)
    (views : c.space.Views shared.index)
    (unclaimed : shared.board.contains (caughtKey prey.id) = false) :
    ∃ index, p.behavior.perform c a .empty shared =
      (.ok ⟨p.children a here (p.spent a + p.meal), [prey.id], [],
        [⟨a.id, "hunt", caught prey.id⟩]⟩,
      a.withBody { a.toBody with
        motion := .rest, state := ⟨.hunter, p.kept (p.spent a + p.meal)⟩ },
      ⟨shared.board.put (caughtKey prey.id) (.agent a.id), index⟩) := by
  let d : Draft Critter Alarm Float := ⟨{ a.toBody with state := ⟨.hunter, p.spent a⟩ }, .empty⟩
  obtain ⟨index, seen⟩ : ∃ index, ((Act.visibleNeighbours c a.id p.sight :
      CritterAct (List (Entry Float))).run.run d).run c.space shared = _ :=
    Act.run_visibleNeighbours views
  have eaten : ((p.hunt c a here).run.run d).run c.space shared = ((.ok (),
      ⟨{ a.toBody with motion := .rest, state := ⟨.hunter, p.spent a + p.meal⟩ },
        ⟨[], [prey.id], [], [⟨a.id, "hunt", caught prey.id⟩]⟩⟩),
      ⟨shared.board.put (caughtKey prey.id) (.agent a.id), index⟩) := by
    simp only [hunt]
    rw [Act.run_of_ok seen]
    simp only [nearest, if_pos near]
    have still : (⟨shared.board, index⟩ : Commons).board.contains (caughtKey prey.id) = false :=
      unclaimed
    rw [Act.run_of_ok (catchPrey_of_unclaimed still)]
    rfl
  have fed' : ¬a.state.energy - p.metabolism ≤ 0.0 := fed
  have whole : (p.act c a).run.run ⟨a.toBody, .empty⟩ =
      (p.hunt c a here >>= fun _ => p.divide a here).run.run d := by
    simp only [act, there]
    rw [run_changeEnergy_bind, Act.run_state_bind]
    dsimp only
    rw [if_neg fed', hunts]
    rfl
  have acted := (congrArg (·.run c.space shared) whole).trans (Act.run_of_ok eaten)
  rw [divide_eq] at acted
  refine ⟨index, ?_⟩
  simp only [Behavior.perform, Behavior.turn, behavior, acted, Turn.run]
  rfl

end Ecology
end Vivarium.Foraging
