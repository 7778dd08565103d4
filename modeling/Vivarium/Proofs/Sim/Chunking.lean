import Vivarium.Proofs.Sim.Orderly

/-! How the agents are cut into chunks does not show. With heedless behaviours every engine that lets
them act in their order, and with discreet ones every engine, gives the same answers on chunks of every
size and makes the same simulations, as long as no act fails. -/
namespace Vivarium

namespace Sim
variable {σ μ η : Type}

/-- An act made the call fail. -/
def Reply.Broken : Reply σ μ η → Prop
  | .stepped result => Engine.Broken result
  | .ran result => Engine.Broken result
  | _ => False

/-- Two courses have the same answers and, but for the size of the chunks, the same simulations, up to
a call that an act makes fail in both. -/
inductive Accord : List (Reply σ μ η × Sim σ μ η) → List (Reply σ μ η × Sim σ μ η) → Prop where
  | nil : Accord [] []
  | same {r s rest rest'} (chunkSize : UInt64) : Accord rest rest' →
      Accord ((r, s) :: rest) ((r, s.rechunked chunkSize) :: rest')
  | broken {r r' s s' rest rest'} : r.Broken → r'.Broken →
      Accord ((r, s) :: rest) ((r', s') :: rest')

variable {s t t' : Sim σ μ η} {c : Call σ μ η} {chunkSize : UInt64}

/-! Calls that make no steps. -/

theorem Sound.spawn_rechunked (sound : s.Sound) (a : Addition σ μ η) (chunkSize : UInt64) :
    (s.rechunked chunkSize).spawn a = (s.spawn a).map id (·.rechunked chunkSize) := by
  have fits : s.rechunked chunkSize = s.refitted s.behavior chunkSize .empty :=
    (sound.refitted_eq rfl chunkSize).symm
  have spawned : (s.rechunked chunkSize).spawn a =
      (s.spawn a).map id (·.refitted s.behavior chunkSize .empty) := by
    have validated : (s.rechunked chunkSize).validateAddition a = s.validateAddition a := rfl
    have left : (s.rechunked chunkSize).ensureIds 1 = s.ensureIds 1 := rfl
    have idle : (s.rechunked chunkSize).phase = .idle := sound.idle
    rw [Sim.spawn, Sim.spawn, if_neg (not_not_intro sound.idle), if_neg (not_not_intro idle),
      validated, left, fits]
    rcases s.validateAddition a with e | ⟨⟨⟩⟩
    · rfl
    · rcases s.ensureIds 1 with e | ⟨⟨⟩⟩
      · rfl
      · exact activate_refitted rfl a
  obtain ⟨proceeds, sound'⟩ := sound.spawn a
  rw [spawned]
  exact Prod.ext rfl (sound'.refitted_eq proceeds.keeps.behavior chunkSize)

theorem edit?_rechunked (s : Sim σ μ η) (id : AgentId) (f : Agent σ μ → Body σ)
    (chunkSize : UInt64) :
    (s.rechunked chunkSize).edit? id f = (s.edit? id f).map (·.rechunked chunkSize) := by
  have slots : (s.rechunked chunkSize).slots = s.slots := rfl
  have agents : (s.rechunked chunkSize).agents = s.agents := rfl
  simp only [edit?, slots, agents]
  rcases s.slots[id]? with - | slot
  · rfl
  · simp only [Option.bind_eq_bind, Option.bind_some]
    rcases s.agents[slot]? with - | a
    · rfl
    · rfl

theorem Sound.rests_rechunked (sound : s.Sound) (rests : c.Rests) (chunkSize : UInt64) :
    (s.rechunked chunkSize).reply c = s.reply c ∧
      (s.rechunked chunkSize).after c = (s.after c).rechunked chunkSize := by
  cases c with
  | spawn a =>
    simp only [reply, Sim.after, sound.spawn_rechunked]
    exact ⟨rfl, rfl⟩
  | edit id f =>
    simp only [reply, Sim.after, edit?_rechunked, Option.isSome_map]
    rcases s.edit? id f with - | s'
    · exact ⟨trivial, rfl⟩
    · exact ⟨trivial, rfl⟩
  | nextStep => exact rests.elim
  | runSteps n => exact rests.elim
  | run => exact rests.elim
  | _ => exact ⟨rfl, rfl⟩

end Sim

namespace Sim.Engine
variable {σ μ η : Type} {s t t' : Sim σ μ η} {E E' : Engine σ μ η} {c : Call σ μ η}
  {calls : List (Call σ μ η)} {chunkSize : UInt64}

/-- What two engines answer, seen from the program: an act broke both answers, or both are the
program's but for the size of the chunks. -/
def Matching {α : Type} (chunkSize : UInt64) (program out out' : Except SimError α × Sim σ μ η) :
    Prop :=
  (Broken out.1 ∧ Broken out'.1) ∨
    (out = program ∧ out' = program.map id (·.rechunked chunkSize))

/-- With behaviours of a class, the first engine makes of a simulation, and the second one of the same on
other chunks, what the program makes with one worker, unless an act fails. -/
structure Mirrors (allowed : Behavior σ μ η → Prop) (E E' : Engine σ μ η) : Prop where
  step {s chunkSize out out'} : s.Sound → allowed s.behavior → E.Makes s out →
    E'.Makes (s.rechunked chunkSize) out' → Matching chunkSize s.nextStep out out'

theorem Orderly.mirrors (orderly : E.Orderly) (orderly' : E'.Orderly) :
    Mirrors Behavior.Discreet E E' := by
  constructor
  intro s chunkSize out out' sound discreet made made'
  have sound' := sound.rechunked chunkSize
  rcases discreet.allDo_or_fails s.context s.agents.toList with
    ⟨commands, agents, surveyed, all⟩ | fails
  · right
    have again : (s.rechunked chunkSize).behavior.AllDo (s.rechunked chunkSize).context
        (s.rechunked chunkSize).agents.toList commands agents surveyed := all.rechunked chunkSize
    rw [← sound.nextStep_rechunked discreet all chunkSize]
    exact ⟨orderly.acted sound discreet all made, orderly'.acted sound' discreet again made'⟩
  · left
    have again : (s.rechunked chunkSize).behavior.Fails (s.rechunked chunkSize).context
        (s.rechunked chunkSize).agents.toList := fails.rechunked chunkSize
    exact ⟨orderly.failed sound discreet fails made, orderly'.failed sound' discreet again made'⟩

theorem mirrors_of_inOrder (among : E ∈ inOrder) (among' : E' ∈ inOrder) :
    Mirrors Behavior.Heedless E E' := by
  constructor
  intro s chunkSize out out' sound heedless made made'
  have heedless' : (s.rechunked chunkSize).behavior.Heedless := heedless
  rw [makes_of_inOrder among heedless made, makes_of_inOrder among' heedless' made']
  exact .inr ⟨rfl, sound.nextStep_heedless heedless chunkSize⟩

namespace Mirrors
variable {allowed : Behavior σ μ η → Prop}

/-- The steps of both engines end with the same one. -/
theorem steps (mirrors : Mirrors allowed E E') (sound : s.Sound) (may : allowed s.behavior) {n : Nat} {out out' : Except SimError Unit × Sim σ μ η}
    (made : E.Steps s n out) (made' : E'.Steps (s.rechunked chunkSize) n out') :
    Matching chunkSize (s.runSteps n) out out' := by
  induction n generalizing s out out' with
  | zero =>
    cases made
    cases made'
    exact .inr ⟨rfl, rfl⟩
  | succ n ih =>
    obtain ⟨result, t, first, failed, more⟩ := made.succ
    obtain ⟨result', t', first', failed', more'⟩ := made'.succ
    rcases mirrors.step sound may first first' with ⟨broken, broken'⟩ | ⟨same, same'⟩
    · obtain ⟨cause, ⟨⟩⟩ := broken
      obtain ⟨cause', ⟨⟩⟩ := broken'
      rw [failed _ rfl, failed' _ rfl]
      exact .inl ⟨⟨cause, rfl⟩, ⟨cause', rfl⟩⟩
    · obtain ⟨proceeds, sound'⟩ := sound.nextStep
      rw [← same] at same' proceeds sound'
      cases same'
      rw [Sim.runSteps, ← same]
      cases result with
      | error e =>
        rw [failed e rfl, failed' e rfl]
        exact .inr ⟨rfl, rfl⟩
      | ok summary =>
        have may' := proceeds.keeps.behavior ▸ may
        exact ih sound' may' (more summary rfl) (more' summary rfl)

theorem answers (mirrors : Mirrors allowed E E') (sound : s.Sound) (may : allowed s.behavior) {r r' : Reply σ μ η} (made : E.Answers s c (r, t))
    (made' : E'.Answers (s.rechunked chunkSize) c (r', t')) :
    (r.Broken ∧ r'.Broken) ∨
      (r = s.reply c ∧ t = s.after c ∧ r' = r ∧ t' = t.rechunked chunkSize) := by
  -- an answer to steps is broken, or not, as the result it holds
  have wrap : ∀ {α : Type} {program : Except SimError α × Sim σ μ η} {result result'}
      (reply : Except SimError α → Reply σ μ η),
      Matching chunkSize program (result, t) (result', t') →
      (Broken result ∧ Broken result') ∨ (reply result = reply program.1 ∧ t = program.2 ∧
        reply result' = reply result ∧ t' = t.rechunked chunkSize) := by
    rintro α program result result' reply (broken | ⟨rfl, same⟩)
    · exact .inl broken
    · cases same
      exact .inr ⟨rfl, rfl, rfl, rfl⟩
  cases made with
  | rests rests =>
    have other : r' = (s.rechunked chunkSize).reply c ∧ t' = (s.rechunked chunkSize).after c := by
      cases made' with
      | rests => exact ⟨rfl, rfl⟩
      | nextStep => exact rests.elim
      | runSteps => exact rests.elim
      | run => exact rests.elim
    obtain ⟨same, same'⟩ := sound.rests_rechunked rests chunkSize
    exact .inr ⟨rfl, rfl, other.1.trans same, other.2.trans same'⟩
  | nextStep made =>
    cases made' with
    | rests rests => exact rests.elim
    | nextStep made' => exact wrap .stepped (mirrors.step sound may made made')
  | runSteps made =>
    cases made' with
    | rests rests => exact rests.elim
    | runSteps made' => exact wrap .ran (mirrors.steps sound may made made')
  | run made =>
    cases made' with
    | rests rests => exact rests.elim
    | run made' => exact wrap .ran (mirrors.steps sound may made made')

theorem courses (mirrors : Mirrors allowed E E') (sound : s.Sound) (may : allowed s.behavior) {course course' : List (Reply σ μ η × Sim σ μ η)}
    (runs : E.Course s calls course) (runs' : E'.Course (s.rechunked chunkSize) calls course') :
    Accord course course' := by
  induction runs generalizing course' with
  | nil =>
    cases runs'
    exact .nil
  | @cons s t c r calls rest made others ih =>
    cases runs' with
    | @cons _ t' _ r' _ rest' made' others' =>
      rcases mirrors.answers sound may made made' with ⟨broken, broken'⟩ | ⟨rfl, rfl, rfl, rfl⟩
      · exact .broken broken broken'
      · obtain ⟨sound', may'⟩ := sound.after (P := fun s => allowed s.behavior)
          (fun _ proceeds may => proceeds.keeps.behavior ▸ may) may c
        exact .same chunkSize (ih sound' may' others')

end Mirrors
end Sim.Engine

namespace Setup
variable {σ μ η : Type} {setup : Setup σ μ η} {s t : Sim σ μ η} {chunkSize : UInt64}

/-- The same inputs with another size of the chunks. -/
def rechunked (setup : Setup σ μ η) (chunkSize : UInt64) : Setup σ μ η :=
  { setup with config := { setup.config with chunkSize } }

theorem build_rechunked (built : setup.build = .ok s)
    (built' : (setup.rechunked chunkSize).build = .ok t) : t = s.rechunked chunkSize := by
  obtain ⟨base, grid, pool, based, walled, stocked, rfl⟩ := build_parts built
  obtain ⟨base', grid', pool', based', walled', stocked', rfl⟩ := build_parts built'
  obtain rfl : base = base' := Except.ok.inj (based.symm.trans based')
  obtain rfl : grid = grid' := Except.ok.inj (walled.symm.trans walled')
  obtain rfl : pool = pool' := Except.ok.inj (stocked.symm.trans stocked')
  rfl

end Setup

namespace Sim
variable {σ μ η : Type} {setup : Setup σ μ η} {s t : Sim σ μ η} {chunkSize : UInt64}

/-- Both engines answer the calls, and however they do they agree. -/
def Engine.Concur (E E' : Engine σ μ η) (s t : Sim σ μ η) (calls : List (Call σ μ η)) : Prop :=
  (∃ course, E.Course s calls course) ∧ (∃ course', E'.Course t calls course') ∧
    ∀ course course', E.Course s calls course → E'.Course t calls course' → Accord course course'

theorem Engine.Mirrors.concur {allowed : Behavior σ μ η → Prop} {E E' : Engine σ μ η}
    (mirrors : Mirrors allowed E E') (may : allowed setup.behavior) (built : setup.build = .ok s)
    (built' : (setup.rechunked chunkSize).build = .ok t) (calls : List (Call σ μ η)) :
    E.Concur E' s t calls := by
  have same : s.behavior = setup.behavior := by
    obtain ⟨_, _, _, _, _, _, rfl⟩ := Setup.build_parts built
    rfl
  obtain rfl := Setup.build_rechunked built built'
  refine ⟨E.course_exists s calls, E'.course_exists _ calls, fun course course' runs runs' => ?_⟩
  exact mirrors.courses (build_sound built) (same ▸ may) runs runs'

end Sim

/-- Agents that look around in a world of one tile, add those they find to their states and report
it. -/
def Behavior.counting : Behavior Nat Unit Unit where
  act _ a := do
    let found ← Act.within ⟨0.5, 0.5⟩ 1.0
    Act.setState (a.state + found.length)
    Act.report ⟨a.id, a.population, "looked around"⟩
  inherit a _ := a.toBody

theorem Behavior.counting_discreet : Behavior.counting.Discreet := by
  intro c a
  let look : Access := .within ⟨0.5, 0.5⟩ 1.0
  let said : AgentEvent := ⟨a.id, a.population, "looked around"⟩
  refine ⟨.ok (), { a.toBody with state := a.state + (c.space.within ⟨0.5, 0.5⟩ 1.0).1.length },
    ⟨[], [], [], [said]⟩, look.surveys, fun chunkSize buffer surveyed x yields => ?_⟩
  have reported : buffer.report said = buffer ++ ⟨[], [], [], [said]⟩ := by
    simp [Commands.append_eq, Commands.report]
  cases yields with
  | access gets rest =>
    obtain rfl := Access.gets_within gets
    cases rest
    rw [← reported]
    exact ⟨Bool.or_false _, rfl⟩

/-- Agents that count how often they were the first to look around in a step after which somebody had
moved. -/
def Behavior.vying : Behavior Nat Unit Unit where
  act _ a := do
    if ← Act.outdated then Act.setState (a.state + 1)
    let _ ← Act.within ⟨0.5, 0.5⟩ 1.0
  inherit a _ := a.toBody

theorem Behavior.vying_heedless : Behavior.vying.Heedless := by
  intro c a shared
  let look : Access := .within ⟨0.5, 0.5⟩ 1.0
  let counted (first : Bool) : Body Nat := if first then { a.toBody with state := a.state + 1 } else a.toBody
  refine ⟨.ok (), counted shared.index.outdated, .empty, (look.perform c.space shared).2,
    fun chunkSize buffer => ?_⟩
  have turn : Behavior.vying.turn (c.rechunked chunkSize) a buffer = .access .outdated fun first =>
      .access look fun _ => .done (.ok (), ⟨counted first, buffer⟩) := by
    refine congrArg (Turn.access .outdated) (funext fun first => ?_)
    cases first <;> rfl
  rw [turn, Commands.append_empty]
  rfl

namespace Sim

end Sim
end Vivarium
