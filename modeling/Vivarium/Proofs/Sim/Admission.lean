import Vivarium.Proofs.Sim.Engine

/-! When a step fails. Every agent has to act, every birth has to be admitted, and there have to be
ids for all of them; nothing else is asked. A birth that is not admitted blocks the steps until the
queues are emptied, because no call can make it admitted. -/
namespace Vivarium.Sim
variable {σ μ η : Type} {s s' : Sim σ μ η} {a : Addition σ μ η} {commands : Commands σ μ η}
  {agents : List (Agent σ μ)} {shared : Commons} {turns : Outcome σ μ η}

/-- What is asked of a step. -/
theorem Sound.finish_succeeds (sound : s.Sound) (allows : s.Allows turns) :
    (∃ summary s', s.finish modify turns = (.ok summary, s')) ↔
      ∃ commands, turns.1 = .ok commands ∧ s.validateQueued commands = .ok () := by
  constructor
  · rintro ⟨summary, s', completed⟩
    obtain ⟨commands, newborns, acted, valid, -⟩ := sound.finish_completed allows completed
    exact ⟨commands, acted, valid⟩
  · rintro ⟨commands, acted, valid⟩
    obtain ⟨result, agents, shared⟩ := turns
    obtain rfl : result = .ok commands := acted
    rw [finish_of_accepted valid]
    obtain ⟨summary, s', completed, -⟩ := sound.concluded_of_valid allows.rewritten shared valid
    exact ⟨summary, s', completed⟩

/-- Agents that never act cannot make a step fail. -/
theorem Sound.idle_step (sound : s.Sound) (idle : ∀ c a, s.behavior.act c a = pure ())
    (admitted : ∀ a ∈ s.queues.additions, s.Admits a)
    (left : s.queues.additions.length ≤ s.nextId.remaining) :
    s.execute = (.ok .empty, s.agents.toList, s.commons) ∧
      ∃ summary s', s.nextStep = (.ok summary, s') := by
  have acts : s.execute = (.ok .empty, s.agents.toList, s.commons) := by
    rw [execute, Behavior.performChunks_of_idle idle, chunks_flatten]
  have valid : s.validateQueued .empty = .ok () := by
    rw [validateQueued_eq_ok]
    simpa [Commands.empty] using ⟨admitted, left⟩
  exact ⟨acts, (sound.finish_succeeds s.execute_turned.allows).mpr ⟨_, congrArg Prod.fst acts, valid⟩⟩

/-- The only agent of a world of one tile is removed while another one is born. -/
theorem walkers_replaced :
    ∃ (s s' : Sim Unit Unit Unit) (walker : Agent Unit Unit) (a : Addition Unit Unit Unit)
      (summary : StepSummary), s.Reachable ∧ s.agents.toList = [walker] ∧ walker.id = ⟨0⟩ ∧
      s.nextId = ⟨1⟩ ∧ a.population = walker.population ∧ s.Admits a ∧
      s.queues = ⟨[a], [⟨0⟩], []⟩ ∧
      s.execute = (.ok .empty, s.agents.toList, s.commons) ∧ s.behavior = .passive ∧ s.nextStep = (.ok summary, s') := by
  obtain ⟨s₀, walker, start, reached₀, inside, next, passive, empty, alone, first, -⟩ :=
    walkers_spawn (a := .plain "walker" (.placed 0.5 0.5)) rfl rfl
  let a : Addition Unit Unit Unit := .plain walker.population (.placed 0.5 0.5)
  have stored : walker ∈ s₀.agents := by
    rw [← Array.mem_toList_iff, alone]
    exact .head _
  have admits : s₀.Admits a := ⟨reached₀.sound.consistent.registered walker stored, inside.2⟩
  let s := s₀.afterAll [.enqueueRemoval ⟨0⟩, .enqueueAddition a]
  have reached : s.Reachable := reached₀.afterAll _
  have queues : s.queues = ⟨[a], [⟨0⟩], []⟩ := by
    show (⟨s₀.queues.additions ++ [a], s₀.queues.removals ++ [⟨0⟩], s₀.queues.deliveries⟩ :
      Queues Unit Unit Unit) = _
    rw [empty]
    rfl
  obtain ⟨acts, summary, s', completed⟩ := reached.sound.idle_step
    (Behavior.idle_of_passive passive)
    (by rw [queues]; exact List.forall_mem_singleton.mpr admits)
    (by rw [queues, show s.nextId = ⟨1⟩ from next, List.length_singleton]; decide)
  exact ⟨s, s', walker, a, summary, reached, alone, first, next, rfl, admits, queues, acts,
    passive, completed⟩

/-- Once the requests are validated they are carried out. -/
theorem Sound.modify_of_validated (sound : s.Sound)
    (rewritten : List.Forall₂ Agent.Rewritten s.agents.toList agents)
    (valid : (s.acting agents shared).validateQueued commands = .ok ()) :
    ∃ summary s', ((s.acting agents shared).accept s.step commands).modify s.step s.agents.size =
      (.ok summary, s') := by
  rw [validateQueued_acting] at valid
  obtain ⟨admitted, left⟩ := validateQueued_eq_ok.mp valid
  have accepted := sound.consistent.accept rewritten shared s.step commands
  obtain ⟨summary, s', modified, -⟩ := accepted.consistent.modify_succeeds
    (fun a among => accepted.keeps.admits_iff.mpr (admitted a among)) left s.step s.agents.size
  exact ⟨summary, s', modified⟩

/-! Births that wait in vain. -/

theorem Sound.after_keeps (sound : s.Sound) (c : Call σ μ η) : s.Keeps (s.after c) :=
  (sound.after (P := s.Keeps) (fun _ proceeds keeps => keeps.trans proceeds.keeps) (.refl s) c).2

/-- Such a birth waits. -/
def Blocked (s : Sim σ μ η) (a : Addition σ μ η) : Prop :=
  s.Sound ∧ a ∈ s.queues.additions ∧ ¬s.Admits a

namespace Blocked
variable {E : Engine σ μ η} {out : Except SimError StepSummary × Sim σ μ η}

/-- A step fails, and the birth waits on. -/
theorem makes (blocked : s.Blocked a) (among : E ∈ Engine.program) (made : E.Makes s out) :
    (∃ e, out.1 = .error e) ∧ out.2.Blocked a := by
  obtain ⟨sound, waits, bad⟩ := blocked
  obtain ⟨result, s'⟩ := out
  cases result with
  | ok summary =>
    obtain ⟨turns, -, allows, ends⟩ := Engine.makes_of_program among made
    obtain ⟨commands, -, -, valid, -⟩ := sound.finish_completed allows ends.symm
    obtain ⟨admitted, -⟩ := validateQueued_eq_ok.mp valid
    exact absurd (admitted a (List.mem_append_left _ waits)) bad
  | error e =>
    obtain ⟨agents, index, rewritten, -, rfl⟩ := Engine.failed_of_program among sound made
    obtain ⟨proceeds, sound'⟩ := sound.brokenOff rewritten index
    exact ⟨⟨e, rfl⟩, sound', waits, mt proceeds.keeps.admits_iff.mp bad⟩

theorem steps (blocked : s.Blocked a) (among : E ∈ Engine.program) {n : Nat}
    {out : Except SimError Unit × Sim σ μ η} (made : E.Steps s n out) : out.2.Blocked a := by
  cases made with
  | none => exact blocked
  | failed made => exact (blocked.makes among made).2
  | next made more =>
    obtain ⟨⟨e, ⟨⟩⟩, -⟩ := blocked.makes among made

/-- Only emptying the queues takes such a birth away. -/
theorem rests (blocked : s.Blocked a) {c : Call σ μ η} (rests : c.Rests)
    (kept : c ≠ .discardQueued) : (s.after c).Blocked a := by
  obtain ⟨sound, waits, bad⟩ := blocked
  have sound' := (sound.after (P := fun _ => True) (fun _ _ _ => trivial) trivial c).1
  refine ⟨sound', ?_, mt (sound.after_keeps c).admits_iff.mp bad⟩
  cases c with
  | spawn b =>
    simp only [Sim.after]
    rcases sound.spawn_cases b with ⟨-, ends⟩ | ⟨-, -, ends⟩ | ⟨s', activated, ends⟩
    · rwa [ends]
    · rwa [ends]
    · obtain ⟨_, _, _, _, _, _, _, rfl⟩ := activate_eq_ok activated
      rwa [ends]
  | enqueueAddition b => exact List.mem_append_left _ waits
  | enqueueRemoval id => exact waits
  | enqueueDelivery m => exact waits
  | discardQueued => exact absurd rfl kept
  | edit id f =>
    simp only [Sim.after]
    rcases edited : s.edit? id f with - | s'
    · exact waits
    · obtain ⟨slot, b, -, rfl⟩ := edit?_eq_some edited
      exact waits
  | nextStep => exact rests.elim
  | runSteps n => exact rests.elim
  | run => exact rests.elim

theorem course (blocked : s.Blocked a) (among : E ∈ Engine.program) {calls : List (Call σ μ η)}
    (kept : .discardQueued ∉ calls) {course : List (Reply σ μ η × Sim σ μ η)}
    (runs : E.Course s calls course) : (s.final course).Blocked a := by
  refine runs.final_eq (P := (·.Blocked a)) blocked fun {s c r s'} called answers blocked => ?_
  cases answers with
  | rests quiet => exact blocked.rests quiet fun same => kept (same ▸ called)
  | nextStep made => exact (blocked.makes among made).2
  | runSteps made => exact blocked.steps among made
  | run made => exact blocked.steps among made

end Blocked

/-- A step succeeds exactly when all agents act, all births are admitted and there are ids for them;
then the modification cannot fail. Otherwise the first birth that is not admitted is reported, and
as long as it waits no step succeeds. -/
theorem Engine.Reaches.step_exact {E : Engine σ μ η} (among : E ∈ program)
    (reached : E.Reaches s) :
    (∀ turns, E.Turns s turns →
      ((∃ summary s', s.finish E.modify turns = (.ok summary, s')) ↔
        ∃ commands, turns.1 = .ok commands ∧
          (∀ a ∈ s.queues.additions ++ commands.additions, s.pool.contains a.population = true ∧
            s.space.terrain.contains a.projection.position = true) ∧
          (s.queues.additions ++ commands.additions).length ≤
            AgentId.invalid.index - s.nextId.index)) ∧
    (∀ commands agents shared, E.Turns s (.ok commands, agents, shared) →
      (s.acting agents shared).validateQueued commands = .ok () →
      ∃ summary s', E.modify ((s.acting agents shared).accept s.step commands) s.step
        s.agents.size = (.ok summary, s')) ∧
    (∀ commands agents shared, E.Turns s (.ok commands, agents, shared) →
      ∀ before a rest, s.queues.additions ++ commands.additions = before ++ a :: rest →
        (∀ b ∈ before, s.Admits b) → ¬s.Admits a →
        (s.finish E.modify (.ok commands, agents, shared)).1 =
          .error (if s.pool.contains a.population then
            .outside a.population a.projection.position else .unknownPopulation a.population)) ∧
    ∀ a ∈ s.queues.additions, ¬s.Admits a → ∀ calls course, Call.discardQueued ∉ calls →
      E.Course s calls course → ∀ out, E.Makes (s.final course) out → ∃ e, out.1 = .error e := by
  have sound := reached.sound among
  refine ⟨?_, ?_, ?_, ?_⟩
  · intro turns turned
    rw [modify_of_program among,
      sound.finish_succeeds (turned_of_program among turned).allows]
    simp only [validateQueued_eq_ok]
    rfl
  · intro commands agents shared turned valid
    rw [modify_of_program among]
    exact sound.modify_of_validated (turned_of_program among turned).allows.rewritten valid
  · intro commands agents shared turned before a rest order admitted bad
    have refused := validateQueued_eq_error.mpr (.inl ⟨before, a, rest, order, admitted, bad, rfl⟩)
    rw [finish_of_refused _ refused]
    rfl
  · intro a waits bad calls course kept runs out made
    have blocked : s.Blocked a := ⟨sound, waits, bad⟩
    exact ((blocked.course among kept runs).makes among made).1

/-- An agent is born where it was asked for, and one that is asked for outside the grid is not. -/
theorem step_exact_walker :
    ∃ s : Sim Unit Unit Unit, Setup.walkers.build = .ok s ∧
      (∃ summary s', (s.enqueueAddition (.plain "walker" (.placed 0.5 0.5))).nextStep =
        (.ok summary, s')) ∧
      ∀ calls course, Call.discardQueued ∉ calls →
        let t := s.enqueueAddition (.plain "walker" (.placed 1.5 0.5))
        Engine.own.Course t calls course → ∃ e, (t.final course).nextStep.1 = .error e := by
  obtain ⟨s, built, inside, outside, acts, queue, next⟩ : ∃ s, Setup.walkers.build = .ok s ∧
      s.Admits (.plain "walker" (.placed 0.5 0.5)) ∧
      ¬s.Admits (.plain "walker" (.placed 1.5 0.5)) ∧
      (s.enqueueAddition (.plain "walker" (.placed 0.5 0.5))).execute.1 = .ok .empty ∧
      s.queues = .empty ∧ s.nextId = ⟨0⟩ :=
    ⟨_, rfl, ⟨rfl, rfl⟩, fun admitted => Bool.false_ne_true admitted.2, rfl, rfl, rfl⟩
  have waiting : ∀ a, (s.after (.enqueueAddition a)).queues.additions = [a] := by
    intro a
    simp [Sim.after, enqueueAddition, queue, Queues.empty]
  have reached : ∀ a, Engine.own.Reaches (s.after (.enqueueAddition a)) := fun a =>
    (Reachable.after (.enqueueAddition a) (.built built)).own
  refine ⟨s, built, ?_, ?_⟩
  · refine (((reached _).step_exact Engine.own_mem_program).1 _ rfl).mpr
      ⟨.empty, acts, ?_, ?_⟩
    · intro a among
      rw [waiting] at among
      obtain rfl := List.mem_singleton.mp among
      exact inside
    · have left : (s.after (.enqueueAddition
          (.plain "walker" (.placed 0.5 0.5)))).nextId = ⟨0⟩ := next
      rw [waiting, left]
      decide
  · intro calls course kept t runs
    obtain ⟨-, -, -, blocks⟩ := (reached (.plain "walker" (.placed 1.5 0.5))).step_exact
      Engine.own_mem_program
    refine blocks (.plain "walker" (.placed 1.5 0.5)) ?_ outside calls course kept runs _
      (Engine.own_makes.mpr rfl)
    rw [waiting]
    exact List.mem_singleton_self _

end Vivarium.Sim
