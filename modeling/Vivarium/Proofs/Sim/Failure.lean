import Vivarium.Proofs.Sim.Engine

/-! A failure leaves no trace but what agents have written into their own bodies, and the picture that
their queries may have taken. The errors of the modification would come too late for that; they do not
occur. -/
namespace Vivarium.Sim
variable {σ μ η : Type} {s s' : Sim σ μ η} {e : SimError}

theorem Sound.spawn_eq_error (sound : s.Sound) {a : Addition σ μ η}
    (failed : s.spawn a = (.error e, s')) : s' = s := by
  rcases sound.spawn_cases a with ⟨-, ends⟩ | ⟨-, -, ends⟩ | ⟨s'', -, ends⟩
  · rw [failed] at ends
    exact congrArg Prod.snd ends
  · rw [failed] at ends
    exact congrArg Prod.snd ends
  · rw [failed] at ends
    cases ends

/-- After a failed step the agents stand in their old order with rewritten bodies, the picture of
positions may have been brought up to date, and the journal has one notice more; all else is as before,
and no agent can be seen half born. -/
theorem Engine.Reaches.failure_atomic {E : Engine σ μ η} (among : E ∈ program)
    (reached : E.Reaches s) :
    (∀ e s', E.Makes s (.error e, s') →
      (∃ agents index, List.Forall₂ Agent.Rewritten s.agents.toList agents ∧
        s.space.Views index ∧ s' = { s with
          agents := agents.toArray
          space := { s.space with index }
          journal := s.journal.push (.started s.step) }) ∧
      s'.phase = .idle ∧ s'.board = .empty) ∧
    ∀ a e s', s.spawn a = (.error e, s') → s' = s := by
  have sound := reached.sound among
  constructor
  · intro e s' made
    obtain ⟨agents, index, rewritten, views, rfl⟩ := failed_of_program among sound made
    refine ⟨⟨agents, index, rewritten, views, ?_⟩, rfl, rfl⟩
    rw [brokenOff, ← sound.idle, ← sound.board]
    rfl
  · intro a e s' failed
    exact sound.spawn_eq_error failed

/-- A birth in an unknown population breaks the step off and stays in the queue. -/
theorem failure_atomic_ghost :
    ∃ s s' : Sim Unit Unit Unit, Setup.walkers.build = .ok s ∧
      (s.enqueueAddition (.plain "ghost" (.placed 0.5 0.5))).nextStep =
        (.error (.unknownPopulation "ghost"), s') ∧
      s'.queues.additions.length = 1 ∧ s'.pool = s.pool ∧ s'.phase = .idle := by
  obtain ⟨s, s', built, failed⟩ : ∃ s s', Setup.walkers.build = .ok s ∧
      (s.enqueueAddition (.plain "ghost" (.placed 0.5 0.5))).nextStep =
        (.error (.unknownPopulation "ghost"), s') := ⟨_, _, rfl, rfl⟩
  have reached := Reachable.after (.enqueueAddition (.plain "ghost" (.placed 0.5 0.5)))
    (.built built)
  obtain ⟨⟨agents, index, -, -, same⟩, idle, -⟩ :=
    (reached.own.failure_atomic Engine.own_mem_program).1 _ _ (Engine.own_makes.mpr failed.symm)
  have waiting : s.queues.additions = [] := by
    obtain ⟨grid, pool, -, rfl⟩ := Setup.build_eq_ok built
    rfl
  refine ⟨s, s', built, failed, ?_, ?_, idle⟩
  · rw [same]
    simp [after, enqueueAddition, waiting]
  · rw [same]
    rfl

end Vivarium.Sim
