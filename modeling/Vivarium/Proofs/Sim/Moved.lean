import Vivarium.Proofs.Sim.Movement
import Vivarium.Proofs.Space.Clamping

/-! What a summary says of movement. Agents are counted by their motions; the surviving agents keep the
motions with which they were counted, so the number can be read off the simulation after the step. -/
namespace Vivarium.Sim
variable {σ μ η : Type} {s s' : Sim σ μ η} {summary : StepSummary} {now : Step} {executed : Nat}

theorem Consistent.moveAgents_fst (consistent : s.Consistent) :
    s.moveAgents.1 = s.agents.toList.countP fun a => !a.motion.isStill := by
  have total : s.moveAgents.1 =
      s.ids.countP fun id => ((s.agent? id).map (·.motion)).any (!·.isStill) := by
    rw [← consistent.ids_eq]
    exact Space.moveAll_total _ _
  rw [total, ids, List.countP_map]
  apply List.countP_congr
  intro a stored
  have found : s.agent? a.id = some a :=
    consistent.agent?_eq_some.mpr ⟨Array.mem_toList_iff.mp stored, rfl⟩
  simp [found]

theorem modify_moved (modified : s.modify now executed = (.ok summary, s')) :
    summary.moved = (s.deliver.2.removeQueued now).2.moveAgents.1 := by
  rw [modify_eq] at modified
  rcases born : (s.cleared now).activateQueued now with ⟨e | n, last⟩
  · rw [born] at modified
    cases modified
  · rw [born] at modified
    cases modified
    rfl

section
variable {E : Engine σ μ η} (among : E ∈ Engine.program)
include among

/-- A summary counts the surviving agents whose motions are not still. -/
theorem Sound.moved_eq (sound : s.Sound) (made : E.Makes s (.ok summary, s')) :
    summary.moved =
      (s'.agents.toList.filter fun a => a.id ∈ s.ids).countP fun a => !a.motion.isStill := by
  obtain ⟨⟨result, acted, shared⟩, -, allows, ends⟩ := Engine.makes_of_program among made
  obtain ⟨commands, newborns, succeeds, valid, done⟩ := sound.finish_completed allows ends.symm
  obtain rfl : result = .ok commands := succeeds
  have order : acted.map (·.id) = s.ids := Agent.ids_eq allows.rewritten
  rw [finish_of_accepted valid] at ends
  obtain ⟨last, modified, -⟩ := concluded_eq_ok ends.symm
  have accepted := (sound.consistent.accept allows.rewritten shared s.step commands).consistent
  have left := ((accepted.deliver s.step).consistent.removed s.step).consistent
  have clear : ((s.acting acted shared).accept s.step commands).agents.toList =
      acted.map Agent.clearInbox := Array.toList_map
  rw [modify_moved modified, left.moveAgents_fst, accepted.removed_agents,
    done.survivors_eq sound.consistent order, Completed.kept, clear, List.filter_map,
    List.countP_map, List.countP_map, List.countP_map]
  rfl

/-- A surviving agent whose motion is still stays where it is. -/
theorem Sound.unmoved (sound : s.Sound) (made : E.Makes s (.ok summary, s')) {a : Agent σ μ}
    (survives : a ∈ s'.agents.toList.filter fun a => a.id ∈ s.ids)
    (still : a.motion.isStill = true) : s'.space.projection? a.id = s.space.projection? a.id := by
  obtain ⟨commands, acted, shared, newborns, -, rewritten, done⟩ :=
    Engine.completed_of_program among sound made
  have order : acted.map (·.id) = s.ids := Agent.ids_eq rewritten
  rw [done.survivors_eq sound.consistent order] at survives
  obtain ⟨a, left, rfl⟩ := List.mem_map.mp survives
  obtain ⟨acts, stays⟩ := List.mem_filter.mp left
  obtain ⟨p, before⟩ := sound.consistent.projection?_of_mem
    (order ▸ List.mem_map.mpr ⟨a, acts, rfl⟩)
  have after := done.carried a acts (by simpa using stays) p before
  rw [Projection.carried, if_pos still] at after
  exact after.trans before.symm

end

/-- The number of moved objects is that of the motions that are not still. It counts every object that
changed and besides those that were set in motion and ended as they were; so it is the number of changed
objects exactly if there are none of these. What is taken for a change is left open, as long as no object
that is stored differs from itself. -/
theorem moved_exact (changes : Projection Float → Projection Float → Bool) :
    (∀ (t : Terrain Float) (events : List (Space.Event Float)) (chunkSize : Nat)
        (motionOf : AgentId → Option (Motion Float)),
      let s := (Space.empty t).metAll events
      (∀ id ∈ s.ids, s.shifted changes s id = false) →
      Counted s.ids (fun id => (motionOf id).any (!·.isStill))
        (s.shifted changes (s.moveAll chunkSize motionOf).2) (s.moveAll chunkSize motionOf).1) ∧
    ∀ (σ μ η : Type), ∀ E ∈ (Engine.program : List (Engine σ μ η)), ∀ s s' summary,
      E.Reaches s → E.Makes s (.ok summary, s') →
      (∀ id ∈ s.ids, s.space.shifted changes s.space id = false) →
      Counted (s'.agents.toList.filter fun a => a.id ∈ s.ids) (fun a => !a.motion.isStill)
        (fun a => s.space.shifted changes s'.space a.id) summary.moved := by
  constructor
  · intro t events chunkSize motionOf s steady
    have wf : s.WellFormed := ((Space.empty_fresh t).metAll events).wellFormed
    exact wf.moveAll_counted chunkSize motionOf steady
  · intro σ μ η E among s s' summary reached made steady
    rw [(reached.sound among).moved_eq among made]
    apply Counted.of_driven
    intro a survives change
    by_contra rests
    rw [Bool.not_eq_true, Bool.not_eq_false'] at rests
    have active : a.id ∈ s.ids := by simpa using (List.mem_filter.mp survives).2
    rw [Space.shifted_of_unmoved ((reached.sound among).unmoved among made survives rests),
      steady a.id active] at change
    cases change

/-! A full turn is not still, but it leads back to where it started. -/

def fullTurn : Motion Float := ⟨Scalar.tau, 0.0⟩

theorem fullTurn_moves : fullTurn.isStill = false := by decide +kernel

theorem carried_fullTurn (p : Point Float) (g : Grid) :
    (⟨p, 0.0, false⟩ : Projection Float).carried (.ofGrid g) fullTurn = ⟨p, 0.0, false⟩ := by
  have stays : ¬Scalar.zero < fullTurn.clamped.translation := by decide +kernel
  have turned : Angle.fold ((0.0 : Float) + fullTurn.clamped.rotation) = 0.0 := by decide +kernel
  rw [Projection.carried_eq_spun _ fullTurn_moves stays, Projection.spun_ofGrid, turned]

/-- The only agent of a world makes a full turn in a step. -/
theorem moved_exact_walker :
    ∃ (s s' : Sim Unit Unit Unit) (summary : StepSummary), s.Reachable ∧
      s.nextStep = (.ok summary, s') ∧ summary.moved = 1 ∧
      s.space.projection? ⟨0⟩ = some ⟨⟨0.5, 0.5⟩, 0.0, false⟩ ∧
      s'.space.projection? ⟨0⟩ = some ⟨⟨0.5, 0.5⟩, 0.0, false⟩ ∧
      (Space.pair.moveAll 0 fun _ => some .rest).1 = 0 := by
  let changes (p p' : Projection Float) : Bool := decide (p ≠ p')
  have same : ∀ p, changes p p = false := by simp [changes]
  let a : Addition Unit Unit Unit := ⟨"walker", ⟨⟨0.5, 0.5⟩, 0.0, false⟩, none,
    some fun newborn => { newborn.toBody with motion := fullTurn }⟩
  obtain ⟨s, walker, start, reached, -, -, passive, empty, alone, first, raised, there, g,
    terrain⟩ := walkers_spawn (a := a) rfl rfl
  have turns : walker.motion = fullTurn := by
    rw [raised]
    rfl
  obtain ⟨acts, summary, s', completed⟩ := reached.sound.idle_step
    (Behavior.idle_of_passive passive) (by simp [empty, Queues.empty])
    (by simp [empty, Queues.empty])
  have made := Engine.own_makes.mpr completed.symm
  obtain ⟨commands, acted, shared, newborns, turned, -, done⟩ :=
    Engine.completed_of_program Engine.own_mem_program reached.sound made
  cases turned.trans acts
  have removals : (s.requests .empty).removals = [] := by
    show s.queues.removals ++ [] = []
    rw [empty]
    rfl
  have survivors := done.survivors_eq reached.sound.consistent rfl
  have among : walker ∈ s.agents.toList := alone ▸ List.mem_singleton_self walker
  have after := done.carried walker among (by rw [removals]; rfl) a.projection (first ▸ there)
  rw [turns, terrain, carried_fullTurn, first] at after
  have step := (moved_exact changes).2 _ _ _ _ Engine.own_mem_program s s' summary reached.own made
    fun _ _ => Space.shifted_self same
  have bulk := (moved_exact changes).1 (.ofGrid Space.pairGrid) Space.pairEvents 0
    (fun _ => some .rest) fun _ _ => Space.shifted_self same
  refine ⟨s, s', summary, reached, completed, ?_, there, after, ?_⟩
  · rw [step.total, survivors, alone, Completed.kept, removals]
    simp [turns, fullTurn_moves]
  · have still : (Motion.rest : Motion Float).isStill = true := by decide +kernel
    refine bulk.total.trans ?_
    simp [still]

/-- A full turn is counted, although nothing has changed. -/
theorem full_turn_counted :
    let changes (p p' : Projection Float) : Bool := decide (p ≠ p')
    let turned := Space.pair.moveAll 1 (Space.only ⟨0⟩ fullTurn)
    turned.1 = 1 ∧ Space.pair.ids.countP (Space.pair.shifted changes turned.2) = 0 := by
  intro changes turned
  have wf : Space.pair.WellFormed := ((Space.empty_fresh _).metAll Space.pairEvents).wellFormed
  have terrain : Space.pair.terrain = .ofGrid Space.pairGrid :=
    (Space.empty_fresh _).metAll_terrain Space.pairEvents
  have stored := Space.pair_spec.2
  constructor
  · rw [Space.moveAll_total, Space.ids, stored]
    simp [Space.only, fullTurn_moves]
  · have entries : turned.2.entries.toList = Space.pair.entries.toList := by
      rw [Space.moveAll_projections, stored, terrain]
      have east : (Angle.east : Float) = 0.0 := by decide +kernel
      simp [Space.only, Projection.placed, east, carried_fullTurn]
    rw [List.countP_eq_zero]
    intro id _
    have unmoved : turned.2.projection? id = Space.pair.projection? id := by
      apply wf.projection?_congr (wf.moveAll 1 _)
      intro e _
      rw [← Array.mem_toList_iff, entries, Array.mem_toList_iff]
    rw [Space.shifted_of_unmoved unmoved, Space.shifted_self (by simp [changes])]
    exact Bool.false_ne_true

end Vivarium.Sim
