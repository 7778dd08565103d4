import Vivarium.Proofs.Sim.Admission

/-! Movement. Where an agent is after a step follows from where it was, from the motion its act left it
and from the terrain; other agents have no part in it. -/
namespace Vivarium.Sim
variable {σ μ η : Type} {s s' : Sim σ μ η} {summary : StepSummary} {q : Queues σ μ η}
  {acted newborns : List (Agent σ μ)} {a : Agent σ μ}

/-- Every active agent is somewhere. -/
theorem Consistent.projection?_of_mem (consistent : s.Consistent) {id : AgentId}
    (active : id ∈ s.ids) : ∃ p, s.space.projection? id = some p := by
  rw [← consistent.ids_eq] at active
  obtain ⟨e, stored, rfl⟩ := Space.mem_ids.mp active
  exact ⟨e.projection, consistent.space.projection?_eq_some.mpr ⟨e, stored, rfl, rfl⟩⟩

namespace Completed

/-- A surviving agent is where its own motion leads. -/
theorem moved (done : Completed q acted newborns summary s s') (consistent : s.Consistent)
    (order : acted.map (·.id) = s.ids) (acts : a ∈ acted) (survives : a.id ∈ s'.ids) :
    s'.space.projection? a.id =
      (s.space.projection? a.id).map (·.carried s.space.terrain a.motion) := by
  have active : a.id ∈ s.ids := order ▸ List.mem_map.mpr ⟨a, acts, rfl⟩
  obtain ⟨p, before⟩ := consistent.projection?_of_mem active
  have stays := (done.survives_iff consistent order active).mp survives
  rw [done.carried a acts stays p before, before]
  rfl

/-- A surviving agent has the motion its act left it. -/
theorem motion_kept (done : Completed q acted newborns summary s s') (consistent : s.Consistent)
    (order : acted.map (·.id) = s.ids) (acts : a ∈ acted) (survives : a.id ∈ s'.ids) :
    (s'.agent? a.id).map (·.motion) = some a.motion := by
  have active : a.id ∈ s.ids := order ▸ List.mem_map.mpr ⟨a, acts, rfl⟩
  have stays := (done.survives_iff consistent order active).mp survives
  have found : s'.agent? a.id =
      some { a with inbox := Message.copiesFor a.id q.deliveries } := by
    rw [done.sound.consistent.agent?_eq_some, ← Array.mem_toList_iff, done.agents]
    refine ⟨List.mem_append_left _ (List.mem_map.mpr ⟨a, ?_, rfl⟩), rfl⟩
    exact List.mem_filter.mpr ⟨acts, by rw [stays]; rfl⟩
  rw [found]
  rfl

/-- The agents that a step keeps, with their mail. -/
def kept (q : Queues σ μ η) (acted : List (Agent σ μ)) : List (Agent σ μ) :=
  (acted.filter fun a => !q.removals.contains a.id).map
    fun a => { a with inbox := Message.copiesFor a.id q.deliveries }

theorem kept_active (order : acted.map (·.id) = s.ids) : ∀ a ∈ kept q acted, a.id ∈ s.ids := by
  intro a among
  obtain ⟨a, stays, rfl⟩ := List.mem_map.mp among
  exact order ▸ List.mem_map.mpr ⟨a, List.mem_of_mem_filter stays, rfl⟩

/-- Of the agents after a step those that were there before it are the kept ones. -/
theorem survivors_eq (done : Completed q acted newborns summary s s') (consistent : s.Consistent)
    (order : acted.map (·.id) = s.ids) :
    s'.agents.toList.filter (fun a => a.id ∈ s.ids) = kept q acted := by
  have old : (kept q acted).filter (fun a => a.id ∈ s.ids) = kept q acted :=
    List.filter_eq_self.mpr fun a among => decide_eq_true (kept_active order a among)
  have new : newborns.filter (fun a => a.id ∈ s.ids) = [] := by
    rw [List.filter_eq_nil_iff]
    intro newborn among
    simpa using done.newborns_new consistent newborn among
  rw [done.agents, List.filter_append]
  exact (congrArg₂ (· ++ ·) old new).trans (List.append_nil _)

theorem newborns_eq (done : Completed q acted newborns summary s s') (consistent : s.Consistent)
    (order : acted.map (·.id) = s.ids) :
    s'.agents.toList.filter (fun a => a.id ∉ s.ids) = newborns := by
  have old : (kept q acted).filter (fun a => a.id ∉ s.ids) = [] := by
    rw [List.filter_eq_nil_iff]
    intro a among
    simpa using kept_active order a among
  have new : newborns.filter (fun a => a.id ∉ s.ids) = newborns := by
    rw [List.filter_eq_self]
    intro newborn among
    exact decide_eq_true (done.newborns_new consistent newborn among)
  rw [done.agents, List.filter_append]
  exact congrArg₂ (· ++ ·) old new

end Completed

/-- A step lets every agent act on the positions before it and then move by its own motion. -/
theorem Engine.Reaches.motion_exact {E : Engine σ μ η} (among : E ∈ program)
    (reached : E.Reaches s) (made : E.Makes s (.ok summary, s')) :
    ∃ commands acted shared, E.Turns s (.ok commands, acted, shared) ∧
      (∀ a ∈ acted, a.id ∈ s'.ids →
        ∃ p, s.space.projection? a.id = some p ∧
          s'.space.projection? a.id = some (p.carried s.space.terrain a.motion) ∧
          (a.motion.isStill = true → s'.space.projection? a.id = some p) ∧
          (s'.agent? a.id).map (·.motion) = some a.motion) ∧
      List.Forall₂ (fun a newborn => s'.space.projection? newborn.id = some a.projection)
        (s.queues.additions ++ commands.additions)
        (s'.agents.toList.filter fun a => a.id ∉ s.ids) ∧
      ∀ E' ∈ program, ∀ (t t' : Sim σ μ η) (other : StepSummary), E'.Reaches t →
        t.space.terrain = s.space.terrain →
        ∀ commands' acted' shared', E'.Turns t (.ok commands', acted', shared') →
          t.finish E'.modify (.ok commands', acted', shared') = (.ok other, t') →
          ∀ a ∈ acted, a.id ∈ s'.ids → ∀ b ∈ acted', b.id ∈ t'.ids → b.motion = a.motion →
            t.space.projection? b.id = s.space.projection? a.id →
            t'.space.projection? b.id = s'.space.projection? a.id := by
  have sound := reached.sound among
  obtain ⟨commands, acted, shared, newborns, turned, rewritten, done⟩ :=
    completed_of_program among sound made
  have order : acted.map (·.id) = s.ids := Agent.ids_eq rewritten
  have moved : ∀ a ∈ acted, a.id ∈ s'.ids → s'.space.projection? a.id =
      (s.space.projection? a.id).map (·.carried s.space.terrain a.motion) :=
    fun a among survives => done.moved sound.consistent order among survives
  refine ⟨commands, acted, shared, turned, ?_, ?_, ?_⟩
  · intro a among survives
    have active : a.id ∈ s.ids := order ▸ List.mem_map.mpr ⟨a, among, rfl⟩
    obtain ⟨p, before⟩ := sound.consistent.projection?_of_mem active
    have after : s'.space.projection? a.id = some (p.carried s.space.terrain a.motion) := by
      rw [moved a among survives, before]
      rfl
    refine ⟨p, before, after, ?_, done.motion_kept sound.consistent order among survives⟩
    intro still
    rw [after, Projection.carried, if_pos still]
  · rw [done.newborns_eq sound.consistent order]
    exact done.born.imp fun _ _ born => born.2
  · intro E' program' t t' other reached' terrain commands' acted' shared' turned' completed' a
      among survives b among' survives' motion before
    have sound' := reached'.sound program'
    have allows' := (turned_of_program program' turned').allows
    rw [modify_of_program program'] at completed'
    obtain ⟨_, newborns', ⟨⟩, -, done'⟩ := sound'.finish_completed allows' completed'
    have order' : acted'.map (·.id) = t.ids := Agent.ids_eq allows'.rewritten
    rw [moved a among survives, done'.moved sound'.consistent order' among' survives', motion,
      terrain, before]

/-- An agent turns where it stands while another one is born. -/
theorem motion_exact_walker :
    ∃ (s s' : Sim Unit Unit Unit) (summary : StepSummary), s.Reachable ∧ s.ids = [⟨0⟩] ∧
      s.queues.additions.length = 1 ∧ s.nextStep = (.ok summary, s') ∧
      s.space.projection? ⟨0⟩ = some ⟨⟨0.5, 0.5⟩, 0.0, false⟩ ∧
      s'.space.projection? ⟨0⟩ = some ⟨⟨0.5, 0.5⟩, 1.0, false⟩ := by
  let a : Addition Unit Unit Unit := ⟨"walker", ⟨⟨0.5, 0.5⟩, 0.0, false⟩, none,
    some fun newborn => { newborn.toBody with motion := ⟨1.0, 0.0⟩ }⟩
  obtain ⟨s₀, walker, start, reached₀, admits, next, passive, empty, alone, first, raised, there, g,
    terrain⟩ := walkers_spawn (a := a) rfl rfl
  let s := s₀.afterAll [.enqueueAddition a]
  have reached : s.Reachable := reached₀.afterAll _
  have additions : s.queues.additions = [a] := by
    show s₀.queues.additions ++ _ = _
    rw [empty]
    rfl
  have removals : s.queues.removals = [] := by
    show s₀.queues.removals = _
    rw [empty]
    rfl
  have agents : s.agents.toList = [walker] := alone
  have ids : s.ids = [⟨0⟩] := by rw [Sim.ids, agents, List.map_singleton, first]
  have turns : walker.motion = ⟨1.0, 0.0⟩ := by
    rw [raised]
    rfl
  obtain ⟨acts, summary, s', completed⟩ := reached.sound.idle_step
    (Behavior.idle_of_passive passive)
    (by rw [additions]; exact List.forall_mem_singleton.mpr admits)
    (by rw [additions, show s.nextId = ⟨1⟩ from next]; decide)
  have made := Engine.own_makes.mpr completed.symm
  have survives : walker.id ∈ s'.ids := by
    obtain ⟨commands, acted, shared, newborns, turned, -, done⟩ :=
      Engine.completed_of_program Engine.own_mem_program reached.sound made
    cases turned.trans acts
    rw [done.survives_iff reached.sound.consistent rfl (by rw [ids, first]; decide)]
    show (s.queues.removals ++ []).contains walker.id = false
    rw [removals]
    rfl
  obtain ⟨commands, acted, shared, turned, moves, -⟩ :=
    reached.own.motion_exact Engine.own_mem_program made
  cases turned.trans acts
  have among : walker ∈ s.agents.toList := agents ▸ List.mem_singleton_self walker
  obtain ⟨p, before, after, -⟩ := moves walker among survives
  have here : p = a.projection := by
    rw [first] at before
    exact Option.some.inj (before.symm.trans there)
  have turned : a.projection.carried (.ofGrid g) ⟨1.0, 0.0⟩ = ⟨⟨0.5, 0.5⟩, 1.0, false⟩ := by
    have still : (⟨1.0, 0.0⟩ : Motion Float).isStill = false := by decide +kernel
    have aim : (⟨1.0, 0.0⟩ : Motion Float).aim ⟨⟨0.5, 0.5⟩, 0.0, false⟩ = ⟨1.0, ⟨0.5, 0.5⟩⟩ := by
      decide +kernel
    have stays : (⟨0.5, 0.5⟩ : Point Float).agrees ⟨0.5, 0.5⟩ = true := by decide +kernel
    have way : g.route (⟨0.5, 0.5⟩ : Point Float) ⟨0.5, 0.5⟩ = .free ⟨0.5, 0.5⟩ := by
      rw [Grid.route, if_pos stays]
    simp only [Projection.carried, still, a, aim, Terrain.ofGrid, way]
    rfl
  refine ⟨s, s', summary, reached, ids, by rw [additions]; rfl, completed, there, ?_⟩
  rw [first, here, show s.space.terrain = .ofGrid g from terrain, turns, turned] at after
  exact after

end Vivarium.Sim
