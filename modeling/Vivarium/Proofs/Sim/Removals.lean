import Vivarium.Proofs.Sim.Consistent
import Vivarium.Proofs.Space.Lookup
import Vivarium.Proofs.Space.Run

/-! Removals. Of a queue of removals only the active ids matter, neither their order nor how often they
occur; all stores drop the same agents and keep the others in their order. -/
namespace Vivarium

/-- The summary in a notice of a completed step. -/
def Notice.ended? : Notice → Option StepSummary
  | .ended summary => some summary
  | _ => none

namespace Sim
variable {σ μ η : Type} {s s' : Sim σ μ η} {a : Agent σ μ} {id : AgentId} {now : Step}

/-- The summaries of all completed steps. -/
def summaries (s : Sim σ μ η) : List StepSummary := s.journal.toList.filterMap Notice.ended?

/-! Who goes. -/

/-- The active agents whose removal is queued. -/
def doomed (s : Sim σ μ η) : Std.HashSet AgentId :=
  .ofList (s.queues.removals.filter s.slots.contains)

theorem doomed_contains :
    s.doomed.contains id = (s.queues.removals.contains id && s.slots.contains id) := by
  rw [Bool.eq_iff_iff]
  simp [doomed]

theorem Consistent.doomed_agent (consistent : s.Consistent) (stored : a ∈ s.agents) :
    s.doomed.contains a.id = s.queues.removals.contains a.id := by
  rw [doomed_contains, consistent.slot_contains stored, Bool.and_true]

theorem Consistent.doomed_entry (consistent : s.Consistent) {e : Entry Float}
    (stored : e ∈ s.space.entries) : s.doomed.contains e.id = s.queues.removals.contains e.id := by
  have among : e.id ∈ s.ids := consistent.ids_eq ▸ Space.mem_ids.mpr ⟨e, stored, rfl⟩
  obtain ⟨a, active, same⟩ := List.mem_map.mp among
  rw [← same]
  exact consistent.doomed_agent (Array.mem_toList_iff.mp active)

/-- What is done when an agent goes, for those with an id in a set. -/
def dismiss (s : Sim σ μ η) (now : Step) (gone : AgentId → Bool) : Nat × Sim σ μ η :=
  let kept := s.agents.toList.filter fun a => !gone a.id
  let s := (s.agents.toList.filter fun a => gone a.id).foldl (retire now) s
  let (removed, space) := s.space.removeIf fun e => gone e.id
  (removed, { s with agents := kept.toArray, slots := slotsOf kept, space })

theorem removeQueued_eq (s : Sim σ μ η) (now : Step) :
    s.removeQueued now =
      if s.doomed.isEmpty then (0, { s with queues := { s.queues with removals := [] } })
      else { s with queues := { s.queues with removals := [] } }.dismiss now s.doomed.contains := rfl

/-- Requests that doom the same agents have the same effect. -/
theorem removeQueued_congr {removals others : List AgentId}
    (same : ∀ id, s.slots.contains id = true → removals.contains id = others.contains id)
    (now : Step) :
    { s with queues := { s.queues with removals } }.removeQueued now =
      { s with queues := { s.queues with removals := others } }.removeQueued now := by
  let first : Sim σ μ η := { s with queues := { s.queues with removals } }
  let second : Sim σ μ η := { s with queues := { s.queues with removals := others } }
  have equal : first.doomed.contains = second.doomed.contains := by
    funext id
    rw [doomed_contains, doomed_contains]
    show (removals.contains id && s.slots.contains id) =
      (others.contains id && s.slots.contains id)
    rcases active : s.slots.contains id with - | -
    · rw [Bool.and_false, Bool.and_false]
    · rw [same id active]
  have blank : first.doomed.isEmpty = second.doomed.isEmpty := by
    rw [Bool.eq_iff_iff, Std.HashSet.isEmpty_iff_forall_contains,
      Std.HashSet.isEmpty_iff_forall_contains, equal]
  show first.removeQueued now = second.removeQueued now
  rw [removeQueued_eq, removeQueued_eq, blank, equal]

/-! What is left. -/

/-- Giving storage back touches the pool and the journal only. -/
theorem retireAll_spec (stocked : s.pool.Stocked) (now : Step) (gone : List (Agent σ μ)) :
    ∃ pool journal, gone.foldl (retire now) s = { s with pool, journal } ∧ pool.Stocked ∧
      (∀ p, pool.pattern? p = s.pool.pattern? p) ∧
      journal.toList.filterMap Notice.ended? = s.summaries := by
  induction gone generalizing s with
  | nil => exact ⟨s.pool, s.journal, rfl, stocked, fun _ => rfl, rfl⟩
  | cons a rest ih =>
    have noted : (s.note (.removed now a.id a.population)).summaries = s.summaries := by
      simp [summaries, note, Notice.ended?]
    rw [List.foldl_cons]
    unfold retire
    dsimp only
    split
    · rename_i pool released
      obtain ⟨pool', journal, others, stocked', patterns, same⟩ :=
        ih (s := { s.note (.removed now a.id a.population) with pool }) (stocked.release released)
      refine ⟨pool', journal, others, stocked', fun p => ?_, same.trans noted⟩
      exact (patterns p).trans (Pool.release_pattern? released)
    · obtain ⟨pool', journal, others, stocked', patterns, same⟩ :=
        ih (s := s.note (.removed now a.id a.population)) stocked
      exact ⟨pool', journal, others, stocked', patterns, same.trans noted⟩

/-- From one state to another that some agents have left. -/
structure Thinned (gone : AgentId → Bool) (s s' : Sim σ μ η) : Prop where
  agents : s'.agents.toList = s.agents.toList.filter fun a => !gone a.id
  entries : s'.space.entries.toList = s.space.entries.toList.filter fun e => !gone e.id
  terrain : s'.space.terrain = s.space.terrain
  patterns : ∀ p, s'.pool.pattern? p = s.pool.pattern? p
  summaries : s'.summaries = s.summaries
  consistent : s'.Consistent

/-- Those who stay, stay where they are. -/
theorem Thinned.projection? {gone : AgentId → Bool} (thinned : Thinned gone s s')
    (wf : s.space.WellFormed) (stays : gone id = false) :
    s'.space.projection? id = s.space.projection? id := by
  apply wf.projection?_congr thinned.consistent.space
  intro e named
  rw [← Array.mem_toList_iff, thinned.entries, List.mem_filter, named, stays,
    Array.mem_toList_iff]
  exact and_iff_left rfl

/-- All stores drop the same agents and number the others anew. -/
theorem Consistent.filter (consistent : s.Consistent) (gone : AgentId → Bool)
    (agents : s'.agents.toList = s.agents.toList.filter fun a => !gone a.id)
    (slots : s'.slots = slotsOf s'.agents.toList) (next : s'.nextId = s.nextId)
    (space : s'.space = (s.space.removeIf fun e => gone e.id).2) (pool : s'.pool.Stocked)
    (patterns : ∀ p, s'.pool.pattern? p = s.pool.pattern? p) : s'.Consistent := by
  have sublist : s'.ids.Sublist s.ids := by
    rw [ids, ids, agents]
    exact List.filter_sublist.map _
  have among : ∀ a ∈ s'.agents, a ∈ s.agents := by
    intro a stored
    rw [← Array.mem_toList_iff, agents] at stored
    exact Array.mem_toList_iff.mp (List.mem_of_mem_filter stored)
  constructor
  case ascending => exact consistent.ascending.sublist sublist
  case below =>
    intro id stays
    rw [next]
    exact consistent.below id (sublist.subset stays)
  case slots =>
    rw [slots]
    exact Indexes.number _ _ (consistent.slots.nodup.sublist sublist)
  case active => exact fun a stored => consistent.active a (among a stored)
  case registered =>
    intro a stored
    rw [Pool.contains_congr (patterns _)]
    exact consistent.registered a (among a stored)
  case members =>
    have entries : (s.space.removeIf fun e => gone e.id).2.members =
        s.space.members.filter fun m => !gone m.2 := by
      rw [Space.members, Space.removeIf_entries, Space.members, List.filter_map]
      rfl
    rw [space, entries, agents, consistent.members, List.filter_map]
    rfl
  case space =>
    rw [space]
    exact consistent.space.removeIf _
  case pool => exact pool

theorem Consistent.undoomed_agents (consistent : s.Consistent) :
    (s.agents.toList.filter fun a => !s.doomed.contains a.id) =
      s.agents.toList.filter fun a => !s.queues.removals.contains a.id := by
  apply List.filter_congr
  intro a stored
  rw [consistent.doomed_agent (Array.mem_toList_iff.mp stored)]

theorem Consistent.undoomed_entries (consistent : s.Consistent) :
    (s.space.entries.toList.filter fun e => !s.doomed.contains e.id) =
      s.space.entries.toList.filter fun e => !s.queues.removals.contains e.id := by
  apply List.filter_congr
  intro e stored
  rw [consistent.doomed_entry (Array.mem_toList_iff.mp stored)]

theorem Consistent.doomed_count (consistent : s.Consistent) :
    s.space.entries.toList.countP (fun e => s.doomed.contains e.id) =
      s.ids.countP s.queues.removals.contains := by
  rw [← consistent.ids_eq, Space.ids, List.countP_map]
  apply List.countP_congr
  intro e stored
  rw [consistent.doomed_entry (Array.mem_toList_iff.mp stored)]
  rfl

/-- Exactly the agents whose removal is queued go, each once however often it is queued. -/
theorem Consistent.removeQueued (consistent : s.Consistent) (now : Step) :
    ∃ agents slots pool journal space, s.removeQueued now =
        (s.ids.countP s.queues.removals.contains, { s with
          queues := { s.queues with removals := [] }, agents, slots, pool, journal, space }) ∧
      s.Thinned s.queues.removals.contains (s.removeQueued now).2 := by
  have kept := consistent.undoomed_agents
  have entries := consistent.undoomed_entries
  have counted := consistent.doomed_count
  by_cases blank : s.doomed.isEmpty = true
  · have unlisted : ∀ id, s.doomed.contains id = false := by
      rw [Std.HashSet.isEmpty_iff_forall_contains] at blank
      exact blank
    simp only [unlisted, Bool.not_false, List.filter_true, List.countP_false] at kept entries counted
    have removed : s.removeQueued now = (0, { s with queues := { s.queues with removals := [] } }) :=
      if_pos blank
    rw [removed, ← counted]
    refine ⟨s.agents, s.slots, s.pool, s.journal, s.space, rfl, kept, entries, rfl,
      fun _ => rfl, rfl, ?_⟩
    exact consistent.of_same rfl rfl rfl rfl consistent.space consistent.pool fun _ => rfl
  · obtain ⟨pool, journal, retired, stocked, patterns, same⟩ :=
      retireAll_spec (s := { s with queues := { s.queues with removals := [] } })
        consistent.pool now (s.agents.toList.filter fun a => s.doomed.contains a.id)
    have removed : s.removeQueued now =
        ((s.space.removeIf fun e => s.doomed.contains e.id).1, { s with
          queues := { s.queues with removals := [] }
          agents := (s.agents.toList.filter fun a => !s.doomed.contains a.id).toArray
          slots := slotsOf (s.agents.toList.filter fun a => !s.doomed.contains a.id)
          pool
          journal
          space := (s.space.removeIf fun e => s.doomed.contains e.id).2 }) := by
      rw [removeQueued_eq, if_neg blank]
      simp only [dismiss, retired]
    rw [removed, Space.removeIf_fst, counted]
    refine ⟨_, _, pool, journal, _, rfl, kept, ?_, ?_, patterns, same, ?_⟩
    · rw [Space.removeIf_entries, entries]
    · exact Space.after_terrain s.space (.removeIf _)
    · exact consistent.filter s.doomed.contains rfl rfl rfl rfl stocked patterns

end Sim
end Vivarium
