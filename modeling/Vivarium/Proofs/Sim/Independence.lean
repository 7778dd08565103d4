import Vivarium.Proofs.Sim.Modification

/-! What a modification does not depend on: of the queued removals nothing but the active ids among
them, of the behaviour nothing but how newborns inherit, and neither the size of the chunks nor the
board at all. -/
namespace Vivarium.Sim
variable {σ μ η : Type} {s s' : Sim σ μ η} {b : Behavior σ μ η} {now : Step} {chunkSize : UInt64}
  {board : Board}

/-! Removals. -/

/-- The simulation with other removals queued. -/
def requeued (s : Sim σ μ η) (removals : List AgentId) : Sim σ μ η :=
  { s with queues := { s.queues with removals } }

theorem Consistent.modify_requeued (consistent : s.Consistent) {removals : List AgentId}
    (same : ∀ id ∈ s.ids, removals.contains id = s.queues.removals.contains id) (now : Step)
    (executed : Nat) : (s.requeued removals).modify now executed = s.modify now executed := by
  have mail : (s.requeued removals).deliver = (s.deliver.1, s.deliver.2.requeued removals) := by
    have indexed : Indexes (s.requeued removals).slots (s.requeued removals).ids := consistent.slots
    rw [deliver_eq indexed, deliver_eq consistent.slots]
    rfl
  have unchanged : s.deliver.2.slots = s.slots ∧
      s.deliver.2.requeued s.queues.removals = s.deliver.2 := by
    rw [deliver_eq consistent.slots]
    exact ⟨rfl, rfl⟩
  have gone : (s.deliver.2.requeued removals).removeQueued now = s.deliver.2.removeQueued now := by
    conv_rhs => rw [← unchanged.2]
    refine removeQueued_congr ?_ now
    intro id active
    rw [unchanged.1, consistent.slots.contains_eq, decide_eq_true_iff] at active
    exact same id active
  simp only [modify, mail, gone]

/-! The behaviour, the chunks and the board. -/

/-- The simulation with another behaviour. -/
def driven (s : Sim σ μ η) (b : Behavior σ μ η) : Sim σ μ η := { s with behavior := b }

/-- The simulation with another behaviour, other chunks and another board. -/
def refitted (s : Sim σ μ η) (b : Behavior σ μ η) (chunkSize : UInt64) (board : Board) :
    Sim σ μ η :=
  { s with config := { s.config with chunkSize }, behavior := b, board }

theorem deliver_refitted (s : Sim σ μ η) :
    (s.refitted b chunkSize board).deliver =
      s.deliver.map id (·.refitted b chunkSize board) := by
  have one : ∀ (m : Message μ) (s : Nat × Sim σ μ η) (recipient : AgentId),
      deliverTo m (s.map id (·.refitted b chunkSize board)) recipient =
        (deliverTo m s recipient).map id (·.refitted b chunkSize board) := by
    rintro m ⟨n, s⟩ recipient
    rcases there : s.slots[recipient]? with - | slot
    · have there' : (s.refitted b chunkSize board).slots[recipient]? = none := there
      simp only [deliverTo, Prod.map_apply, there, there']
    · have there' : (s.refitted b chunkSize board).slots[recipient]? = some slot := there
      simp only [deliverTo, Prod.map_apply, there, there']
      rfl
  let fit : Nat × Sim σ μ η → Nat × Sim σ μ η := Prod.map id (·.refitted b chunkSize board)
  let send : Nat × Sim σ μ η → Message μ → Nat × Sim σ μ η := fun s m =>
    m.recipients.foldl (deliverTo m) s
  have each : ∀ s m, send (fit s) m = fit (send s m) := fun s m => List.foldl_hom fit (one m)
  exact @List.foldl_hom _ _ _ fit send send s.queues.deliveries
    (0, { s with queues := { s.queues with deliveries := [] } }) each

theorem retire_refitted (s : Sim σ μ η) (a : Agent σ μ) :
    retire now (s.refitted b chunkSize board) a =
      (retire now s a).refitted b chunkSize board := by
  simp only [retire, refitted, note]
  split
  · rfl
  · rfl

theorem dismiss_refitted (s : Sim σ μ η) (now : Step) (gone : AgentId → Bool) :
    (s.refitted b chunkSize board).dismiss now gone =
      (s.dismiss now gone).map id (·.refitted b chunkSize board) := by
  have retired : ∀ gone : List (Agent σ μ),
      gone.foldl (retire now) (s.refitted b chunkSize board) =
        (gone.foldl (retire now) s).refitted b chunkSize board := fun gone =>
    List.foldl_hom (·.refitted b chunkSize board) fun s a => retire_refitted s a
  have same : (s.refitted b chunkSize board).agents = s.agents := rfl
  simp only [dismiss, same, retired]
  rfl

theorem removeQueued_refitted (s : Sim σ μ η) (now : Step) :
    (s.refitted b chunkSize board).removeQueued now =
      (s.removeQueued now).map id (·.refitted b chunkSize board) := by
  have same : (s.refitted b chunkSize board).doomed = s.doomed := rfl
  rw [removeQueued_eq, removeQueued_eq, same]
  split
  · rfl
  · exact dismiss_refitted (s.requeued []) now s.doomed.contains

theorem moveAgents_refitted (s : Sim σ μ η) :
    (s.refitted b chunkSize board).moveAgents =
      s.moveAgents.map id (·.refitted b chunkSize board) := by
  simp only [moveAgents, Space.moveAll_eq]
  rfl

theorem activate_refitted (inherit : b.inherit = s.behavior.inherit) (a : Addition σ μ η) :
    (s.refitted b chunkSize board).activate a now =
      (s.activate a now).map id (·.refitted b chunkSize board) := by
  have newborn : ∀ start : Agent σ μ, raise b a start = raise s.behavior a start := by
    intro start
    simp only [raise, inherit]
  simp only [activate, refitted]
  simp only [allocateId]
  rcases s.pool.borrow a.population with e | ⟨storage, pool⟩
  · rfl
  · by_cases valid : s.nextId = .invalid
    · simp only [if_pos valid]
      rfl
    · simp only [if_neg valid, newborn]
      rcases s.space.insert ⟨s.nextId, a.population, a.projection⟩ with e | space
      · rfl
      · rfl

theorem activateAll_refitted (inherit : b.inherit = s.behavior.inherit) (chunkSize : UInt64)
    (board : Board) (now : Step) (additions : List (Addition σ μ η)) :
    activateAll now additions (s.refitted b chunkSize board) =
      (activateAll now additions s).map id (·.refitted b chunkSize board) := by
  induction additions generalizing s with
  | nil => rfl
  | cons a rest ih =>
    simp only [activateAll, activate_refitted inherit]
    rcases activated : s.activate a now with ⟨e | id, s'⟩
    · rfl
    · have kept := (activate_keeps activated).behavior
      exact ih (inherit.trans (congrArg _ kept.symm))

theorem activateQueued_refitted (inherit : b.inherit = s.behavior.inherit) :
    (s.refitted b chunkSize board).activateQueued now =
      (s.activateQueued now).map id (·.refitted b chunkSize board) := by
  have newborns := activateAll_refitted
    (s := { s with queues := { s.queues with additions := [] } }) inherit chunkSize board now
    s.queues.additions
  have same : (s.refitted b chunkSize board).queues = s.queues := rfl
  simp only [activateQueued, same]
  exact congrArg (fun x : Except SimError Unit × Sim σ μ η =>
    (x.1.map fun _ => s.queues.additions.length, x.2)) newborns

theorem Consistent.modify_refitted (consistent : s.Consistent)
    (inherit : b.inherit = s.behavior.inherit) (chunkSize : UInt64) (board : Board) (now : Step)
    (executed : Nat) :
    (s.refitted b chunkSize board).modify now executed =
      (s.modify now executed).map id (·.refitted b chunkSize board) := by
  have same := (consistent.cleared now).modified.keeps.behavior
  have kept : (s.refitted b chunkSize board).cleared now =
      (s.cleared now).refitted b chunkSize board := by
    simp only [Sim.cleared, deliver_refitted, removeQueued_refitted, moveAgents_refitted,
      Prod.map_snd]
  rw [modify_eq, modify_eq, kept,
    activateQueued_refitted (inherit.trans (congrArg _ same.symm))]
  simp only [deliver_refitted, removeQueued_refitted, moveAgents_refitted, Prod.map_snd, Prod.map_fst]
  rfl

/-- Neither the other removals nor the behaviour matters. -/
theorem Consistent.modify_independent (consistent : s.Consistent)
    (inherit : b.inherit = s.behavior.inherit) {removals : List AgentId}
    (same : ∀ id ∈ s.ids, removals.contains id = s.queues.removals.contains id) {executed : Nat}
    {summary : StepSummary} (modified : s.modify now executed = (.ok summary, s')) :
    ((s.requeued removals).driven b).modify now executed = (.ok summary, s'.driven b) := by
  have still : (s.requeued removals).Consistent := (Modified.requeue consistent now _).consistent
  have ends := (consistent.modify_requeued same now executed).trans modified
  have changed := fun b inherit => still.modify_refitted (b := b) inherit s.config.chunkSize s.board
    now executed
  simp only [ends, Prod.map_apply, id_eq] at changed
  -- with the behaviour, the chunks and the board there are, nothing has changed
  have kept : s' = s'.refitted s.behavior s.config.chunkSize s.board :=
    (Prod.mk.inj (ends.symm.trans (changed s.behavior rfl))).2
  rw [kept]
  exact changed b inherit

end Vivarium.Sim
