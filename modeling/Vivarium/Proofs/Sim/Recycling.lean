import Vivarium.Proofs.Behavior.Blind
import Vivarium.Proofs.Sim.Engine

/-! Recycling does not show. A newborn is the prototype of its population whether its storage was
handed out before or not, but for the count of its incarnations; and what no callback looks at has
no effect on anything else. Whatever engine of the program makes the steps, and in whatever order the
agents act in them, all that one simulation can do the other can do, too. -/
namespace Vivarium
variable {σ μ η : Type}

namespace Pool
variable {p p' : Pool σ μ} {q : Population}

/-- The same population is served by both pools or by neither, with agents that are alike. -/
theorem Stocked.borrow_alike (stocked : p.Stocked) (stocked' : p'.Stocked)
    (same : ∀ q, p'.pattern? q = p.pattern? q) (q : Population) :
    p.borrow q = .error (.unknownPopulation q) ∧ p'.borrow q = .error (.unknownPopulation q) ∨
      ∃ a a' rest rest', p.borrow q = .ok (a, rest) ∧ p'.borrow q = .ok (a', rest') ∧
        a.Alike a' ∧ rest.Stocked ∧ rest'.Stocked ∧
        ∀ q, rest'.pattern? q = rest.pattern? q := by
  have known := contains_congr (same q)
  rcases here : p.contains q with - | -
  · have unknown : ∀ p : Pool σ μ, p.contains q = false →
        p.borrow q = .error (.unknownPopulation q) := by
      intro p missing
      rcases bucket : p.bucket? q with - | b
      · rw [Pool.borrow, bucket]
      · rw [contains_iff.mpr ⟨b, bucket⟩] at missing
        cases missing
    exact .inl ⟨unknown p here, unknown p' (known.trans here)⟩
  · obtain ⟨a, rest, lent⟩ := borrow_of_contains here
    obtain ⟨a', rest', lent'⟩ := borrow_of_contains (known.trans here)
    obtain ⟨state, n, pattern, rfl⟩ := stocked.borrowed lent
    obtain ⟨state', n', pattern', rfl⟩ := stocked'.borrowed lent'
    have prototype : Agent.prototype q state = (Agent.prototype q state' : Agent σ μ) :=
      Option.some.inj (pattern.symm.trans ((same q).symm.trans pattern'))
    refine .inr ⟨_, _, rest, rest', lent, lent', ⟨n', ?_⟩, stocked.borrow lent,
      stocked'.borrow lent', fun r => ?_⟩
    · rw [← prototype]
    · rw [borrow_pattern? lent', borrow_pattern? lent, same]

end Pool

namespace Sim
variable {s t : Sim σ μ η}

/-- Two simulations that differ in the storage of their agents only: in the counts of incarnations,
in what waits in the pool, and in the pool's statistics. -/
def Alike (s t : Sim σ μ η) : Prop :=
  ∃ agents pool, List.Forall₂ Agent.Alike s.agents.toList agents.toList ∧
    (∀ p, pool.pattern? p = s.pool.pattern? p) ∧ t = { s with agents, pool }

theorem Alike.symm (alike : s.Alike t) : t.Alike s := by
  obtain ⟨agents, pool, same, patterns, rfl⟩ := alike
  exact ⟨s.agents, s.pool, same.flip.imp fun _ _ => .symm, fun p => (patterns p).symm, rfl⟩

/-- Two such simulations in which no callback looks at the count of incarnations. -/
structure Paired (s t : Sim σ μ η) : Prop where
  alike : s.Alike t
  stocked : s.pool.Stocked
  stocked' : t.pool.Stocked
  behavior : s.behavior.Blind
  waiting : ∀ x ∈ s.queues.additions, x.Blind

/-- Both go on alike and with the same result. -/
def Agree {α : Type} (x y : α × Sim σ μ η) : Prop := y.1 = x.1 ∧ x.2.Paired y.2

namespace Paired

theorem symm (paired : s.Paired t) : t.Paired s := by
  obtain ⟨alike, stocked, stocked', behavior, waiting⟩ := paired
  have back := alike.symm
  obtain ⟨agents, pool, -, -, rfl⟩ := alike
  exact ⟨back, stocked', stocked, behavior, waiting⟩

/-- What does not look at the storage finds the same. -/
theorem same {α : Type} (paired : s.Paired t) (f : Sim σ μ η → α)
    (bare : ∀ agents pool, f { s with agents, pool } = f s) : f t = f s := by
  obtain ⟨agents, pool, -, -, rfl⟩ := paired.alike
  exact bare agents pool

theorem agents_alike (paired : s.Paired t) :
    List.Forall₂ Agent.Alike s.agents.toList t.agents.toList := by
  obtain ⟨agents, pool, alike, -, rfl⟩ := paired.alike
  exact alike

theorem agentAt_alike (paired : s.Paired t) (slot : Nat) :
    Option.Rel Agent.Alike s.agents[slot]? t.agents[slot]? := by
  have there := Agent.getElem?_alike paired.agents_alike slot
  rwa [Array.getElem?_toList, Array.getElem?_toList] at there

theorem behavior_eq (paired : s.Paired t) : t.behavior = s.behavior :=
  paired.same Sim.behavior fun _ _ => rfl

theorem step_eq (paired : s.Paired t) : t.step = s.step := paired.same Sim.step fun _ _ => rfl

theorem context_eq (paired : s.Paired t) : t.context = s.context :=
  paired.same Sim.context fun _ _ => rfl

theorem commons_eq (paired : s.Paired t) : t.commons = s.commons :=
  paired.same Sim.commons fun _ _ => rfl

theorem slots_eq (paired : s.Paired t) : t.slots = s.slots := paired.same Sim.slots fun _ _ => rfl

theorem queues_eq (paired : s.Paired t) : t.queues = s.queues := paired.same Sim.queues fun _ _ => rfl

theorem validateAddition (paired : s.Paired t) (a : Addition σ μ η) :
    t.validateAddition a = s.validateAddition a := by
  obtain ⟨agents, pool, -, patterns, rfl⟩ := paired.alike
  have known : pool.contains a.population = s.pool.contains a.population :=
    Pool.contains_congr (patterns _)
  simp only [Sim.validateAddition, known]

theorem raise (paired : s.Paired t) {x : Addition σ μ η} (blind : x.Blind) {a a' : Agent σ μ}
    (alike : a.Alike a') : (Sim.raise s.behavior x a).Alike (Sim.raise s.behavior x a') := by
  obtain ⟨population, projection, heritage, init⟩ := x
  cases heritage with
  | none =>
    cases init with
    | none => exact alike
    | some init => exact alike.withBody (blind init rfl)
  | some h =>
    have heir := alike.withBody (paired.behavior.inherit h)
    cases init with
    | none => exact heir
    | some init => exact heir.withBody (blind init rfl)

theorem activate (paired : s.Paired t) (now : Step) {x : Addition σ μ η} (blind : x.Blind) :
    Agree (s.activate x now) (t.activate x now) := by
  obtain ⟨⟨agents, pool, alike, patterns, rfl⟩, stocked, stocked', behavior, waiting⟩ := id paired
  rcases stocked.borrow_alike stocked' patterns x.population with ⟨refused, refused'⟩ |
    ⟨a, a', rest, rest', lent, lent', same, still, still', kept⟩
  · simp only [Sim.activate, refused, refused']
    exact ⟨rfl, paired⟩
  · have started : ∀ id, (a.activate id now s.config.seed).Alike (a'.activate id now s.config.seed) := by
      obtain ⟨n, rfl⟩ := same
      exact fun id => ⟨n, rfl⟩
    simp only [Sim.activate, lent, lent', allocateId]
    by_cases spent : s.nextId = .invalid
    · simp only [spent, if_true]
      exact ⟨rfl, ⟨_, _, alike, kept, rfl⟩, still, still', behavior, waiting⟩
    · simp only [spent, if_false]
      rcases placed : s.space.insert ⟨s.nextId, x.population, x.projection⟩ with e | space
      · exact ⟨rfl, ⟨_, _, alike, kept, rfl⟩, still, still', behavior, waiting⟩
      · have sizes : agents.size = s.agents.size := by simpa using alike.length_eq.symm
        have born : List.Forall₂ Agent.Alike
            (s.agents.push (Sim.raise s.behavior x (a.activate s.nextId now s.config.seed))).toList
            (agents.push (Sim.raise s.behavior x (a'.activate s.nextId now s.config.seed))).toList := by
          rw [Array.toList_push, Array.toList_push]
          exact List.rel_append alike (.cons (paired.raise blind (started s.nextId)) .nil)
        exact ⟨rfl, ⟨_, rest', born, kept, by simp only [note, sizes]⟩, still, still', behavior,
          waiting⟩

/-! Requests. -/

theorem requeue (paired : s.Paired t) (queues : Queues σ μ η)
    (waiting : ∀ x ∈ queues.additions, x.Blind) :
    Paired { s with queues } { t with queues } := by
  obtain ⟨⟨agents, pool, alike, patterns, rfl⟩, stocked, stocked', behavior, -⟩ := paired
  exact ⟨⟨agents, pool, alike, patterns, rfl⟩, stocked, stocked', behavior, waiting⟩

theorem spawn (paired : s.Paired t) {x : Addition σ μ η} (blind : x.Blind) :
    Agree (s.spawn x) (t.spawn x) := by
  have same := paired.validateAddition x
  have phase : t.phase = s.phase := paired.same Sim.phase fun _ _ => rfl
  have left : t.ensureIds 1 = s.ensureIds 1 := paired.same (Sim.ensureIds · 1) fun _ _ => rfl
  simp only [Sim.spawn, same, phase, left, paired.step_eq]
  split
  · exact ⟨rfl, paired⟩
  · rcases s.validateAddition x with e | ⟨⟨⟩⟩
    · exact ⟨rfl, paired⟩
    · rcases s.ensureIds 1 with e | ⟨⟨⟩⟩
      · exact ⟨rfl, paired⟩
      · exact paired.activate _ blind

theorem redraw (paired : s.Paired t) (agents agents' : Array (Agent σ μ))
    (alike : List.Forall₂ Agent.Alike agents.toList agents'.toList) :
    Paired { s with agents } { t with agents := agents' } := by
  obtain ⟨⟨_, pool, -, patterns, rfl⟩, stocked, stocked', behavior, waiting⟩ := paired
  exact ⟨⟨agents', pool, alike, patterns, rfl⟩, stocked, stocked', behavior, waiting⟩

theorem edit (paired : s.Paired t) (id : AgentId) {f : Agent σ μ → Body σ}
    (blind : Agent.Blind f) : (t.edit? id f).isSome = (s.edit? id f).isSome ∧
      Paired ((s.edit? id f).getD s) ((t.edit? id f).getD t) := by
  have edited : ∀ slot, List.Forall₂ Agent.Alike
      (s.agents.toList.modify slot fun a => a.withBody (f a))
      (t.agents.toList.modify slot fun a => a.withBody (f a)) :=
    fun slot => Agent.modify_alike paired.agents_alike slot fun same => same.withBody blind
  simp only [Sim.edit?, paired.slots_eq, Option.bind_eq_bind]
  rcases s.slots[id]? with - | slot
  · exact ⟨rfl, paired⟩
  · have there := paired.agentAt_alike slot
    have pair := edited slot
    rw [List.modify_eq_set_getElem?, List.modify_eq_set_getElem?, Array.getElem?_toList,
      Array.getElem?_toList] at pair
    simp only [Option.bind_some]
    generalize s.agents[slot]? = one at there pair
    generalize t.agents[slot]? = other at there pair
    cases there with
    | none => exact ⟨rfl, paired⟩
    | @some a a' same =>
      have drawn := paired.redraw (s.agents.setIfInBounds slot (a.withBody (f a)))
        (t.agents.setIfInBounds slot (a'.withBody (f a'))) (by
          rw [Array.toList_setIfInBounds, Array.toList_setIfInBounds]
          exact pair)
      rw [paired.slots_eq] at drawn
      exact ⟨rfl, drawn⟩

/-! A modification. -/

theorem deliverTo (paired : s.Paired t) (m : Message μ) (copies : Nat) (id : AgentId) :
    Agree (Sim.deliverTo m (copies, s) id) (Sim.deliverTo m (copies, t) id) := by
  obtain ⟨agents, pool, alike, patterns, rfl⟩ := paired.alike
  simp only [Sim.deliverTo]
  split
  · rename_i slot _
    refine ⟨rfl, paired.redraw (s.agents.modify slot (·.deliver m))
      (agents.modify slot (·.deliver m)) ?_⟩
    rw [Array.toList_modify, Array.toList_modify]
    refine Agent.modify_alike alike slot ?_
    rintro a - ⟨n, rfl⟩
    exact ⟨n, rfl⟩
  · exact ⟨rfl, paired⟩

theorem deliver (paired : s.Paired t) : Agree s.deliver t.deliver := by
  have emptied := paired.requeue { s.queues with deliveries := [] } paired.waiting
  simp only [Sim.deliver, paired.queues_eq]
  refine List.foldl_rel (r := Agree) ⟨rfl, emptied⟩ ?_
  intro m _ x y agree
  refine List.foldl_rel agree ?_
  rintro id - ⟨copies, s⟩ ⟨copies', t⟩ ⟨same, paired⟩
  obtain rfl : copies' = copies := same
  exact paired.deliverTo m copies' id

theorem retire_spec (stocked : s.pool.Stocked) (now : Step) (a : Agent σ μ) :
    ∃ pool : Pool σ μ, pool.Stocked ∧ (∀ p, pool.pattern? p = s.pool.pattern? p) ∧
      Sim.retire now s a = { s.note (.removed now a.id a.population) with pool } := by
  rw [Sim.retire]
  dsimp only
  split
  · rename_i pool released
    exact ⟨pool, stocked.release released, fun p => Pool.release_pattern? released, rfl⟩
  · exact ⟨s.pool, stocked, fun _ => rfl, rfl⟩

theorem retire (paired : s.Paired t) (now : Step) {a a' : Agent σ μ} (alike : a.Alike a') :
    Paired (Sim.retire now s a) (Sim.retire now t a') := by
  obtain ⟨first, still, kept, ends⟩ := retire_spec paired.stocked now a
  obtain ⟨second, still', kept', ends'⟩ := retire_spec paired.stocked' now a'
  obtain ⟨⟨agents, pool, same, patterns, rfl⟩, -, -, behavior, waiting⟩ := paired
  obtain ⟨n, rfl⟩ := alike
  rw [ends, ends']
  refine ⟨⟨agents, second, same, fun p => ?_, rfl⟩, still,
    still', behavior, waiting⟩
  exact (kept' p).trans ((patterns p).trans (kept p).symm)

/-- The places of agents depend on their ids only. -/
theorem slotsOf_alike {agents agents' : List (Agent σ μ)}
    (alike : List.Forall₂ Agent.Alike agents agents') : slotsOf agents' = slotsOf agents := by
  have number : ∀ agents : List (Agent σ μ), slotsOf agents =
      (agents.map (·.id)).zipIdx.foldl (fun slots (id, i) => slots.insert id i) ∅ := by
    intro agents
    rw [slotsOf, List.zipIdx_map, List.foldl_map]
    rfl
  rw [number, number, Agent.map_eq_of_blind alike fun _ _ => rfl]

theorem dismiss (paired : s.Paired t) (now : Step) (gone : AgentId → Bool) :
    Agree (s.dismiss now gone) (t.dismiss now gone) := by
  have same : ∀ keeps : AgentId → Bool, List.Forall₂ Agent.Alike
      (s.agents.toList.filter fun a => keeps a.id) (t.agents.toList.filter fun a => keeps a.id) := by
    intro keeps
    refine List.rel_filter ?_ paired.agents_alike
    rintro a - ⟨n, rfl⟩
    exact Iff.rfl
  have retired : Paired ((s.agents.toList.filter fun a => gone a.id).foldl (Sim.retire now) s)
      ((t.agents.toList.filter fun a => gone a.id).foldl (Sim.retire now) t) :=
    List.rel_foldl (P := Paired) (R := Agent.Alike)
      (fun _ _ paired _ _ alike => paired.retire now alike) paired (same gone)
  have kept := same fun id => !gone id
  simp only [Sim.dismiss, slotsOf_alike kept]
  obtain ⟨⟨agents, pool, -, patterns, rest⟩, still, still', behavior, waiting⟩ := retired
  rw [rest] at still' ⊢
  exact ⟨rfl, ⟨_, pool, kept, patterns, rfl⟩, still, still', behavior, waiting⟩

theorem removeQueued (paired : s.Paired t) (now : Step) :
    Agree (s.removeQueued now) (t.removeQueued now) := by
  have emptied := paired.requeue { s.queues with removals := [] } paired.waiting
  have same : t.doomed = s.doomed := by rw [doomed, doomed, paired.queues_eq, paired.slots_eq]
  rw [removeQueued_eq, removeQueued_eq, same, paired.queues_eq]
  split
  · exact ⟨rfl, emptied⟩
  · exact emptied.dismiss now _

theorem moveAgents (paired : s.Paired t) : Agree s.moveAgents t.moveAgents := by
  have motion : (fun id => (t.agent? id).map (·.motion)) =
      fun id => (s.agent? id).map (·.motion) := by
    funext id
    simp only [agent?, paired.slots_eq, Option.bind_eq_bind]
    rcases s.slots[id]? with - | slot
    · rfl
    · have there := paired.agentAt_alike slot
      simp only [Option.bind_some]
      generalize s.agents[slot]? = one at there
      generalize t.agents[slot]? = other at there
      cases there with
      | none => rfl
      | some same =>
        obtain ⟨n, rfl⟩ := same
        rfl
  simp only [Sim.moveAgents, motion]
  obtain ⟨⟨agents, pool, alike, patterns, rfl⟩, stocked, stocked', behavior, waiting⟩ := paired
  exact ⟨rfl, ⟨agents, pool, alike, patterns, rfl⟩, stocked, stocked', behavior, waiting⟩

theorem activateAll (paired : s.Paired t) (now : Step) {additions : List (Addition σ μ η)}
    (blind : ∀ x ∈ additions, x.Blind) :
    Agree (Sim.activateAll now additions s) (Sim.activateAll now additions t) := by
  induction additions generalizing s t with
  | nil => exact ⟨rfl, paired⟩
  | cons x rest ih =>
    rw [List.forall_mem_cons] at blind
    have first := paired.activate now blind.1
    simp only [Sim.activateAll]
    generalize s.activate x now = one at first ⊢
    generalize t.activate x now = other at first ⊢
    obtain ⟨result, s'⟩ := one
    obtain ⟨result', t'⟩ := other
    obtain ⟨same, paired'⟩ := first
    obtain rfl : result' = result := same
    cases result' with
    | error e => exact ⟨rfl, paired'⟩
    | ok id => exact ih paired' blind.2

theorem activateQueued (paired : s.Paired t) (now : Step) :
    Agree (s.activateQueued now) (t.activateQueued now) := by
  have emptied := paired.requeue { s.queues with additions := [] } (List.forall_mem_nil _)
  have newborns := emptied.activateAll now paired.waiting
  simp only [Sim.activateQueued, paired.queues_eq]
  exact ⟨by rw [newborns.1], newborns.2⟩

theorem modify (paired : s.Paired t) (now : Step) (executed : Nat) :
    Agree (s.modify now executed) (t.modify now executed) := by
  obtain ⟨delivered, paired₁⟩ := paired.deliver
  obtain ⟨removed, paired₂⟩ := paired₁.removeQueued now
  obtain ⟨moved, paired₃⟩ := paired₂.moveAgents
  obtain ⟨born, paired₄⟩ := paired₃.activateQueued now
  have sizes := paired₄.agents_alike.length_eq
  rw [Array.length_toList, Array.length_toList] at sizes
  simp only [Sim.modify, delivered, removed, moved, born, sizes]
  exact ⟨rfl, paired₄⟩

/-! A step. -/

theorem keeps (paired : s.Paired t) : s.Keeps t := by
  obtain ⟨agents, pool, -, patterns, rfl⟩ := paired.alike
  exact ⟨rfl, rfl, rfl, patterns⟩

theorem validateQueued (paired : s.Paired t) (commands : Commands σ μ η) :
    t.validateQueued commands = s.validateQueued commands := by
  have left : ∀ n, t.ensureIds n = s.ensureIds n := fun n =>
    paired.same (Sim.ensureIds · n) fun _ _ => rfl
  simp only [Sim.validateQueued, validateAll_congr paired.keeps, paired.queues_eq, left]

theorem brokenOff (paired : s.Paired t) {out out' : List (Agent σ μ)}
    (alike : List.Forall₂ Agent.Alike out out') (index : SpatialIndex Float) :
    Paired (s.brokenOff out index) (t.brokenOff out' index) := by
  obtain ⟨⟨agents, pool, -, patterns, rfl⟩, stocked, stocked', behavior, waiting⟩ := paired
  exact ⟨⟨out'.toArray, pool, alike, patterns, rfl⟩, stocked, stocked', behavior, waiting⟩

theorem accept (paired : s.Paired t) {out out' : List (Agent σ μ)}
    (alike : List.Forall₂ Agent.Alike out out') (shared : Commons) {commands : Commands σ μ η}
    (asked : ∀ x ∈ commands.additions, x.Blind) :
    Paired ((s.acting out shared).accept s.step commands)
      ((t.acting out' shared).accept t.step commands) := by
  obtain ⟨⟨agents, pool, -, patterns, rfl⟩, stocked, stocked', behavior, waiting⟩ := paired
  have cleared : List.Forall₂ Agent.Alike (out.toArray.map (·.clearInbox)).toList
      (out'.toArray.map (·.clearInbox)).toList := by
    rw [Array.toList_map, Array.toList_map]
    refine List.rel_map ?_ alike
    rintro a - ⟨n, rfl⟩
    exact ⟨n, rfl⟩
  exact ⟨⟨_, pool, cleared, patterns, rfl⟩, stocked, stocked', behavior,
    List.forall_mem_append.mpr ⟨waiting, asked⟩⟩

theorem concluded (now : Step) {x y : Except SimError StepSummary × Sim σ μ η} (agree : Agree x y) :
    Agree (Sim.concluded now x) (Sim.concluded now y) := by
  obtain ⟨result, s⟩ := x
  obtain ⟨result', t⟩ := y
  obtain ⟨same, ⟨⟨agents, pool, alike, patterns, rest⟩, stocked, stocked', behavior, waiting⟩⟩ := agree
  obtain rfl : result' = result := same
  obtain rfl : t = { s with agents, pool } := rest
  cases result' with
  | error e =>
    exact ⟨rfl, ⟨agents, pool, alike, patterns, rfl⟩, stocked, stocked', behavior, waiting⟩
  | ok summary =>
    exact ⟨rfl, ⟨agents, pool, alike, patterns, rfl⟩, stocked, stocked', behavior, waiting⟩

theorem finish (paired : s.Paired t) {result : Except BehaviorError (Commands σ μ η)}
    {out out' : List (Agent σ μ)} (alike : List.Forall₂ Agent.Alike out out') (shared : Commons)
    (asked : ∀ commands, result = .ok commands → ∀ x ∈ commands.additions, x.Blind) :
    Agree (s.finish Sim.modify (result, out, shared)) (t.finish Sim.modify (result, out', shared)) := by
  cases result with
  | error cause => exact ⟨rfl, paired.brokenOff alike shared.index⟩
  | ok commands =>
    have valid := paired.validateQueued commands
    rcases checked : s.validateQueued commands with e | ⟨⟨⟩⟩
    · rw [finish_of_refused _ checked, finish_of_refused _ (valid.trans checked)]
      exact ⟨rfl, paired.brokenOff alike shared.index⟩
    · rw [finish_of_accepted checked, finish_of_accepted (valid.trans checked)]
      have accepted := paired.accept alike shared (asked commands rfl)
      have sizes := paired.agents_alike.length_eq
      rw [Array.length_toList, Array.length_toList] at sizes
      rw [← sizes]
      rw [paired.step_eq] at accepted ⊢
      exact concluded s.step (accepted.modify s.step s.agents.size)

end Paired

/-! The turns of agents. -/

theorem Paired.chunks_alike (paired : s.Paired t) :
    List.Forall₂ (List.Forall₂ Agent.Alike) (chunks s.config.chunkSize.toNat s.agents.toList)
      (chunks t.config.chunkSize.toNat t.agents.toList) := by
  rw [paired.same Sim.config fun _ _ => rfl]
  exact Agent.chunks_alike paired.agents_alike _

theorem Paired.execute (paired : s.Paired t) : ∃ out, t.execute = (s.execute.1, out, s.execute.2.2) ∧
    List.Forall₂ Agent.Alike s.execute.2.1 out := by
  rw [Sim.execute, paired.behavior_eq, paired.context_eq, paired.commons_eq]
  exact paired.behavior.performChunks paired.chunks_alike s.commons

theorem Paired.turned (paired : s.Paired t) {turns : Outcome σ μ η} (turned : s.Turned turns) :
    ∃ out, t.Turned (turns.1, out, turns.2.2) ∧ List.Forall₂ Agent.Alike turns.2.1 out := by
  simp only [Turned, paired.behavior_eq, paired.context_eq, paired.commons_eq]
  exact paired.behavior.ends paired.chunks_alike turned

theorem Turned.additions_blind {turns : Outcome σ μ η} (turned : s.Turned turns)
    (blind : s.behavior.Blind) {commands : Commands σ μ η} (ok : turns.1 = .ok commands) :
    ∀ x ∈ commands.additions, x.Blind := by
  rw [Turned, ok] at turned
  exact turned.additions_blind blind s.commons_views

namespace Engine
variable {E : Engine σ μ η}

/-- What the turns of the one simulation come to, those of the other can come to. -/
theorem turns_of_program (among : E ∈ program) (paired : s.Paired t) {turns : Outcome σ μ η}
    (turned : E.Turns s turns) : ∃ out, E.Turns t (turns.1, out, turns.2.2) ∧
      List.Forall₂ Agent.Alike turns.2.1 out := by
  simp only [program, List.mem_cons, List.not_mem_nil, or_false] at among
  rcases among with rfl | rfl
  · obtain rfl : turns = s.execute := turned
    obtain ⟨out, same, alike⟩ := paired.execute
    exact ⟨out, same.symm, alike⟩
  · exact paired.turned turned

end Engine

namespace Paired
variable {E : Engine σ μ η}

theorem makes (paired : s.Paired t) (among : E ∈ Engine.program)
    {out : Except SimError StepSummary × Sim σ μ η} (made : E.Makes s out) :
    ∃ out', E.Makes t out' ∧ Agree out out' := by
  obtain ⟨turns, turned, -, rfl⟩ := Engine.makes_of_program among made
  obtain ⟨acted, turned', alike⟩ := Engine.turns_of_program among paired turned
  have asked : ∀ commands, turns.1 = .ok commands → ∀ x ∈ commands.additions, x.Blind :=
    fun _ ok => (Engine.turned_of_program among turned).additions_blind paired.behavior ok
  refine ⟨_, ⟨_, turned', rfl⟩, ?_⟩
  rw [Engine.modify_of_program among]
  exact paired.finish alike turns.2.2 asked

theorem steps (paired : s.Paired t) (among : E ∈ Engine.program) {n : Nat}
    {out : Except SimError Unit × Sim σ μ η} (steps : E.Steps s n out) :
    ∃ out', E.Steps t n out' ∧ Agree out out' := by
  induction steps generalizing t with
  | none => exact ⟨_, .none, rfl, paired⟩
  | failed made =>
    obtain ⟨⟨result, t'⟩, made', same, next⟩ := paired.makes among made
    obtain rfl := same
    exact ⟨_, .failed made', rfl, next⟩
  | next made _ ih =>
    obtain ⟨⟨result, t'⟩, made', same, next⟩ := paired.makes among made
    obtain rfl := same
    obtain ⟨out', more, agree⟩ := ih next
    exact ⟨out', .next made' more, agree⟩

end Paired

/-! Calls. -/

/-- What a call brings along does not look at the count of incarnations. -/
def Call.Blind : Call σ μ η → Prop
  | .spawn x => x.Blind
  | .enqueueAddition x => x.Blind
  | .edit _ f => Agent.Blind f
  | _ => True

/-- The same answer, and simulations that differ in the storage of their agents only. -/
def Same (x y : Reply σ μ η × Sim σ μ η) : Prop := y.1 = x.1 ∧ x.2.Alike y.2

namespace Same
variable {x y : Reply σ μ η × Sim σ μ η} {course course' : List (Reply σ μ η × Sim σ μ η)}

theorem symm (same : Same x y) : Same y x := ⟨same.1.symm, same.2.symm⟩

theorem replies (same : List.Forall₂ Same course course') :
    course'.map (·.1) = course.map (·.1) := by
  induction same with
  | nil => rfl
  | cons first _ ih => rw [List.map_cons, List.map_cons, first.1, ih]

theorem final (alike : s.Alike t) (same : List.Forall₂ Same course course') :
    (s.final course).Alike (t.final course') := by
  induction same generalizing s t with
  | nil => exact alike
  | cons first _ ih =>
    rw [final_cons, final_cons]
    exact ih first.2

end Same

namespace Paired
variable {E : Engine σ μ η} {c : Call σ μ η} {calls : List (Call σ μ η)}

theorem rests (paired : s.Paired t) (blind : c.Blind) (rests : c.Rests) :
    t.reply c = s.reply c ∧ Paired (s.after c) (t.after c) := by
  cases c with
  | spawn x =>
    obtain ⟨same, next⟩ := paired.spawn blind
    exact ⟨congrArg Reply.spawned same, next⟩
  | enqueueAddition x =>
    have queued := paired.requeue { s.queues with additions := s.queues.additions ++ [x] }
      (List.forall_mem_append.mpr ⟨paired.waiting, List.forall_mem_singleton.mpr blind⟩)
    simp only [Sim.after, Sim.enqueueAddition, paired.queues_eq]
    exact ⟨rfl, queued⟩
  | enqueueRemoval id =>
    have queued := paired.requeue { s.queues with removals := s.queues.removals ++ [id] }
      paired.waiting
    simp only [Sim.after, Sim.enqueueRemoval, paired.queues_eq]
    exact ⟨rfl, queued⟩
  | enqueueDelivery m =>
    have queued := paired.requeue { s.queues with deliveries := s.queues.deliveries ++ [m] }
      paired.waiting
    simp only [Sim.after, Sim.enqueueDelivery, paired.queues_eq]
    exact ⟨rfl, queued⟩
  | discardQueued =>
    exact ⟨congrArg Reply.discarded paired.queues_eq, paired.requeue .empty (List.forall_mem_nil _)⟩
  | edit id f =>
    obtain ⟨same, next⟩ := paired.edit id blind
    exact ⟨congrArg Reply.edited same, next⟩
  | nextStep => exact rests.elim
  | runSteps n => exact rests.elim
  | run => exact rests.elim

theorem answers (paired : s.Paired t) (among : E ∈ Engine.program) (blind : c.Blind)
    {r : Reply σ μ η} {s' : Sim σ μ η} (answers : E.Answers s c (r, s')) :
    ∃ t', E.Answers t c (r, t') ∧ s'.Paired t' := by
  cases answers with
  | rests rests =>
    obtain ⟨same, next⟩ := paired.rests blind rests
    exact ⟨_, same ▸ .rests rests, next⟩
  | nextStep made =>
    obtain ⟨⟨result, t'⟩, made', rfl, next⟩ := paired.makes among made
    exact ⟨t', .nextStep made', next⟩
  | runSteps steps =>
    obtain ⟨⟨result, t'⟩, steps', rfl, next⟩ := paired.steps among steps
    exact ⟨t', .runSteps steps', next⟩
  | run steps =>
    have left : t.config.endStep.since t.step = s.config.endStep.since s.step :=
      paired.same (fun s => s.config.endStep.since s.step) fun _ _ => rfl
    obtain ⟨⟨result, t'⟩, steps', rfl, next⟩ := paired.steps among steps
    rw [← left] at steps'
    exact ⟨t', .run steps', next⟩

/-- Whatever course the calls take in the one simulation, they can take in the other. -/
theorem course (paired : s.Paired t) (among : E ∈ Engine.program) (blind : ∀ c ∈ calls, c.Blind)
    {course : List (Reply σ μ η × Sim σ μ η)} (runs : E.Course s calls course) :
    ∃ course', E.Course t calls course' ∧ List.Forall₂ Same course course' := by
  induction runs generalizing t with
  | nil => exact ⟨[], .nil, .nil⟩
  | cons first _ ih =>
    rw [List.forall_mem_cons] at blind
    obtain ⟨t', first', next⟩ := paired.answers among blind.1 first
    obtain ⟨rest, others, same⟩ := ih next blind.2
    exact ⟨_, .cons first' others, .cons ⟨rfl, next.alike⟩ same⟩

end Paired
end Sim

namespace Setup

/-- Reserving storage leaves the prototypes as they are. -/
theorem reserveAll_pattern? {agentBytes : Nat} {pool pool' : Pool σ μ}
    {capacities : List (Population × Nat)}
    (reserved : reserveAll agentBytes pool capacities = .ok pool') (p : Population) :
    pool'.pattern? p = pool.pattern? p := by
  induction capacities generalizing pool with
  | nil =>
    cases reserved
    rfl
  | cons c rest ih =>
    simp only [reserveAll] at reserved
    split at reserved
    · cases reserved
    · rename_i more first
      exact (ih reserved).trans (Pool.reserve_pattern? first)

variable {setup : Setup σ μ η} {capacities : List (Population × Nat)} {s t : Sim σ μ η}

theorem build_paired (built : setup.build = .ok s)
    (built' : { setup with capacities }.build = .ok t) (blind : setup.behavior.Blind) :
    s.Paired t := by
  obtain ⟨base, grid, pool, based, walled, stocked, rfl⟩ := build_parts built
  obtain ⟨base', grid', pool', based', walled', stocked', rfl⟩ := build_parts built'
  obtain rfl : base = base' := Except.ok.inj (based.symm.trans based')
  obtain rfl : grid = grid' := Except.ok.inj (walled.symm.trans walled')
  refine ⟨⟨#[], pool', .nil, fun p => ?_, rfl⟩, stockedPool_stocked stocked,
    stockedPool_stocked stocked', blind, List.forall_mem_nil _⟩
  obtain ⟨_, -, reserved⟩ := stockedPool_eq_ok stocked
  obtain ⟨_, -, reserved'⟩ := stockedPool_eq_ok stocked'
  exact (reserveAll_pattern? reserved' p).trans (reserveAll_pattern? reserved p).symm

end Setup

namespace Sim
variable {setup : Setup σ μ η} {capacities : List (Population × Nat)} {s t : Sim σ μ η}

/-- How much storage a simulation starts with does not show. Of two simulations set up with different
capacities, each can answer the same calls as the other can, and after each call they differ in storage
only, whichever engine of the program makes the steps. With one worker there is one way to answer. -/
theorem recycling_unobservable (built : setup.build = .ok s)
    (built' : { setup with capacities }.build = .ok t) (blind : setup.behavior.Blind)
    (calls : List (Call σ μ η)) (callbacks : ∀ c ∈ calls, c.Blind) :
    (∀ E ∈ Engine.program,
      (∀ course, E.Course s calls course →
        ∃ course', E.Course t calls course' ∧ List.Forall₂ Same course course') ∧
      ∀ course', E.Course t calls course' →
        ∃ course, E.Course s calls course ∧ List.Forall₂ Same course course') ∧
    t.replies calls = s.replies calls ∧ (s.afterAll calls).Alike (t.afterAll calls) := by
  have paired := Setup.build_paired built built' blind
  refine ⟨fun E among => ⟨fun course runs => paired.course among callbacks runs, ?_⟩, ?_⟩
  · intro course' runs
    obtain ⟨course, runs', same⟩ := paired.symm.course among callbacks runs
    exact ⟨course, runs', same.flip.imp fun _ _ => Same.symm⟩
  · obtain ⟨course, runs⟩ := Engine.own.course_exists s calls
    obtain ⟨course', runs', same⟩ := paired.course Engine.own_mem_program callbacks runs
    obtain ⟨replies, last⟩ := Engine.own_course runs
    obtain ⟨replies', last'⟩ := Engine.own_course runs'
    rw [← replies, ← replies', ← last, ← last']
    exact ⟨Same.replies same, Same.final paired.alike same⟩

end Sim

/-- Agents that race for one place in each step and count how often they were first. -/
def Behavior.racing : Behavior Nat Unit Unit where
  act _ a := do
    if ← Act.claim "place" (.agent a.id) then Act.setState (a.state + 1)
  inherit a _ := a.toBody

theorem Behavior.racing_blind : Behavior.racing.Blind where
  act _ _ _ := rfl
  inherit _ _ _ := rfl
  additions := by
    intro c a buffer surveyed x yields asked
    cases yields with
    | @access _ _ _ won _ _ gets rest =>
      cases won with
      | false =>
        cases rest
        exact asked
      | true =>
        cases rest
        exact asked

namespace Sim

/-- Two workers race, and one of them makes room for another agent, with and without storage that
waited for it. -/
theorem recycling_unobservable_racers :
    let setup : Setup Nat Unit Unit :=
      { Setup.new { Config.sized 1 1 with chunkSize := 1 } .racing with
        prototypes := [("walker", 0)] }
    let walker : Addition Nat Unit Unit := .plain "walker" (.placed 0.5 0.5)
    let calls : List (Call Nat Unit Unit) :=
      [.spawn walker, .spawn walker, .enqueueRemoval ⟨0⟩, .nextStep, .spawn walker, .nextStep]
    ∃ s t, setup.build = .ok s ∧ { setup with capacities := [("walker", 2)] }.build = .ok t ∧
      s.pool.available "walker" = 0 ∧ t.pool.available "walker" = 2 ∧
      (∃ course, Engine.workers.Course s calls course) ∧
      (∀ course, Engine.workers.Course s calls course →
        ∃ course', Engine.workers.Course t calls course' ∧ List.Forall₂ Same course course') ∧
      t.replies calls = s.replies calls ∧ (s.afterAll calls).Alike (t.afterAll calls) := by
  intro setup walker calls
  obtain ⟨s, built, none⟩ : ∃ s : Sim Nat Unit Unit, setup.build = .ok s ∧
      s.pool.available "walker" = 0 := ⟨_, rfl, rfl⟩
  obtain ⟨t, built', two⟩ : ∃ t : Sim Nat Unit Unit,
      { setup with capacities := [("walker", 2)] }.build = .ok t ∧
        t.pool.available "walker" = 2 := ⟨_, rfl, rfl⟩
  obtain ⟨courses, same, alike⟩ := recycling_unobservable built built' Behavior.racing_blind calls (by
    have plain : walker.Blind := by rintro init ⟨⟩
    simp only [calls, List.forall_mem_cons]
    exact ⟨plain, plain, trivial, trivial, plain, trivial, List.forall_mem_nil _⟩)
  exact ⟨s, t, built, built', none, two, Engine.workers.course_exists s calls,
    (courses .workers Engine.workers_mem_program).1, same, alike⟩

end Sim
end Vivarium
