import Vivarium.Proofs.Sim.Admission
import Vivarium.Proofs.Sim.Advance
import Vivarium.Proofs.Sim.Movement

/-! The stock of storage. The pool of a simulation is reached by calls to a pool, and every agent
that was handed out and has not come back is active. In a step the storage of those who go is taken
back before the newborns are housed, so it is the first to be handed out again. -/
namespace Vivarium

/-! A new simulation. -/

namespace Setup
variable {σ μ η : Type} {setup : Setup σ μ η} {pool pool' : Pool σ μ}

theorem reserveAll_prepares {bytes : Nat} {capacities : List (Population × Nat)}
    (reserved : reserveAll bytes pool capacities = .ok pool') :
    ∃ calls, (∀ c ∈ calls, c.Prepares) ∧ pool' = pool.afterAll calls := by
  induction capacities generalizing pool with
  | nil =>
    cases reserved
    exact ⟨[], List.forall_mem_nil _, rfl⟩
  | cons c rest ih =>
    obtain ⟨p, n⟩ := c
    simp only [reserveAll] at reserved
    split at reserved
    · cases reserved
    · rename_i more first
      obtain ⟨calls, prepare, rfl⟩ := ih reserved
      have next : pool.after (.reserve p n bytes) = more := by
        simp only [Pool.after, Pool.attempt, first]
      refine ⟨.reserve p n bytes :: calls, List.forall_mem_cons.mpr ⟨trivial, prepare⟩, ?_⟩
      rw [← next]
      rfl

/-- The pool of a setup is filled by registrations and then reservations. -/
theorem stockedPool_prepares (stocked : setup.stockedPool = .ok pool) :
    ∃ calls, (∀ c ∈ calls, c.Prepares) ∧ pool = Pool.empty.afterAll calls := by
  obtain ⟨asked, -, reserved⟩ := stockedPool_eq_ok stocked
  obtain ⟨calls, prepare, rfl⟩ := reserveAll_prepares reserved
  refine ⟨setup.prototypes.map (fun p => .register p.1 p.2) ++ calls, ?_, ?_⟩
  · rw [List.forall_mem_append]
    refine ⟨fun c among => ?_, prepare⟩
    obtain ⟨p, -, rfl⟩ := List.mem_map.mp among
    trivial
  · rw [Pool.afterAll, Pool.afterAll, List.foldl_append, List.foldl_map]
    rfl

end Setup

namespace Sim
variable {σ μ η : Type} {s s' : Sim σ μ η} {commands : Commands σ μ η}
  {acted newborns : List (Agent σ μ)} {summary : StepSummary} {q : Population} {b : Bucket σ μ}

/-- How many agents are of a population. -/
def headcount (q : Population) (agents : List (Agent σ μ)) : Nat :=
  agents.countP fun a => a.population = q

theorem headcount_map (q : Population) (agents : List (Agent σ μ)) :
    headcount q agents = (agents.map (·.population)).count q := by
  rw [headcount, List.count, List.countP_map]
  exact List.countP_congr fun a _ => by simp

theorem headcount_rewritten {agents others : List (Agent σ μ)}
    (rewritten : List.Forall₂ Agent.Rewritten agents others) :
    headcount q others = headcount q agents := by
  have populations := congrArg (List.map Agent.Identity.population)
    (Agent.identities_eq rewritten)
  rw [List.map_map, List.map_map] at populations
  rw [headcount_map, headcount_map]
  exact congrArg (List.count q) populations

/-! One step. -/

/-- Of one population, those that a step removes, as the pool gets them back. -/
def returned (r : Queues σ μ η) (acted : List (Agent σ μ)) (q : Population) : List (Agent σ μ) :=
  ((removed r acted).filter (·.population = q)).map (·.deactivate)

/-- How many agents of a population are requested. -/
def requested (additions : List (Addition σ μ η)) (q : Population) : Nat :=
  additions.countP fun a => a.population = q

theorem handBack_map (gone : List (Agent σ μ)) :
    gone.map handBack = (gone.map (·.deactivate)).map .release := by
  rw [List.map_map]
  rfl

theorem deactivated (gone : List (Agent σ μ)) :
    ∀ a ∈ gone.map (·.deactivate), a.active = false := by
  intro a among
  obtain ⟨x, -, rfl⟩ := List.mem_map.mp among
  rfl

theorem bucket?_restocked (known : s.pool.bucket? q = some b) (r : Queues σ μ η)
    (acted : List (Agent σ μ)) :
    (s.restocked r acted).bucket? q = some (b.takeAll (returned r acted q)) := by
  rw [restocked, handBack_map, Pool.bucket?_afterAll known, b.after_releases (deactivated _),
    List.filter_map]
  rfl

theorem count_requested (additions : List (Addition σ μ η)) (q : Population) :
    (additions.map (·.population)).count q = requested additions q := by
  rw [List.count, List.countP_map]
  exact List.countP_congr fun a _ => by simp

/-- What a step does to the bucket of one population. -/
theorem Recorded.bucket? (recorded : Recorded commands acted newborns summary s s')
    (known : s.pool.bucket? q = some b) :
    s'.pool.bucket? q = some ((b.takeAll (returned (s.requests commands) acted q)).lendAll
      (requested (s.requests commands).additions q)) := by
  have borrows := Pool.bucket?_afterAll (bucket?_restocked known (s.requests commands) acted)
    (((s.requests commands).additions.map (·.population)).map .borrow)
  rw [Bucket.after_borrows, count_requested, List.map_map] at borrows
  rw [recorded.pool]
  exact borrows

/-- The storage that a step lends to the newborns of one population. -/
theorem Sound.loans_filter (sound : s.Sound) (known : s.pool.bucket? q = some b)
    (r : Queues σ μ η) (acted : List (Agent σ μ)) :
    ((s.restocked r acted).loans (r.additions.map (·.population))).filter (·.population = q) =
      (b.takeAll (returned r acted q)).loans (requested r.additions q) := by
  rw [← count_requested]
  exact (sound.consistent.pool.afterAll _).loans_filter (bucket?_restocked known r acted) _

/-- The pool takes back the storage of every agent that is removed. -/
theorem Sound.removed_released (sound : s.Sound)
    (rewritten : List.Forall₂ Agent.Rewritten s.agents.toList acted) (r : Queues σ μ η) :
    (removed r acted).foldlM (fun p a => p.release a.deactivate) s.pool =
      .ok (s.restocked r acted) := by
  have registered : ∀ a ∈ acted, s.pool.contains a.population = true := by
    have before := (forall_agents (s.pool.contains ·.population = true)).mp
      sound.consistent.registered
    rw [identities, ← Agent.identities_eq rewritten] at before
    exact fun a among => before a.identity (List.mem_map.mpr ⟨a, among, rfl⟩)
  have known : ∀ a ∈ (removed r acted).map (·.deactivate),
      s.pool.contains a.population = true := by
    intro a among
    obtain ⟨x, gone, rfl⟩ := List.mem_map.mp among
    exact registered x (List.mem_filter.mp gone).1
  have succeeds := Pool.releases_succeed (deactivated (removed r acted)) known
  rwa [List.foldlM_map, ← handBack_map] at succeeds

/-! The balance. -/

/-- No population becomes known. -/
theorem Keeps.bucket? (keeps : s.Keeps s') (known : s'.pool.bucket? q = some b) :
    ∃ b', s.pool.bucket? q = some b' := by
  have there : s'.pool.contains q = true := Pool.contains_iff.mpr ⟨b, known⟩
  rw [Pool.contains_congr (keeps.patterns q)] at there
  exact Pool.contains_iff.mp there

/-- Who was handed out and has not come back is active. -/
def Balanced (s : Sim σ μ η) : Prop :=
  ∀ q b, s.pool.bucket? q = some b →
    headcount q s.agents.toList + b.stats.released = b.stats.created + b.stats.recycled

theorem Balanced.redrawn (balanced : s.Balanced) (pool : s'.pool = s.pool)
    (same : ∀ q, headcount q s'.agents.toList = headcount q s.agents.toList) : s'.Balanced := by
  intro q b known
  rw [same]
  exact balanced q b (pool ▸ known)

theorem Balanced.spawned (balanced : s.Balanced) (sound : s.Sound) {a : Addition σ μ η}
    {id : AgentId} (activated : s.activate a s.step = (.ok id, s')) : s'.Balanced := by
  obtain ⟨storage, newborn, borrowed, -, -, population, agents, -⟩ :=
    sound.consistent.activate_housed activated
  intro q b known
  obtain ⟨b', before⟩ := (activate_keeps activated).bucket? known
  have after := Pool.bucket?_after before (.borrow a.population)
  rw [Pool.after_borrow borrowed, known, Option.some.injEq] at after
  have balance := balanced q b' before
  rw [headcount, agents, List.countP_append, after, ← headcount]
  by_cases own : a.population = q
  · have lent := b'.lendAll_counts 1
    have one : [newborn].countP (fun a => a.population = q) = 1 := by simp [population, own]
    have released : (b'.lendAll 1).stats.released = b'.stats.released := rfl
    rw [Bucket.after, if_pos own, Bucket.lendAll_one]
    omega
  · have none : [newborn].countP (fun a => a.population = q) = 0 := by simp [population, own]
    rw [Bucket.after, if_neg own]
    omega

theorem newborns_populations {now : Step} {additions : List (Addition σ μ η)}
    {P : Addition σ μ η → Agent σ μ → Prop}
    (born : List.Forall₂ (fun a newborn => s.Born now a newborn ∧ P a newborn) additions newborns) :
    newborns.map (·.population) = additions.map (·.population) := by
  induction born with
  | nil => rfl
  | cons head _ ih => rw [List.map_cons, List.map_cons, head.1.population, ih]

/-- Who is left, and who was born. -/
theorem Completed.headcount_eq {r : Queues σ μ η}
    (done : Completed r acted newborns summary s s') (q : Population) :
    headcount q s'.agents.toList + (returned r acted q).length =
      headcount q acted + requested r.additions q := by
  have parts : headcount q acted = headcount q (removed r acted) +
      headcount q (acted.filter fun a => !r.removals.contains a.id) := by
    rw [headcount, acted.countP_eq_countP_filter_add _ fun a => r.removals.contains a.id]
    simp only [headcount, removed]
  have gone : (returned r acted q).length = headcount q (removed r acted) := by
    rw [returned, List.length_map, headcount, List.countP_eq_length_filter]
  have left : ∀ agents : List (Agent σ μ), headcount q (agents.map fun a =>
      { a with inbox := Message.copiesFor a.id r.deliveries }) = headcount q agents := by
    intro agents
    rw [headcount, List.countP_map]
    rfl
  have born : headcount q newborns = requested r.additions q := by
    rw [headcount_map, newborns_populations done.born, count_requested]
  have split : headcount q s'.agents.toList =
      headcount q (acted.filter fun a => !r.removals.contains a.id) + headcount q newborns := by
    rw [done.agents, headcount, List.countP_append, ← headcount, ← headcount, left]
  omega

theorem Balanced.completed (balanced : s.Balanced)
    (rewritten : List.Forall₂ Agent.Rewritten s.agents.toList acted)
    (done : Completed (s.requests commands) acted newborns summary s s')
    (recorded : Recorded commands acted newborns summary s s') : s'.Balanced := by
  intro q b known
  obtain ⟨b', before⟩ := done.proceeds.keeps.bucket? known
  have after := recorded.bucket? before
  rw [known, Option.some.injEq] at after
  have balance := balanced q b' before
  have heads := done.headcount_eq q
  rw [headcount_rewritten rewritten] at heads
  have lent := (b'.takeAll (returned (s.requests commands) acted q)).lendAll_counts
    (requested (s.requests commands).additions q)
  have released : ((b'.takeAll (returned (s.requests commands) acted q)).lendAll
      (requested (s.requests commands).additions q)).stats.released =
        b'.stats.released + (returned (s.requests commands) acted q).length := rfl
  have counted : (b'.takeAll (returned (s.requests commands) acted q)).stats.created +
      (b'.takeAll (returned (s.requests commands) acted q)).stats.recycled =
        b'.stats.created + b'.stats.recycled := rfl
  rw [after]
  omega

theorem Advances.balanced (advances : s.Advances s') (sound : s.Sound) (balanced : s.Balanced) :
    s'.Balanced := by
  cases advances with
  | requeued queues => exact balanced.redrawn rfl fun _ => rfl
  | edited edited =>
    have populations : s'.agents.toList.map (·.population) = s.agents.toList.map (·.population) :=
      edit?_map (fun _ _ => rfl) edited
    obtain ⟨slot, a, -, rfl⟩ := edit?_eq_some edited
    refine balanced.redrawn rfl fun q => ?_
    rw [headcount_map, headcount_map, populations]
  | spawned activated => exact balanced.spawned sound activated
  | brokenOff rewritten _ => exact balanced.redrawn rfl fun q => headcount_rewritten rewritten
  | completed rewritten done recorded => exact balanced.completed rewritten done recorded

theorem Advances.made (advances : s.Advances s') (sound : s.Sound) (made : s.pool.Made) :
    s'.pool.Made := by
  cases advances with
  | requeued queues => exact made
  | edited edited =>
    obtain ⟨slot, a, -, rfl⟩ := edit?_eq_some edited
    exact made
  | @spawned _ a _ activated =>
    obtain ⟨storage, newborn, borrowed, -⟩ := sound.consistent.activate_housed activated
    rw [← Pool.after_borrow borrowed]
    exact made.afterAll [.borrow a.population]
  | brokenOff _ _ => exact made
  | completed _ _ recorded =>
    rw [recorded.pool]
    exact (made.afterAll _).afterAll _

theorem Engine.Reaches.stock {E : Engine σ μ η} (among : E ∈ program) (reached : E.Reaches s) :
    s.pool.Made ∧ s.Balanced := by
  refine reached.along among (P := fun s => s.pool.Made ∧ s.Balanced) ?_ ?_
  · intro setup s built
    obtain ⟨-, -, pool, -, -, stocked, rfl⟩ := Setup.build_parts built
    obtain ⟨calls, prepare, rfl⟩ := Setup.stockedPool_prepares stocked
    refine ⟨⟨calls, rfl⟩, fun q b known => ?_⟩
    have unused : (Pool.empty.afterAll calls : Pool _ _).Unused :=
      List.foldlRecOn _ _ Pool.empty_unused fun p unused c among => unused.after (prepare c among)
    rw [unused q b known]
    rfl
  · intro s s' sound advances held
    exact ⟨advances.made sound held.1, advances.balanced sound held.2⟩

/-- The books of a pool, and of the pool of a simulation. Whatever is called, what waits for a
population are inactive agents of it, as many as were added ahead of time and came back, less those
handed out again; and a call that fails changes nothing. In a simulation the agents of a population
are those that were handed out and have not come back; a step gets the storage of all that go, and
its newborns take that first, from the last to the first, before what waited longer and before
copies of the prototype. -/
theorem storage_accounted :
    (∀ (calls : List (Pool.Call σ μ)) (q : Population) (b : Bucket σ μ),
      let p := Pool.empty.afterAll calls
      p.bucket? q = some b →
        p.available q + b.stats.recycled = Pool.topUps q .empty calls + b.stats.released ∧
        ∀ a ∈ b.free, a.active = false ∧ a.population = q) ∧
    (∀ (p : Pool σ μ) (c : Pool.Call σ μ), ((∃ e, p.attempt c = .error e) ↔ p.Refuses c) ∧
      (p.Refuses c → ∀ q, (p.after c).bucket? q = p.bucket? q)) ∧
    ∀ E ∈ (Engine.program : List (Engine σ μ η)), ∀ s, E.Reaches s →
      s.pool.Made ∧
      (∀ q b, s.pool.bucket? q = some b →
        s.countOf q + b.stats.released = b.stats.created + b.stats.recycled) ∧
      ∀ summary s', E.Makes s (.ok summary, s') →
        ∃ commands acted shared newborns storage, E.Turns s (.ok commands, acted, shared) ∧
          let births := s.queues.additions ++ commands.additions
          let gone := acted.filter fun a => (s.queues.removals ++ commands.removals).contains a.id
          (∃ between, gone.foldlM (fun p a => p.release a.deactivate) s.pool = .ok between) ∧
          s'.agents.toList.filter (fun a => a.id ∉ s.ids) = newborns ∧
          storage.length = births.length ∧
          List.Forall₂ (fun x newborn => x.2.population = x.1.population ∧
            newborn = raise s.behavior x.1 (x.2.activate newborn.id s.step s.config.seed))
            (births.zip storage) newborns ∧
          ∀ q b, s.pool.bucket? q = some b →
            let back := (gone.filter (·.population = q)).map (·.deactivate)
            let waiting := back.reverse ++ b.free
            let born := births.countP (·.population = q)
            storage.filter (·.population = q) =
              (waiting.take born).map (·.resetFrom b.prototype) ++
                List.replicate (born - waiting.length) b.prototype ∧
            s'.pool.bucket? q = some ⟨b.prototype, waiting.drop born,
              ⟨b.stats.created + (born - waiting.length),
                b.stats.recycled + min born waiting.length, b.stats.released + back.length⟩⟩ := by
  refine ⟨?_, ?_, ?_⟩
  · intro calls q b p known
    exact ⟨Pool.available_balance known, ((Pool.empty_stocked.afterAll calls) q b known).free⟩
  · intro p c
    refine ⟨p.attempt_fails_iff c, fun refuses q => ?_⟩
    obtain ⟨e, failed⟩ := (p.attempt_fails_iff c).mpr refuses
    simp only [Pool.after, failed]
  · intro E among s reached
    have sound := reached.sound among
    obtain ⟨kept, balanced⟩ := reached.stock among
    refine ⟨kept, fun q b known => ?_, fun summary s' made => ?_⟩
    · rw [sound.consistent.countOf_eq]
      exact balanced q b known
    · obtain ⟨commands, acted, shared, newborns, turned, rewritten, done, recorded⟩ :=
        Engine.recorded_of_program among sound made
      refine ⟨commands, acted, shared, newborns, _, turned,
        ⟨_, sound.removed_released rewritten (s.requests commands)⟩,
        done.newborns_eq sound.consistent (Agent.ids_eq rewritten), recorded.storage,
        recorded.raised, fun q b known => ⟨?_, recorded.bucket? known⟩⟩
      exact sound.loans_filter known (s.requests commands) acted

/-- The only agent is removed while another one is born, which lives in its storage. -/
theorem storage_accounted_walker :
    ∃ (s s' : Sim Unit Unit Unit) (summary : StepSummary) (walker newborn : Agent Unit Unit),
      s.Reachable ∧ s.agents.toList = [walker] ∧ s.nextStep = (.ok summary, s') ∧
      s'.agents.toList.filter (fun a => a.id ∉ s.ids) = [newborn] ∧
      newborn.incarnation = walker.incarnation + 1 := by
  obtain ⟨s, s', walker, a, summary, reached, agents, first, -, same, admits, queues, acts,
    -, completed⟩ := walkers_replaced
  obtain ⟨-, -, stepped⟩ := storage_accounted.2.2 _ Engine.own_mem_program s reached.own
  obtain ⟨commands, acted, shared, newborns, storage, turned, released, newborn, lengths, raised,
    served⟩ := stepped summary s' (Engine.own_makes.mpr completed.symm)
  cases turned.trans acts
  obtain ⟨b, known⟩ : ∃ b, s.pool.bucket? walker.population = some b :=
    Pool.contains_iff.mp (same ▸ admits.1)
  obtain ⟨lent, -⟩ := served walker.population b known
  rw [queues, agents] at lent
  rw [queues] at lengths raised
  obtain ⟨x, rfl⟩ := List.length_eq_one_iff.mp lengths
  obtain ⟨n, others, ⟨population, raise_eq⟩, rest, rfl⟩ := List.forall₂_cons_left_iff.mp raised
  obtain rfl := List.forall₂_nil_left_iff.mp rest
  -- the storage lent to the one newborn is what the one removed agent left behind
  have own : x.population = walker.population := population.trans same
  have left : [x] = [walker.deactivate.resetFrom b.prototype] := by
    simpa [own, first, same, Commands.empty] using lent
  obtain rfl := List.singleton_inj.mp left
  obtain ⟨body, rewritten⟩ := raise_rewritten s.behavior a
    ((walker.deactivate.resetFrom b.prototype).activate n.id s.step s.config.seed)
  refine ⟨s, s', summary, walker, n, reached, agents, completed, newborn, ?_⟩
  rw [raise_eq]
  exact congrArg Agent.incarnation rewritten

end Sim
end Vivarium
