import Vivarium.Proofs.Behavior.Told
import Vivarium.Proofs.Sim.Admission
import Vivarium.Proofs.Sim.Advance
import Vivarium.Proofs.Sim.Failure
import Vivarium.Proofs.Sim.Movement
import Vivarium.Proofs.Sim.Stores

/-! The journal as a history. What a call writes into the journal is what it did, and read from its
beginning the journal tells who is alive: who was created and has not been removed since. -/
namespace Vivarium

/-! Journals. -/

namespace Notice

/-- The agent whose life begins with a notice. -/
def created? : Notice → Option (Population × AgentId)
  | .created _ id p => some (p, id)
  | _ => none

/-- The agent whose life ends with a notice. -/
def removed? : Notice → Option (Population × AgentId)
  | .removed _ id p => some (p, id)
  | _ => none

variable {α β : Type} {read : Notice → Option β} {f : α → Notice}

/-- Notices of one kind, for a reader who skips them. -/
theorem skipped (xs : List α) (skips : ∀ x, read (f x) = none) :
    (xs.map f).filterMap read = [] := by
  rw [List.filterMap_map, List.filterMap_eq_nil_iff]
  exact fun x _ => skips x

/-- Notices of one kind, for a reader who takes something from each. -/
theorem taken {g : α → β} (xs : List α) (takes : ∀ x, read (f x) = some (g x)) :
    (xs.map f).filterMap read = xs.map g := by
  rw [List.filterMap_map, ← List.filterMap_eq_map]
  exact List.filterMap_congr fun x _ => takes x

end Notice

namespace Journal

/-- Who was created, in this order. -/
def births (log : List Notice) : List (Population × AgentId) := log.filterMap Notice.created?

/-- Who was removed, in this order. -/
def deaths (log : List Notice) : List (Population × AgentId) := log.filterMap Notice.removed?

end Journal

open Journal

variable {log more : List Notice} {living : List (Population × AgentId)} {next : Nat}

theorem births_append (log more : List Notice) : births (log ++ more) = births log ++ births more :=
  List.filterMap_append

theorem deaths_append (log more : List Notice) : deaths (log ++ more) = deaths log ++ deaths more :=
  List.filterMap_append

/-- Every removal was preceded by the creation of the same agent. -/
def Foretold (log : List Notice) : Prop :=
  ∀ before x after m, log = before ++ x :: after → x.removed? = some m → m ∈ births before

theorem Foretold.created (foretold : Foretold log) : ∀ m ∈ deaths log, m ∈ births log := by
  intro m among
  obtain ⟨x, there, gone⟩ := List.mem_filterMap.mp among
  obtain ⟨before, after, rfl⟩ := List.append_of_mem there
  rw [births_append]
  exact List.mem_append_left _ (foretold before x after m rfl gone)

theorem Foretold.append (foretold : Foretold log) (known : ∀ m ∈ deaths more, m ∈ births log) :
    Foretold (log ++ more) := by
  intro before x after m split gone
  rcases List.append_eq_append_iff.mp split with ⟨middle, rfl, rest⟩ | ⟨middle, whole, rest⟩
  · rw [births_append]
    refine List.mem_append_left _ (known m (List.mem_filterMap.mpr ⟨x, ?_, gone⟩))
    rw [rest]
    simp
  · cases middle with
    | nil =>
      rw [List.append_nil] at whole
      subst whole
      refine known m (List.mem_filterMap.mpr ⟨x, ?_, gone⟩)
      rw [← List.nil_append more, ← rest]
      exact .head _
    | cons y middle =>
      obtain ⟨rfl, -⟩ := List.cons.inj rest
      exact foretold before x middle m whole gone

/-- A journal that tells who lives, when no id from `next` on has been handed out. -/
structure Chronicle (log : List Notice) (living : List (Population × AgentId)) (next : Nat) :
    Prop where
  ascending : (births log).Pairwise (·.2.index < ·.2.index)
  below : ∀ m ∈ births log, m.2.index < next
  foretold : Foretold log
  once : ((deaths log).map (·.2)).Nodup
  living : living = (births log).filter (· ∉ deaths log)

namespace Chronicle

theorem blank : Chronicle [] [] 0 where
  ascending := .nil
  below := List.forall_mem_nil _
  foretold before x after m split := by simp at split
  once := List.nodup_nil
  living := rfl

theorem nodup (chronicle : Chronicle log living next) : ((births log).map (·.2)).Nodup := by
  refine List.pairwise_map.mpr (chronicle.ascending.imp ?_)
  intro m m' less same
  rw [same] at less
  exact Nat.lt_irrefl _ less

theorem mem_living (chronicle : Chronicle log living next) {m : Population × AgentId} :
    m ∈ living ↔ m ∈ births log ∧ m ∉ deaths log := by
  rw [chronicle.living, List.mem_filter, decide_eq_true_iff]

/-- Notices that are neither of a creation nor of a removal. -/
theorem aside (chronicle : Chronicle log living next) (unborn : births more = [])
    (undying : deaths more = []) : Chronicle (log ++ more) living next where
  ascending := by
    rw [births_append, unborn, List.append_nil]
    exact chronicle.ascending
  below := by
    rw [births_append, unborn, List.append_nil]
    exact chronicle.below
  foretold := chronicle.foretold.append (by rw [undying]; exact List.forall_mem_nil _)
  once := by
    rw [deaths_append, undying, List.append_nil]
    exact chronicle.once
  living := by
    rw [births_append, unborn, deaths_append, undying, List.append_nil, List.append_nil]
    exact chronicle.living

/-- The removal of some of those who live. -/
theorem remove (chronicle : Chronicle log living next) (gone : AgentId → Bool)
    (unborn : births more = []) (removed : deaths more = living.filter (gone ·.2)) :
    Chronicle (log ++ more) (living.filter (!gone ·.2)) next where
  ascending := by
    rw [births_append, unborn, List.append_nil]
    exact chronicle.ascending
  below := by
    rw [births_append, unborn, List.append_nil]
    exact chronicle.below
  foretold := by
    refine chronicle.foretold.append fun m among => ?_
    rw [removed] at among
    exact (chronicle.mem_living.mp (List.mem_of_mem_filter among)).1
  once := by
    rw [deaths_append, List.map_append, List.nodup_append', removed]
    refine ⟨chronicle.once, ?_, ?_⟩
    · have sublist : (living.filter (gone ·.2)).Sublist (births log) := by
        rw [chronicle.living]
        exact List.filter_sublist.trans List.filter_sublist
      exact chronicle.nodup.sublist (sublist.map _)
    · intro id before after
      obtain ⟨m, dead, rfl⟩ := List.mem_map.mp before
      obtain ⟨m', lives, same⟩ := List.mem_map.mp after
      obtain ⟨born, undead⟩ := chronicle.mem_living.mp (List.mem_of_mem_filter lives)
      have equal : m' = m := List.inj_on_of_nodup_map chronicle.nodup born
        (chronicle.foretold.created m dead) same
      exact undead (equal ▸ dead)
  living := by
    rw [births_append, unborn, List.append_nil, deaths_append, removed]
    nth_rewrite 1 [chronicle.living]
    rw [List.filter_filter]
    refine List.filter_congr fun m born => ?_
    have lives : m ∈ living ↔ m ∉ deaths log := by
      rw [chronicle.mem_living]
      exact and_iff_right born
    rw [Bool.eq_iff_iff]
    simp only [Bool.and_eq_true, Bool.not_eq_true', decide_eq_true_iff, List.mem_append,
      List.mem_filter, lives, not_or, not_and, Bool.not_eq_true]
    exact ⟨fun both => ⟨both.2, fun _ => both.1⟩, fun both => ⟨both.2 both.1, both.1⟩⟩

/-- Births with ids that were not handed out before. -/
theorem create (chronicle : Chronicle log living next) {newborns : List (Population × AgentId)}
    {n : Nat} (born : births more = newborns) (undying : deaths more = [])
    (ids : newborns.map (·.2.index) = List.range' next n) :
    Chronicle (log ++ more) (living ++ newborns) (next + n) := by
  have fresh : ∀ m ∈ newborns, next ≤ m.2.index ∧ m.2.index < next + n := by
    intro m among
    have index : m.2.index ∈ newborns.map (·.2.index) := List.mem_map.mpr ⟨m, among, rfl⟩
    rwa [ids, List.mem_range'_1] at index
  constructor
  case ascending =>
    rw [births_append, born, List.pairwise_append]
    refine ⟨chronicle.ascending, ?_, ?_⟩
    · have rising := List.pairwise_lt_range' (s := next) (n := n)
      rw [← ids, List.pairwise_map] at rising
      exact rising
    · intro m old m' new
      exact (chronicle.below m old).trans_le (fresh m' new).1
  case below =>
    rw [births_append, born, List.forall_mem_append]
    exact ⟨fun m old => (chronicle.below m old).trans_le (Nat.le_add_right _ _),
      fun m new => (fresh m new).2⟩
  case foretold => exact chronicle.foretold.append (by rw [undying]; exact List.forall_mem_nil _)
  case once =>
    rw [deaths_append, undying, List.append_nil]
    exact chronicle.once
  case living =>
    rw [births_append, born, deaths_append, undying, List.append_nil, List.filter_append,
      ← chronicle.living]
    congr 1
    refine (List.filter_eq_self.mpr fun m new => ?_).symm
    rw [decide_eq_true_iff]
    intro dead
    have old := chronicle.below m (chronicle.foretold.created m dead)
    exact absurd (fresh m new).1 (Nat.not_le_of_lt old)

end Chronicle

/-! Simulations. -/

namespace Sim
variable {σ μ η : Type} {s s' : Sim σ μ η} {now : Step} {commands : Commands σ μ η}
  {acted newborns : List (Agent σ μ)} {summary : StepSummary}

theorem births_arrivals (now : Step) (agents : List (Agent σ μ)) :
    births (agents.map (arrival now)) = agents.map Agent.member ∧
      deaths (agents.map (arrival now)) = [] :=
  ⟨Notice.taken agents fun _ => rfl, Notice.skipped agents fun _ => rfl⟩

theorem deaths_partings (now : Step) (agents : List (Agent σ μ)) :
    births (agents.map (parting now)) = [] ∧
      deaths (agents.map (parting now)) = agents.map Agent.member :=
  ⟨Notice.skipped agents fun _ => rfl, Notice.taken agents fun _ => rfl⟩

theorem reports_aside (now : Step) (events : List AgentEvent) :
    births (events.map (.reported now)) = [] ∧ deaths (events.map (.reported now)) = [] :=
  ⟨Notice.skipped events fun _ => rfl, Notice.skipped events fun _ => rfl⟩

def members (s : Sim σ μ η) : List (Population × AgentId) := s.agents.toList.map Agent.member

/-- The journal tells who is active. -/
def Chronicled (s : Sim σ μ η) : Prop := Chronicle s.journal.toList s.members s.nextId.index

theorem Chronicled.spawned (chronicled : s.Chronicled) (sound : s.Sound) {a : Addition σ μ η}
    {id : AgentId} (activated : s.activate a s.step = (.ok id, s')) : s'.Chronicled := by
  obtain ⟨storage, newborn, -, -, own, -, agents, journal⟩ :=
    sound.consistent.activate_housed activated
  obtain ⟨born, undying⟩ := births_arrivals s.step [newborn]
  have next := activate_nextId activated
  obtain ⟨_, _, _, _, _, named, _, -⟩ := activate_eq_ok activated
  have ids : ([newborn].map Agent.member).map (·.2.index) = List.range' s.nextId.index 1 := by
    show [newborn.id.index] = [s.nextId.index]
    rw [own, named]
  have whole := chronicled.create born undying ids
  rw [Chronicled, Sim.members, agents, List.map_append, journal, next]
  exact whole

theorem members_rewritten (rewritten : List.Forall₂ Agent.Rewritten s.agents.toList acted) :
    acted.map Agent.member = s.members := by
  have same := congrArg (List.map fun i => (i.population, i.id)) (Agent.identities_eq rewritten)
  rwa [List.map_map, List.map_map] at same

theorem removed_members (r : Queues σ μ η) (acted : List (Agent σ μ)) :
    (removed r acted).map Agent.member =
      (acted.map Agent.member).filter (r.removals.contains ·.2) := by
  rw [List.filter_map]
  rfl

theorem Completed.members_eq {r : Queues σ μ η}
    (done : Completed r acted newborns summary s s') :
    s'.members = (acted.map Agent.member).filter (!r.removals.contains ·.2) ++
      newborns.map Agent.member := by
  rw [Sim.members, done.agents, List.map_append, List.map_map, List.filter_map]
  rfl

theorem Chronicled.completed (chronicled : s.Chronicled)
    (rewritten : List.Forall₂ Agent.Rewritten s.agents.toList acted)
    (done : Completed (s.requests commands) acted newborns summary s s')
    (recorded : Recorded commands acted newborns summary s s') : s'.Chronicled := by
  obtain ⟨unborn, dead⟩ := deaths_partings s.step (removed (s.requests commands) acted)
  obtain ⟨born, undying⟩ := births_arrivals s.step newborns
  obtain ⟨unborn', undying'⟩ := reports_aside s.step commands.events
  rw [removed_members, members_rewritten rewritten] at dead
  have ids : (newborns.map Agent.member).map (·.2.index) =
      List.range' s.nextId.index (s.requests commands).additions.length := by
    rw [← done.ids, List.map_map]
    rfl
  have opening : births [.started s.step] = [] ∧ deaths [.started s.step] = [] := ⟨rfl, rfl⟩
  have closing : births [.ended summary] = [] ∧ deaths [.ended summary] = [] := ⟨rfl, rfl⟩
  have reported := (chronicled.aside opening.1 opening.2).aside unborn' undying'
  have whole := ((reported.remove (s.requests commands).removals.contains unborn dead).create born
    undying ids).aside closing.1 closing.2
  rw [Chronicled, recorded.journal, done.members_eq, members_rewritten rewritten, done.nextId]
  exact whole

theorem Advances.chronicled (advances : s.Advances s') (sound : s.Sound)
    (chronicled : s.Chronicled) : s'.Chronicled := by
  cases advances with
  | requeued queues => exact chronicled
  | edited edited =>
    have members : s'.members = s.members := edit?_map (fun _ _ => rfl) edited
    obtain ⟨slot, a, -, rfl⟩ := edit?_eq_some edited
    rw [Chronicled, members]
    exact chronicled
  | spawned activated => exact chronicled.spawned sound activated
  | @brokenOff agents index rewritten _ =>
    have members : (s.brokenOff agents index).members = s.members := members_rewritten rewritten
    have journal : (s.brokenOff agents index).journal.toList =
        s.journal.toList ++ [.started s.step] := Array.toList_push
    rw [Chronicled, members, journal]
    exact chronicled.aside rfl rfl
  | completed rewritten done recorded => exact chronicled.completed rewritten done recorded

/-- The completed steps are numbered from zero on. -/
def Numbered (s : Sim σ μ η) : Prop :=
  s.step.val = UInt64.ofNat s.summaries.length ∧
    s.summaries.map (·.step.val) = (List.range s.summaries.length).map UInt64.ofNat

theorem Numbered.same (numbered : s.Numbered) (clock : s'.step = s.step)
    (summaries : s'.summaries = s.summaries) : s'.Numbered := by
  rw [Numbered, clock, summaries]
  exact numbered

/-- A completed step writes one summary. -/
theorem Recorded.summaries_eq (recorded : Recorded commands acted newborns summary s s') :
    s'.summaries = s.summaries ++ [summary] := by
  simp only [summaries, recorded.journal, List.filterMap_append]
  rw [Notice.skipped _ fun _ => rfl, Notice.skipped _ fun _ => rfl, Notice.skipped _ fun _ => rfl]
  simp [Notice.ended?]

theorem Numbered.completed (numbered : s.Numbered)
    (done : Completed (s.requests commands) acted newborns summary s s')
    (recorded : Recorded commands acted newborns summary s s') : s'.Numbered := by
  obtain ⟨clock, steps⟩ := numbered
  obtain ⟨moved, counts⟩ := done.summary
  have now : summary.step = s.step := by rw [counts]
  rw [Numbered, done.step, recorded.summaries_eq, List.length_append, List.length_singleton]
  constructor
  · rw [UInt64.ofNat_add, ← clock, Step.next_val]
    rfl
  · rw [List.range_succ, List.map_append, List.map_append, steps, List.map_singleton, now, clock]
    rfl

theorem Advances.numbered (advances : s.Advances s') (sound : s.Sound) (numbered : s.Numbered) :
    s'.Numbered := by
  cases advances with
  | requeued queues => exact numbered.same rfl rfl
  | edited edited =>
    obtain ⟨slot, a, -, rfl⟩ := edit?_eq_some edited
    exact numbered.same rfl rfl
  | spawned activated =>
    have summaries := (sound.consistent.activate_modified activated).summaries
    obtain ⟨_, _, _, _, _, _, _, rfl⟩ := activate_eq_ok activated
    exact numbered.same rfl summaries
  | brokenOff rewritten _ =>
    refine numbered.same rfl ?_
    simp [summaries, Sim.brokenOff, Notice.ended?]
  | completed _ done recorded => exact numbered.completed done recorded

theorem Engine.Reaches.history {E : Engine σ μ η} (among : E ∈ program) (reached : E.Reaches s) :
    s.Chronicled ∧ s.Numbered := by
  refine reached.along among (P := fun s => s.Chronicled ∧ s.Numbered) ?_ ?_
  · intro setup s built
    obtain ⟨-, -, pool, -, -, -, rfl⟩ := Setup.build_parts built
    exact ⟨.blank, rfl, rfl⟩
  · intro s s' sound advances held
    exact ⟨advances.chronicled sound held.1, advances.numbered sound held.2⟩

/-! Calls. -/

/-- Those whose removal is carried out are those who are not active afterwards. -/
theorem Completed.removed_eq {r : Queues σ μ η}
    (done : Completed r acted newborns summary s s') (consistent : s.Consistent)
    (rewritten : List.Forall₂ Agent.Rewritten s.agents.toList acted) :
    (removed r acted).map Agent.member =
      (s.agents.toList.filter fun a => a.id ∉ s'.ids).map Agent.member := by
  have left : ∀ m ∈ s.members, r.removals.contains m.2 = decide (m.2 ∉ s'.ids) := by
    intro m among
    obtain ⟨a, stored, rfl⟩ := List.mem_map.mp among
    have active : a.id ∈ s.ids := List.mem_map.mpr ⟨a, stored, rfl⟩
    rw [Bool.eq_iff_iff, decide_eq_true_iff]
    have survives := done.survives_iff consistent (Agent.ids_eq rewritten) active
    simp only [Agent.member, survives, Bool.not_eq_false]
  rw [removed_members, members_rewritten rewritten, List.filter_congr left, Sim.members,
    List.filter_map]
  rfl

/-- What a completed step adds to the journal, and the numbers in its summary. -/
theorem Engine.written_of_program {E : Engine σ μ η} (among : E ∈ program) (sound : s.Sound)
    (made : E.Makes s (.ok summary, s')) :
    ∃ commands acted shared, E.Turns s (.ok commands, acted, shared) ∧
      let gone := s.agents.toList.filter fun a => a.id ∉ s'.ids
      let newborns := s'.agents.toList.filter fun a => a.id ∉ s.ids
      s'.journal.toList = s.journal.toList ++ [.started s.step] ++
        commands.events.map (.reported s.step) ++ gone.map (parting s.step) ++
        newborns.map (arrival s.step) ++ [.ended summary] ∧
      newborns.Pairwise (·.id.index < ·.id.index) ∧
      summary.removed = gone.length ∧ summary.born = newborns.length ∧
      summary.active = s'.agents.size := by
  obtain ⟨commands, acted, shared, newborns, turned, rewritten, done, recorded⟩ :=
    recorded_of_program among sound made
  have order : acted.map (·.id) = s.ids := Agent.ids_eq rewritten
  obtain ⟨moved, counts⟩ := done.summary
  have gone := done.removed_eq sound.consistent rewritten
  have born := done.newborns_eq sound.consistent order
  have departed : ∀ agents : List (Agent σ μ), agents.map (parting s.step) =
      (agents.map Agent.member).map fun m => .removed s.step m.2 m.1 := by
    intro agents
    rw [List.map_map]
    rfl
  refine ⟨commands, acted, shared, turned, ?_⟩
  simp only [born]
  refine ⟨?_, ?_, ?_, ?_, ?_⟩
  · rw [recorded.journal, departed, gone, ← departed]
  · have rising := List.pairwise_lt_range' (s := s.nextId.index)
      (n := (s.requests commands).additions.length)
    rwa [← done.ids, List.pairwise_map] at rising
  · have sizes := congrArg List.length gone
    rw [List.length_map, List.length_map] at sizes
    rw [← sizes, counts]
    show s.ids.countP (s.requests commands).removals.contains = _
    rw [removed, ← order, List.countP_map, List.countP_eq_length_filter]
    rfl
  · rw [counts]
    exact done.born.length_eq
  · rw [counts]

/-- Whoever acts when, the reports of a step are those of its agents in their order, as long as acts
leave alone what was reported before. -/
theorem Turned.reports {shared : Commons} (turned : s.Turned (.ok commands, acted, shared))
    (appends : s.behavior.Appends s.context) :
    ∃ reports, List.Forall₂ (s.behavior.Reports s.context) s.agents.toList reports ∧
      commands.events = reports.flatten := by
  have reports := appends.ends s.commons_views turned
  rwa [chunks_flatten] at reports

/-- Calls that neither bring an agent to life nor make a step write nothing. -/
theorem after_journal {c : Call σ μ η} (rests : c.Rests) (unborn : ∀ a, c ≠ .spawn a) :
    (s.after c).journal = s.journal := by
  cases c with
  | spawn a => exact absurd rfl (unborn a)
  | edit id f =>
    simp only [Sim.after]
    cases edited : s.edit? id f with
    | none => rfl
    | some s' =>
      obtain ⟨slot, a, -, rfl⟩ := edit?_eq_some edited
      rfl
  | nextStep => exact rests.elim
  | runSteps n => exact rests.elim
  | run => exact rests.elim
  | _ => rfl

/-- The journal is a faithful history. A completed step writes that it starts, what its agents reported,
who is gone, who was born, both in the order of activation, and a summary that counts them; a broken
step writes that it started, a birth at once that the agent was created, and nothing else writes
anything. What is reported are the reports of the agents in their order, as long as acts leave alone
what was reported before; with one worker each acts on what those before it have left. Over the whole
journal ids are handed out in ascending order, an agent that is removed was created before and is
removed once, those that were created and not removed are the active ones in their order, and the
completed steps are numbered without a gap. -/
theorem Engine.Reaches.journal_faithful {E : Engine σ μ η} (among : E ∈ program)
    (reached : E.Reaches s) :
    (∀ summary s', E.Makes s (.ok summary, s') → ∃ commands acted shared,
      E.Turns s (.ok commands, acted, shared) ∧
      let gone := s.agents.toList.filter fun a => a.id ∉ s'.ids
      let newborns := s'.agents.toList.filter fun a => a.id ∉ s.ids
      s'.journal.toList = s.journal.toList ++ [.started s.step] ++
        commands.events.map (.reported s.step) ++
        gone.map (fun a => .removed s.step a.id a.population) ++
        newborns.map (fun a => .created s.step a.id a.population) ++ [.ended summary] ∧
      newborns.Pairwise (·.id.index < ·.id.index) ∧
      summary.removed = gone.length ∧ summary.born = newborns.length ∧
      summary.active = s'.agents.size) ∧
    (s.behavior.Appends ⟨s.step, s.space, s.config⟩ → ∀ commands acted shared,
      (own.Turns s (.ok commands, acted, shared) →
        ∃ reports, s.behavior.Told ⟨s.step, s.space, s.config⟩ s.agents.toList
            ⟨s.board, s.space.index⟩ reports shared ∧
          commands.events = reports.flatten) ∧
      (E.Turns s (.ok commands, acted, shared) →
        ∃ reports, List.Forall₂ (s.behavior.Reports ⟨s.step, s.space, s.config⟩) s.agents.toList
            reports ∧
          commands.events = reports.flatten)) ∧
    (∀ e s', E.Makes s (.error e, s') → s'.journal = s.journal.push (.started s.step)) ∧
    (∀ a id s', s.spawn a = (.ok id, s') →
      s'.journal = s.journal.push (.created s.step id a.population)) ∧
    (∀ a e s', s.spawn a = (.error e, s') → s'.journal = s.journal) ∧
    (∀ c : Call σ μ η, c.Rests → (∀ a, c ≠ .spawn a) → (s.after c).journal = s.journal) ∧
    let log := s.journal.toList
    (births log).Pairwise (·.2.index < ·.2.index) ∧
      Foretold log ∧ ((deaths log).map (·.2)).Nodup ∧
      s.agents.toList.map (fun a => (a.population, a.id)) =
        (births log).filter (· ∉ deaths log) ∧
      s.summaries.map (·.step.val) = (List.range s.summaries.length).map UInt64.ofNat ∧
      (s.summaries.length ≤ UInt64.size →
        s.summaries.map (·.step.index) = List.range s.summaries.length) := by
  have sound := reached.sound among
  obtain ⟨chronicled, -, numbers⟩ := reached.history among
  refine ⟨fun summary s' made => written_of_program among sound made, ?_, ?_, ?_, ?_,
    fun c => after_journal, chronicled.ascending, chronicled.foretold, chronicled.once,
    chronicled.living, numbers, ?_⟩
  · intro appends commands acted shared
    refine ⟨fun turned => ?_, fun turned => (turned_of_program among turned).reports appends⟩
    have told := appends.performChunks s.commons_views turned.symm
    rwa [chunks_flatten] at told
  · intro e s' made
    obtain ⟨agents, index, -, -, rfl⟩ := failed_of_program among sound made
    rfl
  · intro a id s' spawned
    rcases sound.spawn_cases a with ⟨-, ends⟩ | ⟨-, -, ends⟩ | ⟨s'', activated, ends⟩
    · cases ends.symm.trans spawned
    · cases ends.symm.trans spawned
    · cases ends.symm.trans spawned
      obtain ⟨_, _, _, _, _, _, _, rfl⟩ := activate_eq_ok activated
      rfl
  · intro a e s' failed
    rw [sound.spawn_eq_error failed]
  · intro few
    have indices := congrArg (List.map UInt64.toNat) numbers
    rw [List.map_map, List.map_map] at indices
    refine indices.trans ((List.map_congr_left fun k among => ?_).trans (List.map_id _))
    exact UInt64.toNat_ofNat_of_lt' ((List.mem_range.mp among).trans_le few)

/-- A step that removes the only agent while another one is born. -/
theorem journal_faithful_walkers :
    ∃ (s s' : Sim Unit Unit Unit) (summary : StepSummary) (p q : Population), s.Reachable ∧
      s.nextStep = (.ok summary, s') ∧ s'.ids = [⟨1⟩] ∧
      s'.journal.toList = s.journal.toList ++
        [.started s.step, .removed s.step ⟨0⟩ p, .created s.step ⟨1⟩ q, .ended summary] := by
  obtain ⟨s, s', walker, a, summary, reached, agents, first, next, -, -, queues, acts, passive,
    completed⟩ := walkers_replaced
  have made := Engine.own_makes.mpr completed.symm
  obtain ⟨commands, acted, shared, newborns, turned, -, done⟩ :=
    Engine.completed_of_program Engine.own_mem_program reached.sound made
  cases turned.trans acts
  have ids : s.ids = [⟨0⟩] := by rw [Sim.ids, agents, List.map_singleton, first]
  have requests : s.requests .empty = ⟨[a], [⟨0⟩], []⟩ := by rw [Sim.requests, queues]; rfl
  have order := done.ids
  rw [requests, next] at order
  obtain ⟨newborn, rfl⟩ : ∃ newborn, newborns = [newborn] := by
    rw [← List.length_eq_one_iff, ← done.born.length_eq, requests]
    rfl
  have second : newborn.id = ⟨1⟩ := AgentId.ext_index (List.cons.inj order).1
  have ids' : s'.ids = [⟨1⟩] := by
    rw [done.ids_eq rfl, requests, ids, List.map_singleton, second]
    rfl
  obtain ⟨commands, acted, shared, turned, journal, -⟩ :=
    (reached.own.journal_faithful Engine.own_mem_program).1 summary s' made
  cases turned.trans acts
  have born := done.newborns_eq reached.sound.consistent rfl
  refine ⟨s, s', summary, walker.population, newborn.population, reached, completed, ids', ?_⟩
  rw [journal, born, agents, ids']
  simp [first, second, Commands.empty]

end Sim
end Vivarium
