import Vivarium.Proofs.Sim.Admission

/-! Mail. Between two completed steps every inbox holds what the first of them drained for its owner, no
matter what is called in between; the next completed step replaces it. -/
namespace Vivarium

namespace Agent
variable {σ μ : Type} {a a' : Agent σ μ} {agents agents' : List (Agent σ μ)}

/-- Whose inbox it is, and what is in it. -/
def mailbox (a : Agent σ μ) : AgentId × List (Message μ) := (a.id, a.inbox)

theorem mailboxes_eq (rewritten : List.Forall₂ Rewritten agents agents') :
    agents'.map mailbox = agents.map mailbox := by
  induction rewritten with
  | nil => rfl
  | cons head tail ih =>
    obtain ⟨body, rfl⟩ := head
    rw [List.map_cons, List.map_cons, ih]
    rfl

end Agent

namespace Sim
variable {σ μ η : Type} {s s' : Sim σ μ η} {summary : StepSummary} {e : SimError}
  {commands : Commands σ μ η} {acted : List (Agent σ μ)} {shared : Commons} {E : Engine σ μ η}
  {messages : List (Message μ)} {readers : List AgentId}

def mailboxes (s : Sim σ μ η) : List (AgentId × List (Message μ)) :=
  s.agents.toList.map Agent.mailbox

/-- A run so far. The last step that it completed drained `messages`, what waited before the step and
then what its agents sent, and `readers` were active in that step. -/
inductive Engine.Drained (E : Engine σ μ η) :
    Sim σ μ η → List (Message μ) → List AgentId → Prop where
  | built {setup : Setup σ μ η} {s : Sim σ μ η} : setup.build = .ok s → Drained E s [] []
  | rests {s : Sim σ μ η} {messages readers} (c : Call σ μ η) : c.Rests →
      Drained E s messages readers → Drained E (s.after c) messages readers
  | failed {s s' : Sim σ μ η} {messages readers e} : E.Makes s (.error e, s') →
      Drained E s messages readers → Drained E s' messages readers
  | completed {s s' : Sim σ μ η} {messages readers summary commands acted shared} :
      E.Turns s (.ok commands, acted, shared) →
      s.finish E.modify (.ok commands, acted, shared) = (.ok summary, s') →
      Drained E s messages readers → Drained E s' (s.queues.deliveries ++ commands.deliveries) s.ids

/-- Every inbox holds what was drained for its owner, and who was not yet active then has nothing. -/
structure Posts (s : Sim σ μ η) (messages : List (Message μ)) (readers : List AgentId) : Prop where
  inbox : ∀ m ∈ s.mailboxes, m.2 = if m.1 ∈ readers then Message.copiesFor m.1 messages else []
  earlier : ∀ id ∈ readers, id.index < s.nextId.index

/-- An agent that was born after the messages were drained has no part in them. -/
theorem unread {n : Nat} {newborn : Agent σ μ} (earlier : ∀ id ∈ readers, id.index < n)
    (fresh : newborn.inbox = [] ∧ n ≤ newborn.id.index) :
    newborn.inbox =
      if newborn.id ∈ readers then Message.copiesFor newborn.id messages else [] := by
  have absent : newborn.id ∉ readers := by
    intro reads
    exact Nat.not_lt_of_le fresh.2 (earlier _ reads)
  rw [if_neg absent]
  exact fresh.1

namespace Posts

theorem agent (posts : s.Posts messages readers) {a : Agent σ μ} (stored : a ∈ s.agents) :
    a.inbox = if a.id ∈ readers then Message.copiesFor a.id messages else [] :=
  posts.inbox a.mailbox (List.mem_map.mpr ⟨a, Array.mem_toList_iff.mpr stored, rfl⟩)

theorem of_same (posts : s.Posts messages readers) (same : s'.mailboxes = s.mailboxes)
    (next : s'.nextId = s.nextId) : s'.Posts messages readers where
  inbox := by
    rw [same]
    exact posts.inbox
  earlier := by
    rw [next]
    exact posts.earlier

/-- Newborns have no mail, and their ids are new. -/
theorem peopled (posts : s.Posts messages readers) {now : Step}
    {additions : List (Addition σ μ η)} {newborns : List (Agent σ μ)}
    (peopled : Peopled now additions newborns s s') : s'.Posts messages readers := by
  have fresh := newborns_fresh peopled.born peopled.ids
  constructor
  case inbox =>
    rw [mailboxes, peopled.agents, List.map_append, List.forall_mem_append]
    refine ⟨posts.inbox, ?_⟩
    intro m among
    obtain ⟨newborn, new, rfl⟩ := List.mem_map.mp among
    exact unread posts.earlier (fresh newborn new)
  case earlier =>
    intro id among
    have below := posts.earlier id among
    rw [peopled.nextId]
    omega

theorem spawn (posts : s.Posts messages readers) (sound : s.Sound) (a : Addition σ μ η) :
    (s.spawn a).2.Posts messages readers := by
  rcases sound.spawn_cases a with ⟨-, ends⟩ | ⟨-, -, ends⟩ | ⟨s', activated, ends⟩
  · rw [ends]
    exact posts
  · rw [ends]
    exact posts
  · rw [ends]
    obtain ⟨newborn, new⟩ := sound.consistent.activate_peopled activated
    exact posts.peopled new

theorem rests (posts : s.Posts messages readers) (sound : s.Sound) {c : Call σ μ η}
    (rests : c.Rests) : (s.after c).Posts messages readers := by
  cases c with
  | spawn a => exact posts.spawn sound a
  | enqueueAddition a => exact posts.of_same rfl rfl
  | enqueueRemoval id => exact posts.of_same rfl rfl
  | enqueueDelivery m => exact posts.of_same rfl rfl
  | discardQueued => exact posts.of_same rfl rfl
  | edit id f =>
    simp only [Sim.after]
    rcases edited : s.edit? id f with - | s'
    · exact posts
    · have same : s'.mailboxes = s.mailboxes := edit?_map (fun _ _ => rfl) edited
      obtain ⟨slot, a, -, rfl⟩ := edit?_eq_some edited
      exact posts.of_same same rfl
  | nextStep => exact rests.elim
  | runSteps n => exact rests.elim
  | run => exact rests.elim

theorem failed (posts : s.Posts messages readers) (sound : s.Sound) (among : E ∈ Engine.program)
    (made : E.Makes s (.error e, s')) : s'.Posts messages readers := by
  obtain ⟨agents, index, rewritten, -, rfl⟩ := Engine.failed_of_program among sound made
  exact posts.of_same (Agent.mailboxes_eq rewritten) rfl

end Posts

/-- A completed step hands out all messages, and only those that were active before it are readers. -/
theorem Completed.posts {newborns : List (Agent σ μ)}
    (done : Completed (s.requests commands) acted newborns summary s s') (consistent : s.Consistent)
    (rewritten : List.Forall₂ Agent.Rewritten s.agents.toList acted) :
    s'.Posts (s.queues.deliveries ++ commands.deliveries) s.ids := by
  have order : acted.map (·.id) = s.ids := Agent.ids_eq rewritten
  have fresh := newborns_fresh done.born done.ids
  constructor
  case inbox =>
    rw [mailboxes, done.agents, List.map_append, List.forall_mem_append]
    constructor
    · intro m among
      rw [List.map_map] at among
      obtain ⟨a, stays, rfl⟩ := List.mem_map.mp among
      have reads : a.id ∈ s.ids := by
        rw [← order]
        exact List.mem_map.mpr ⟨a, List.mem_of_mem_filter stays, rfl⟩
      exact (if_pos reads).symm
    · intro m among
      obtain ⟨newborn, new, rfl⟩ := List.mem_map.mp among
      exact unread consistent.below (fresh newborn new)
  case earlier =>
    intro id among
    have below := consistent.below id among
    have next : s'.nextId.index =
        s.nextId.index + (s.requests commands).additions.length := done.nextId
    omega

theorem Sound.posts (sound : s.Sound) (among : E ∈ Engine.program)
    (turned : E.Turns s (.ok commands, acted, shared))
    (completed : s.finish E.modify (.ok commands, acted, shared) = (.ok summary, s')) :
    s'.Posts (s.queues.deliveries ++ commands.deliveries) s.ids := by
  have allows := (Engine.turned_of_program among turned).allows
  rw [Engine.modify_of_program among] at completed
  obtain ⟨_, newborns, ⟨⟩, -, done⟩ := sound.finish_completed allows completed
  exact done.posts sound.consistent allows.rewritten

namespace Engine

theorem Drained.posts (among : E ∈ program) (drained : E.Drained s messages readers) :
    s.Sound ∧ s.Posts messages readers := by
  induction drained with
  | built built =>
    refine ⟨build_sound built, ?_, ?_⟩
    · obtain ⟨grid, pool, -, rfl⟩ := Setup.build_eq_ok built
      exact List.forall_mem_nil _
    · exact List.forall_mem_nil _
  | rests c quiet drained ih =>
    have sound := (ih.1.after (P := fun _ => True) (fun _ _ _ => trivial) trivial c).1
    exact ⟨sound, ih.2.rests ih.1 quiet⟩
  | failed made drained ih =>
    exact ⟨(proceeds_of_program among ih.1 made).2, ih.2.failed ih.1 among made⟩
  | completed turned completed drained ih =>
    have made : E.Makes _ _ := ⟨_, turned, completed.symm⟩
    exact ⟨(proceeds_of_program among ih.1 made).2, ih.1.posts among turned completed⟩

/-- Every step carries a run on. -/
theorem Drained.makes (drained : E.Drained s messages readers)
    {result : Except SimError StepSummary} (made : E.Makes s (result, s')) :
    ∃ messages readers, E.Drained s' messages readers := by
  cases result with
  | error e => exact ⟨messages, readers, drained.failed made⟩
  | ok summary =>
    obtain ⟨⟨cause | commands, acted, shared⟩, turned, ends⟩ := made
    · cases ends
    · exact ⟨_, _, drained.completed turned ends.symm⟩

theorem Reaches.drained (reached : E.Reaches s) :
    ∃ messages readers, E.Drained s messages readers := by
  refine reached.invariant (P := fun s => ∃ messages readers, E.Drained s messages readers) ?_ ?_ ?_
  · exact fun built => ⟨[], [], .built built⟩
  · rintro s c - quiet ⟨messages, readers, drained⟩
    exact ⟨messages, readers, drained.rests c quiet⟩
  · rintro s result s' - made ⟨messages, readers, drained⟩
    exact drained.makes made

/-- What an agent finds in its inbox when it acts is what the last completed step drained for it, and
nothing if it was born in that step or later. A failed step leaves queues and inboxes alone; a completed
one replaces every inbox and counts the copies for all agents that were active before it. -/
theorem Reaches.mail_exact (among : E ∈ program) (reached : E.Reaches s) :
    (∃ messages readers, E.Drained s messages readers) ∧
    (∀ messages readers, E.Drained s messages readers → ∀ a ∈ s.agents,
      a.inbox = if a.id ∈ readers then
        messages.flatMap fun m => List.replicate (m.recipients.count a.id) m else []) ∧
    (∀ e s', E.Makes s (.error e, s') → s'.queues = s.queues ∧
      s'.agents.toList.map (fun a => (a.id, a.inbox)) =
        s.agents.toList.map (fun a => (a.id, a.inbox))) ∧
    ∀ summary s', E.Makes s (.ok summary, s') →
      ∃ commands acted shared, E.Turns s (.ok commands, acted, shared) ∧
        (let messages := s.queues.deliveries ++ commands.deliveries
         E.Drained s' messages s.ids ∧
          (∀ a ∈ s'.agents, a.inbox = if a.id ∈ s.ids then
            messages.flatMap fun m => List.replicate (m.recipients.count a.id) m else []) ∧
          s'.queues.deliveries = [] ∧
          summary.delivered = (messages.flatMap (·.recipients)).countP (· ∈ s.ids)) := by
  obtain ⟨messages, readers, drained⟩ := reached.drained
  have sound := reached.sound among
  refine ⟨⟨messages, readers, drained⟩, ?_, ?_, ?_⟩
  · intro messages readers drained a stored
    exact (drained.posts among).2.agent stored
  · intro e s' made
    obtain ⟨agents, index, rewritten, -, rfl⟩ := failed_of_program among sound made
    exact ⟨rfl, Agent.mailboxes_eq rewritten⟩
  · intro summary s' made
    obtain ⟨⟨cause | commands, acted, shared⟩, turned, ends⟩ := made
    · cases ends
    have posts := sound.posts among turned ends.symm
    have drains := drained.completed turned ends.symm
    rw [modify_of_program among] at ends
    obtain ⟨_, newborns, ⟨⟩, -, done⟩ :=
      sound.finish_completed (turned_of_program among turned).allows ends.symm
    obtain ⟨moved, counts⟩ := done.summary
    refine ⟨commands, acted, shared, turned, drains, fun a stored => posts.agent stored, ?_, ?_⟩
    · rw [done.queues]
      rfl
    · rw [counts]
      rfl

end Engine

/-- Two copies for the only agent, and none for the one that is born in the step. -/
theorem mail_exact_walker :
    ∃ (s s' : Sim Unit Unit Unit) (m : Message Unit) (summary : StepSummary), s.Reachable ∧
      s.ids = [⟨0⟩] ∧ m.recipients = [⟨0⟩, ⟨1⟩, ⟨0⟩] ∧ s.queues.deliveries = [m] ∧
      s.queues.additions.length = 1 ∧ s.nextStep = (.ok summary, s') ∧ summary.delivered = 2 ∧
      s'.queues.deliveries = [] ∧ ∀ a ∈ s'.agents, a.inbox = if a.id = ⟨0⟩ then [m, m] else [] := by
  let a : Addition Unit Unit Unit := .plain "walker" (.placed 0.5 0.5)
  let m : Message Unit := ⟨⟨0⟩, [⟨0⟩, ⟨1⟩, ⟨0⟩], ()⟩
  obtain ⟨s₀, walker, start, reached₀, admits, next, passive, empty, alone, first, -⟩ :=
    walkers_spawn (a := a) rfl rfl
  let s := s₀.afterAll [.enqueueDelivery m, .enqueueAddition a]
  have reached : s.Reachable := reached₀.afterAll _
  have deliveries : s.queues.deliveries = [m] := by
    show s₀.queues.deliveries ++ _ = _
    rw [empty]
    rfl
  have additions : s.queues.additions = [a] := by
    show s₀.queues.additions ++ _ = _
    rw [empty]
    rfl
  have ids : s.ids = [⟨0⟩] := by
    show s₀.agents.toList.map (·.id) = _
    rw [alone, List.map_singleton, first]
  obtain ⟨acts, summary, s', completed⟩ := reached.sound.idle_step
    (Behavior.idle_of_passive passive)
    (by rw [additions]; exact List.forall_mem_singleton.mpr admits)
    (by rw [additions, show s.nextId = ⟨1⟩ from next]; decide)
  obtain ⟨-, -, -, steps⟩ := reached.own.mail_exact Engine.own_mem_program
  obtain ⟨commands, acted, shared, turned, -, inboxes, blank, delivered⟩ :=
    steps _ _ (Engine.own_makes.mpr completed.symm)
  cases turned.trans acts
  rw [deliveries, ids] at delivered
  refine ⟨s, s', m, summary, reached, ids, rfl, deliveries, by rw [additions]; rfl, completed,
    delivered, blank, ?_⟩
  intro a stored
  rw [inboxes a stored, deliveries, ids]
  by_cases old : a.id = ⟨0⟩
  · simp [old, m, Commands.empty]
  · simp [old]

end Sim
end Vivarium
