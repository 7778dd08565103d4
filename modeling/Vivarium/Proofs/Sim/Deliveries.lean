import Vivarium.Proofs.Sim.Consistent

/-! Deliveries. Copies are handed out one by one through the table of places; what an agent ends up
with is read off the messages alone. -/
namespace Vivarium

/-- What one reader gets of some messages: in their order, a copy for each time it is listed. -/
def Message.copiesFor {μ : Type} (id : AgentId) (messages : List (Message μ)) :
    List (Message μ) :=
  messages.flatMap fun m => List.replicate (m.recipients.count id) m

/-- An agent with its copies of some messages behind those it has. -/
def Agent.receive {σ μ : Type} (messages : List (Message μ)) (a : Agent σ μ) : Agent σ μ :=
  { a with inbox := a.inbox ++ Message.copiesFor a.id messages }

namespace Sim
variable {σ μ η : Type} {s : Sim σ μ η}

/-- Copies of one message put into the inboxes of the listed agents. -/
def posted (s : Sim σ μ η) (m : Message μ) (recipients : List AgentId) : Sim σ μ η :=
  { s with agents := s.agents.map fun a =>
      { a with inbox := a.inbox ++ List.replicate (recipients.count a.id) m } }

/-- Some messages put into the inboxes of their recipients. -/
def mailed (s : Sim σ μ η) (messages : List (Message μ)) : Sim σ μ η :=
  { s with agents := s.agents.map (·.receive messages) }

theorem posted_ids (m : Message μ) (recipients : List AgentId) :
    (s.posted m recipients).ids = s.ids := by
  simp [ids, posted, Function.comp_def]

theorem mailed_identities (messages : List (Message μ)) :
    (s.mailed messages).identities = s.identities := by
  simp only [identities, mailed, Array.toList_map, List.map_map]
  rfl

theorem posted_cons (m : Message μ) (id : AgentId) (rest : List AgentId) :
    (s.posted m [id]).posted m rest = s.posted m (id :: rest) := by
  have merge : ∀ a : Agent σ μ,
      a.inbox ++ List.replicate ([id].count a.id) m ++ List.replicate (rest.count a.id) m =
        a.inbox ++ List.replicate ((id :: rest).count a.id) m := by
    intro a
    rw [List.append_assoc, List.replicate_append_replicate, ← List.count_append]
    rfl
  simp only [posted, Array.map_map, Function.comp_def, merge]

theorem mailed_cons (m : Message μ) (rest : List (Message μ)) :
    (s.posted m m.recipients).mailed rest = s.mailed (m :: rest) := by
  simp only [posted, mailed, Array.map_map, Function.comp_def, Agent.receive, Message.copiesFor,
    List.flatMap_cons, List.append_assoc]

theorem posted_of_missing {m : Message μ} {recipients : List AgentId}
    (missing : ∀ id ∈ recipients, id ∉ s.ids) : s.posted m recipients = s := by
  have same : ∀ a ∈ s.agents,
      { a with inbox := a.inbox ++ List.replicate (recipients.count a.id) m } = a := by
    intro a stored
    have unlisted : recipients.count a.id = 0 :=
      List.count_eq_zero_of_not_mem fun among => missing _ among (mem_ids stored)
    simp [unlisted]
  rw [posted, Array.map_congr_left same, Array.map_id']

/-- The place in the table is that of the one agent with the id. -/
theorem deliverTo_eq (indexed : Indexes s.slots s.ids) (m : Message μ) (n : Nat) (id : AgentId) :
    deliverTo m (n, s) id = (n + [id].countP (· ∈ s.ids), s.posted m [id]) := by
  simp only [deliverTo]
  split
  · rename_i slot place
    have there := (indexed id slot).mp place
    have listed : [id].countP (· ∈ s.ids) = 1 := by simp [List.mem_of_getElem? there]
    rw [listed, posted, Prod.mk.injEq]
    refine ⟨rfl, ?_⟩
    congr 1
    apply Array.ext_getElem?
    intro i
    rw [Array.getElem?_modify, Array.getElem?_map]
    rcases here : s.agents[i]? with - | a
    · simp
    · have own : s.ids[i]? = some a.id := by
        rw [ids, List.getElem?_map, Array.getElem?_toList, here]
        rfl
      by_cases same : slot = i
      · subst same
        obtain rfl := Option.some.inj (own.symm.trans there)
        simp [Agent.deliver]
      · have other : id ≠ a.id := by
          rintro rfl
          exact same (indexed.unique there own)
        simp [same, other]
  · rename_i absent
    have missing : id ∉ s.ids := by
      intro among
      obtain ⟨i, there⟩ := List.mem_iff_getElem?.mp among
      rw [(indexed id i).mpr there] at absent
      cases absent
    have unlisted : [id].countP (· ∈ s.ids) = 0 := by simp [missing]
    rw [unlisted, posted_of_missing fun other among => List.mem_singleton.mp among ▸ missing,
      Nat.add_zero]

theorem foldl_deliverTo (indexed : Indexes s.slots s.ids) (m : Message μ) (n : Nat)
    (recipients : List AgentId) :
    recipients.foldl (deliverTo m) (n, s) =
      (n + recipients.countP (· ∈ s.ids), s.posted m recipients) := by
  induction recipients generalizing n s with
  | nil => rw [posted_of_missing fun id among => by cases among]; rfl
  | cons id rest ih =>
    have next : Indexes (s.posted m [id]).slots (s.posted m [id]).ids := by
      rw [posted_ids]
      exact indexed
    rw [List.foldl_cons, deliverTo_eq indexed, ih next, posted_ids, posted_cons, Nat.add_assoc,
      ← List.countP_append]
    rfl

theorem foldl_messages (indexed : Indexes s.slots s.ids) (n : Nat) (messages : List (Message μ)) :
    messages.foldl (fun s m => m.recipients.foldl (deliverTo m) s) (n, s) =
      (n + (messages.flatMap (·.recipients)).countP (· ∈ s.ids), s.mailed messages) := by
  induction messages generalizing n s with
  | nil => simp [mailed, Agent.receive, Message.copiesFor]
  | cons m rest ih =>
    have next : Indexes (s.posted m m.recipients).slots (s.posted m m.recipients).ids := by
      rw [posted_ids]
      exact indexed
    rw [List.foldl_cons, foldl_deliverTo indexed, ih next, posted_ids, mailed_cons, Nat.add_assoc,
      ← List.countP_append]
    rfl

/-- All messages are handed out, and each copy for an active agent is counted. -/
theorem deliver_eq (indexed : Indexes s.slots s.ids) :
    s.deliver = ((s.queues.deliveries.flatMap (·.recipients)).countP (· ∈ s.ids),
      { s.mailed s.queues.deliveries with queues := { s.queues with deliveries := [] } }) := by
  have emptied := foldl_messages (s := { s with queues := { s.queues with deliveries := [] } })
    indexed 0 s.queues.deliveries
  rw [Nat.zero_add] at emptied
  exact emptied

end Sim
end Vivarium
