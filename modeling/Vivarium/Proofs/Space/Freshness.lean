import Vivarium.Proofs.Space.Listing
import Vivarium.Proofs.Space.Run

/-! The picture that queries by distance look at is never stale. Whatever changes an entry marks it
outdated, and only a query that looks at an outdated picture takes a new one. -/
namespace Vivarium.Space
open Scalar

/-- What reads a store by distance. -/
inductive Query (F : Type) where
  | within (center : Point F) (radius : F)
  | nearest (center : Point F) (count : Nat)
  | neighboursOf (id : AgentId) (radius : F) (accept : Entry F → Entry F → Bool)

/-- What happens to a store that is changed and queried in turns. -/
inductive Event (F : Type) where
  | request (r : Request F)
  | query (q : Query F)

variable {F : Type} [Scalar F] {s : Space F}

/-- Whether a query looks at the picture. Within a negative or undefined radius there is nothing to
see, and an object that is not stored has no neighbours. -/
def consults (s : Space F) : Query F → Bool
  | .within _ radius => decide (zero ≤ radius)
  | .nearest _ _ => true
  | .neighboursOf id radius _ => s.contains id && decide (zero ≤ radius)

/-- The store after a query. -/
def asked (s : Space F) : Query F → Space F
  | .within center radius => (s.within center radius).2
  | .nearest center count => (s.nearest? center count).2
  | .neighboursOf id radius accept => (s.neighboursOf id radius accept).2

def askedAll (s : Space F) (queries : List (Query F)) : Space F := queries.foldl asked s

theorem within_snd (s : Space F) (center : Point F) (radius : F) :
    (s.within center radius).2 = if zero ≤ radius then s.refreshed else s := by
  rw [within]
  split <;> rfl

omit [Scalar F] in
theorem WellFormed.isSome_entry? (wf : s.WellFormed) (id : AgentId) :
    (s.entry? id).isSome = s.contains id := by
  rw [Space.entry?, Option.isSome_map, wf.contains_eq, Bool.eq_iff_iff, decide_eq_true_iff,
    Option.isSome_iff_ne_none, Ne, wf.find?_eq_none, not_not]

/-- A query that looks at the picture brings it up to date, and no other does anything. -/
theorem WellFormed.asked_eq (wf : s.WellFormed) (q : Query F) :
    s.asked q = if s.consults q then s.refreshed else s := by
  cases q with
  | within center radius => simp only [asked, within_snd, consults, decide_eq_true_eq]
  | nearest center count => rfl
  | neighboursOf id radius accept =>
    have stored := wf.isSome_entry? id
    simp only [asked, neighboursOf, consults, ← stored]
    cases s.entry? id with
    | none => rfl
    | some me => simp [within_snd]

/-! Queries leave everything but the picture as it is. -/

theorem WellFormed.refreshed (wf : s.WellFormed) : s.refreshed.WellFormed := wf.of_same rfl rfl rfl

theorem WellFormed.asked (wf : s.WellFormed) (q : Query F) : (s.asked q).WellFormed := by
  rw [wf.asked_eq]
  split
  · exact wf.refreshed
  · exact wf

theorem WellFormed.consults_asked (wf : s.WellFormed) (q q' : Query F) :
    (s.asked q).consults q' = s.consults q' := by
  rw [wf.asked_eq]
  split
  · cases q' <;> rfl
  · rfl

/-! How often a picture is taken. -/

/-- A query takes a new picture if it looks at one that is outdated, and at no other time. -/
theorem WellFormed.asked_index (wf : s.WellFormed) (q : Query F) :
    (s.asked q).index.rebuilds =
        s.index.rebuilds + (if s.index.outdated ∧ s.consults q then 1 else 0) ∧
      (s.asked q).index.outdated = (s.index.outdated && !s.consults q) := by
  rw [wf.asked_eq]
  cases looks : s.consults q
  · simp
  · cases old : s.index.outdated <;>
      simp [Space.refreshed, SpatialIndex.refreshed, old]

/-- Queries in a row take at most one picture. -/
theorem WellFormed.askedAll_index (wf : s.WellFormed) (queries : List (Query F)) :
    (s.askedAll queries).index.rebuilds =
      s.index.rebuilds + (if s.index.outdated ∧ queries.any s.consults then 1 else 0) := by
  induction queries generalizing s with
  | nil => simp [askedAll]
  | cons q rest ih =>
    obtain ⟨count, old⟩ := wf.asked_index q
    have same : (s.asked q).consults = s.consults := funext (wf.consults_asked q)
    have tail := ih (wf.asked q)
    rw [same, count, old] at tail
    rw [askedAll, List.foldl_cons, ← askedAll, tail, List.any_cons]
    cases s.index.outdated <;> cases s.consults q <;> simp

/-! What a query can rely on. -/

/-- Unless it is marked outdated, the picture shows every object once, where it is, and nothing
else. -/
structure Fresh (s : Space F) : Prop where
  wellFormed : s.WellFormed
  picture : s.index.outdated = false → s.index.sightings.Perm s.sightings

omit [Scalar F] in
theorem empty_fresh (t : Terrain F) : (empty t).Fresh := ⟨empty_wellFormed t, fun _ => .refl _⟩

/-- A picture that was just looked at is that of the entries. -/
theorem Fresh.refreshed (fresh : s.Fresh) :
    s.refreshed.index.sightings.Perm s.sightings := by
  rw [Space.refreshed, SpatialIndex.refreshed]
  split
  · exact Listing.listed_perm _ s.sightings
  · rename_i current
    exact fresh.picture (by simpa using current)

theorem Fresh.asked (fresh : s.Fresh) (q : Query F) : (s.asked q).Fresh where
  wellFormed := fresh.wellFormed.asked q
  picture current := by
    rw [fresh.wellFormed.asked_eq] at current ⊢
    split
    · exact fresh.refreshed
    · rename_i aside
      rw [if_neg aside] at current
      exact fresh.picture current

section
variable [Trig F]

/-! What a request does to the picture. -/

/-- A request marks the picture outdated, or leaves both it and the entries alone. -/
theorem after_index (s : Space F) (r : Request F) :
    (s.after r).index = s.index.invalidate ∨
      (s.after r).index = s.index ∧ (s.after r).entries = s.entries := by
  cases r with
  | insert e =>
    simp only [after]
    split
    · rename_i inserted
      obtain ⟨-, -, rfl⟩ := insert_eq_ok inserted
      exact .inl rfl
    · exact .inr ⟨rfl, rfl⟩
  | remove id =>
    simp only [after]
    split
    · rename_i removed
      obtain ⟨slot, last, -, -, rfl⟩ := remove_eq_ok removed
      exact .inl rfl
    · exact .inr ⟨rfl, rfl⟩
  | removeIf doomed =>
    simp only [after, removeIf]
    split
    · exact .inr ⟨rfl, rfl⟩
    · exact .inl rfl
  | moveObject id m =>
    simp only [after]
    split
    · rename_i moved
      obtain ⟨slot, e, -, ⟨-, rfl⟩ | ⟨e', -, rfl⟩⟩ := moveObject_eq_ok moved
      · exact .inr ⟨rfl, rfl⟩
      · exact .inl rfl
    · exact .inr ⟨rfl, rfl⟩
  | moveAll chunkSize motionOf =>
    by_cases none : (s.moveAll chunkSize motionOf).1 = 0
    · exact .inr ⟨if_pos none, moveAll_unmoved none⟩
    · exact .inl (if_neg none)

/-! Requests and queries in turns. -/

def met (s : Space F) : Event F → Space F
  | .request r => s.after r
  | .query q => s.asked q

def metAll (s : Space F) (events : List (Event F)) : Space F := events.foldl met s

theorem Fresh.after (fresh : s.Fresh) (r : Request F) : (s.after r).Fresh where
  wellFormed := fresh.wellFormed.after r
  picture current := by
    rcases after_index s r with marked | ⟨same, entries⟩
    · rw [marked] at current
      cases current
    · rw [same] at current ⊢
      rw [sightings, entries]
      exact fresh.picture current

/-- Whatever happens in whatever order, the picture is not stale. -/
theorem Fresh.metAll (fresh : s.Fresh) (events : List (Event F)) : (s.metAll events).Fresh := by
  induction events generalizing s with
  | nil => exact fresh
  | cons event rest ih =>
    cases event with
    | request r => exact ih (fresh.after r)
    | query q => exact ih (fresh.asked q)

theorem Fresh.metAll_terrain (fresh : s.Fresh) (events : List (Event F)) :
    (s.metAll events).terrain = s.terrain := by
  induction events generalizing s with
  | nil => rfl
  | cons event rest ih =>
    cases event with
    | request r => exact (ih (fresh.after r)).trans (after_terrain s r)
    | query q =>
      refine (ih (fresh.asked q)).trans ?_
      rw [fresh.wellFormed.asked_eq]
      split <;> rfl

end
end Vivarium.Space
