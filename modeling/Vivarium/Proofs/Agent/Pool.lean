import Std.Data.TreeMap.Lemmas
import Vivarium.Agent.Pool

/-! The pool keeps every bucket for its own population. Which populations are known changes only by
registration, so an agent of a known population can always be borrowed and given back. -/
namespace Vivarium
variable {σ μ : Type}

/-- The prototype is of the population, and what waits behind it are inactive agents of it. -/
structure Bucket.Serves (b : Bucket σ μ) (q : Population) : Prop where
  prototype : ∃ state, b.prototype = .prototype q state
  free : ∀ a ∈ b.free, a.active = false ∧ a.population = q

namespace Pool
variable {p p' : Pool σ μ} {q r : Population} {a : Agent σ μ} {b : Bucket σ μ}

def Stocked (p : Pool σ μ) : Prop := ∀ q b, p.bucket? q = some b → b.Serves q

theorem bucket?_put : (p.put q b).bucket? r = if q = r then some b else p.bucket? r := by
  simp [bucket?, put, Std.TreeMap.getElem?_insert]

theorem contains_iff : p.contains q = true ↔ ∃ b, p.bucket? q = some b := by
  rw [contains, bucket?, Std.TreeMap.contains_iff_mem, Std.TreeMap.mem_iff_isSome_getElem?,
    Option.isSome_iff_exists]

/-- The prototype of a population. -/
def pattern? (p : Pool σ μ) (q : Population) : Option (Agent σ μ) :=
  (p.bucket? q).map (·.prototype)

theorem contains_congr (same : p'.pattern? q = p.pattern? q) : p'.contains q = p.contains q := by
  have known : ∀ p : Pool σ μ, p.contains q = (p.pattern? q).isSome := by
    intro p
    rw [Bool.eq_iff_iff, contains_iff, pattern?, Option.isSome_map, Option.isSome_iff_exists]
  rw [known, known, same]

theorem pattern?_put (known : p.bucket? q = some b) {b' : Bucket σ μ}
    (same : b'.prototype = b.prototype) : (p.put q b').pattern? r = p.pattern? r := by
  rw [pattern?, bucket?_put]
  split
  · rename_i here
    subst here
    rw [pattern?, known, Option.map_some, Option.map_some, same]
  · rfl

theorem empty_stocked : (empty : Pool σ μ).Stocked := by
  intro q b known
  simp [empty, bucket?] at known

theorem Stocked.put (stocked : p.Stocked) (serves : b.Serves q) : (p.put q b).Stocked := by
  intro r other known
  rw [bucket?_put] at known
  split at known
  · rename_i same
    cases known
    exact same ▸ serves
  · exact stocked r other known

theorem Stocked.register (stocked : p.Stocked) (q : Population) (state : σ) :
    (p.register q state).Stocked := by
  apply stocked.put
  split
  · rename_i b known
    exact ⟨⟨state, rfl⟩, (stocked q b known).free⟩
  · exact ⟨⟨state, rfl⟩, by simp⟩

/-- What a successful reservation found and added. -/
theorem reserve_eq_ok {n bytes : Nat} (reserved : p.reserve q n bytes = .ok p') :
    ∃ b, p.bucket? q = some b ∧ p' = p.put q { b with
      free := List.replicate (n - b.free.length) b.prototype ++ b.free } := by
  rw [reserve] at reserved
  split at reserved
  · cases reserved
  · rename_i b known
    dsimp only at reserved
    split at reserved
    · cases reserved
      exact ⟨b, known, rfl⟩
    · cases reserved

theorem reserve_pattern? {n bytes : Nat} (reserved : p.reserve q n bytes = .ok p') :
    p'.pattern? r = p.pattern? r := by
  obtain ⟨b, known, rfl⟩ := reserve_eq_ok reserved
  exact pattern?_put known rfl

theorem Stocked.reserve (stocked : p.Stocked) {n bytes : Nat} (reserved : p.reserve q n bytes = .ok p') :
    p'.Stocked := by
  obtain ⟨b, known, rfl⟩ := reserve_eq_ok reserved
  obtain ⟨⟨state, pattern⟩, free⟩ := stocked q b known
  apply stocked.put
  constructor
  · exact ⟨state, pattern⟩
  · intro a waits
    rcases List.mem_append.mp waits with copied | waited
    · rw [List.eq_of_mem_replicate copied, pattern]
      exact ⟨rfl, rfl⟩
    · exact free a waited

/-- What a successful loan found and left. -/
theorem borrow_eq_ok (borrowed : p.borrow q = .ok (a, p')) :
    ∃ b, p.bucket? q = some b ∧
      ((∃ old free, b.free = old :: free ∧ a = old.resetFrom b.prototype ∧
          p' = p.put q { b with
            free, stats := { b.stats with recycled := b.stats.recycled + 1 } }) ∨
        b.free = [] ∧ a = b.prototype ∧
          p' = p.put q { b with stats := { b.stats with created := b.stats.created + 1 } }) := by
  rw [borrow] at borrowed
  split at borrowed
  · cases borrowed
  · rename_i b known
    refine ⟨b, known, ?_⟩
    split at borrowed
    · rename_i old free waits
      cases borrowed
      exact .inl ⟨old, free, waits, rfl, rfl⟩
    · rename_i none
      cases borrowed
      exact .inr ⟨none, rfl, rfl⟩

theorem borrow_of_contains (known : p.contains q = true) : ∃ a p', p.borrow q = .ok (a, p') := by
  obtain ⟨b, known⟩ := contains_iff.mp known
  rw [borrow]
  rw [known]
  dsimp only
  split
  · exact ⟨_, _, rfl⟩
  · exact ⟨_, _, rfl⟩

theorem borrow_pattern? (borrowed : p.borrow q = .ok (a, p')) : p'.pattern? r = p.pattern? r := by
  obtain ⟨b, known, ⟨old, free, -, -, rfl⟩ | ⟨-, -, rfl⟩⟩ := borrow_eq_ok borrowed
  · exact pattern?_put known rfl
  · exact pattern?_put known rfl

theorem Stocked.borrow (stocked : p.Stocked) (borrowed : p.borrow q = .ok (a, p')) :
    p'.Stocked := by
  obtain ⟨b, known, ⟨old, free, waits, -, rfl⟩ | ⟨-, -, rfl⟩⟩ := borrow_eq_ok borrowed
  · obtain ⟨pattern, inactive⟩ := stocked q b known
    exact stocked.put ⟨pattern, fun a among => inactive a (waits ▸ List.mem_cons_of_mem _ among)⟩
  · obtain ⟨pattern, inactive⟩ := stocked q b known
    exact stocked.put ⟨pattern, inactive⟩

/-- A borrowed agent is like the prototype but for the count of its incarnations. -/
theorem Stocked.borrowed (stocked : p.Stocked) (borrowed : p.borrow q = .ok (a, p')) :
    ∃ state n, p.pattern? q = some (.prototype q state) ∧
      a = { Agent.prototype q state with incarnation := n } := by
  obtain ⟨b, known, loan⟩ := borrow_eq_ok borrowed
  obtain ⟨state, pattern⟩ := (stocked q b known).prototype
  refine ⟨state, ?_⟩
  have registered : p.pattern? q = some (.prototype q state) := by
    rw [pattern?, known, Option.map_some, pattern]
  rcases loan with ⟨old, free, -, rfl, -⟩ | ⟨-, rfl, -⟩
  · exact ⟨old.incarnation + 1, registered, by rw [pattern]; rfl⟩
  · exact ⟨0, registered, pattern⟩

/-- What a successful return found and left. -/
theorem release_eq_ok (released : p.release a = .ok p') :
    a.active = false ∧ ∃ b, p.bucket? a.population = some b ∧
      p' = p.put a.population { b with
        free := a :: b.free
        stats := { b.stats with released := b.stats.released + 1 } } := by
  rw [release] at released
  split at released
  · cases released
  · rename_i inactive
    split at released
    · cases released
    · rename_i b known
      exact ⟨by simpa using inactive, b, known, (Except.ok.inj released).symm⟩

theorem release_of_contains (inactive : a.active = false)
    (known : p.contains a.population = true) : ∃ p', p.release a = .ok p' := by
  obtain ⟨b, known⟩ := contains_iff.mp known
  simp [release, inactive, known]

theorem release_pattern? (released : p.release a = .ok p') : p'.pattern? r = p.pattern? r := by
  obtain ⟨-, b, known, rfl⟩ := release_eq_ok released
  exact pattern?_put known rfl

theorem Stocked.release (stocked : p.Stocked) (released : p.release a = .ok p') : p'.Stocked := by
  obtain ⟨inactive, b, known, rfl⟩ := release_eq_ok released
  obtain ⟨pattern, free⟩ := stocked a.population b known
  apply stocked.put
  constructor
  · exact pattern
  · intro other among
    rcases List.mem_cons.mp among with rfl | waited
    · exact ⟨inactive, rfl⟩
    · exact free other waited

end Pool
end Vivarium
