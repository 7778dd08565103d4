import Mathlib.Algebra.GroupWithZero.Nat
import Vivarium.Proofs.Sim.Run

/-! The storage that a setup asks for. What is asked for one population adds up, and is reserved once all
prototypes are registered, population by population; so the pool of a setup has a bucket for each population
with a prototype, of the last one given, and as many copies wait in it as were asked for altogether. -/
namespace Vivarium
variable {σ μ η : Type} {p : Population}

/-- A bucket with `n` copies of the prototype, none of them handed out yet. -/
def Bucket.filled (p : Population) (n : Nat) (state : σ) : Bucket σ μ :=
  ⟨.prototype p state, .replicate n (.prototype p state), ⟨0, 0, 0⟩⟩

namespace Setup

section
variable {α : Type}

/-- What is given for one population, call by call. -/
def about (given : List (Population × α)) (p : Population) : List α :=
  given.filterMap fun x => if x.1 = p then some x.2 else none

theorem about_append (before after : List (Population × α)) (p : Population) :
    about (before ++ after) p = about before p ++ about after p := List.filterMap_append

theorem about_singleton (x : Population × α) (p : Population) :
    about [x] p = if x.1 = p then [x.2] else [] := by
  by_cases own : x.1 = p <;> simp [about, own]

end

/-! Capacities. -/

/-- The map holds the sum for each population that was named, and there is a machine word for it. -/
structure Tallied (m : Std.TreeMap Population Nat) (before : List (Population × Nat)) : Prop where
  sums : ∀ p, m[p]? = if about before p = [] then none else some (about before p).sum
  words : ∀ p, (about before p).sum < UInt64.size

namespace Tallied
variable {m m' : Std.TreeMap Population Nat} {before rest : List (Population × Nat)}

theorem none : Tallied ∅ [] where
  sums p := by simp [about]
  words p := by
    show 0 < UInt64.size
    decide

theorem getD (tallied : Tallied m before) (p : Population) :
    m.getD p 0 = (about before p).sum := by
  simp only [Std.TreeMap.getD_eq_getD_getElem?, tallied.sums p]
  split <;> simp [*]

theorem add (tallied : Tallied m before) (asked : Population × Nat)
    (fits : m.getD asked.1 0 + asked.2 < UInt64.size) :
    Tallied (m.insert asked.1 (m.getD asked.1 0 + asked.2)) (before ++ [asked]) where
  sums p := by
    simp only [Std.TreeMap.getElem?_insert, Std.compare_eq_iff_eq, about_append, about_singleton,
      tallied.getD]
    by_cases own : asked.1 = p
    · simp [own]
    · simpa [own] using tallied.sums p
  words p := by
    rw [about_append, about_singleton, List.sum_append]
    by_cases own : asked.1 = p
    · subst own
      rw [if_pos rfl, List.sum_singleton, ← tallied.getD]
      exact fits
    · rw [if_neg own]
      exact tallied.words p

/-- Adding up ends with the sums of all that was asked, or at a sum that no machine word holds. -/
theorem totals (tallied : Tallied m before) (rest : List (Population × Nat)) :
    match rest.foldlM totals.add m with
    | .ok m' => Tallied m' (before ++ rest)
    | .error e => ∃ p n, e = .noRoom p n ∧ UInt64.size ≤ n ∧ n ≤ (about (before ++ rest) p).sum := by
  induction rest generalizing m before with
  | nil =>
    rw [List.append_nil]
    exact tallied
  | cons asked rest ih =>
    rw [List.foldlM_cons, Setup.totals.add]
    by_cases fits : m.getD asked.1 0 + asked.2 < UInt64.size
    · rw [Machine.sum?, if_pos fits]
      have others := ih (tallied.add asked fits)
      rw [List.append_assoc, List.singleton_append] at others
      exact others
    · rw [Machine.sum?, if_neg fits]
      -- what comes later cannot make the sum smaller
      refine ⟨asked.1, _, rfl, Nat.le_of_not_lt fits, ?_⟩
      rw [tallied.getD, ← List.singleton_append, about_append, about_append, about_singleton,
        if_pos rfl]
      simp only [List.sum_append, List.sum_singleton]
      omega

theorem mem_toList (tallied : Tallied m before) {n : Nat} :
    (p, n) ∈ m.toList ↔ about before p ≠ [] ∧ n = (about before p).sum := by
  rw [Std.TreeMap.mem_toList_iff_getElem?_eq_some, tallied.sums p]
  by_cases named : about before p = []
  · simp [named]
  · simpa [named] using eq_comm

end Tallied

section
variable {capacities : List (Population × Nat)}

theorem totals_eq_ok {m : Std.TreeMap Population Nat} (added : totals capacities = .ok m) :
    Tallied m capacities := by
  have spec := Tallied.none.totals capacities
  rwa [← Setup.totals, added] at spec

theorem totals_eq_error {e : AgentError} (failed : totals capacities = .error e) :
    ∃ p n, e = .noRoom p n ∧ UInt64.size ≤ n ∧ n ≤ (about capacities p).sum := by
  have spec := Tallied.none.totals capacities
  rwa [← Setup.totals, failed] at spec

end

/-! The pool. -/

theorem registered_bucket? (prototypes : List (Population × σ)) (p : Population) :
    (prototypes.foldl (fun pool x => pool.register x.1 x.2) (.empty : Pool σ μ)).bucket? p =
      (about prototypes p).getLast?.map (.filled p 0) := by
  induction prototypes using List.reverseRecOn with
  | nil => simp [about, Pool.bucket?, Pool.empty]
  | append_singleton before x ih =>
    rw [List.foldl_append, List.foldl_cons, List.foldl_nil, Pool.register, Pool.bucket?_put,
      about_append, about_singleton]
    by_cases own : x.1 = p
    · subst own
      rw [ih]
      cases (about before x.1).getLast? <;> simp [Bucket.filled]
    · simp [own, ih]

variable {pool : Pool σ μ} {states : Population → Option σ} {state : σ} {agentBytes : Nat}

theorem reserve_filled (known : pool.bucket? p = some (.filled p 0 state)) (n : Nat) :
    pool.reserve p n agentBytes =
      if n * agentBytes < Machine.vectorLimit then .ok (pool.put p (.filled p n state))
      else .error (.noRoom p n) := by
  have room : n = 0 ∨ n * agentBytes < Machine.vectorLimit ↔ n * agentBytes < Machine.vectorLimit := by
    refine or_iff_right_of_imp ?_
    rintro rfl
    rw [Nat.zero_mul]
    decide
  rw [Pool.reserve, known]
  simp only [Bucket.filled, List.replicate_zero, List.length_nil, Nat.sub_zero, List.append_nil, room]

/-- Reserving for populations that have no storage yet, each named once. -/
theorem reserveAll_spec (agentBytes : Nat) (pool : Pool σ μ) (states : Population → Option σ)
    {asked : List (Population × Nat)} (distinct : asked.Pairwise (·.1 ≠ ·.1))
    (unfilled : ∀ a ∈ asked, pool.bucket? a.1 = (states a.1).map (.filled a.1 0)) :
    match reserveAll agentBytes pool asked with
    | .ok pool' =>
      (∀ a ∈ asked, states a.1 ≠ none ∧ a.2 * agentBytes < Machine.vectorLimit ∧
        pool'.bucket? a.1 = (states a.1).map (.filled a.1 a.2)) ∧
      ∀ p, (∀ a ∈ asked, a.1 ≠ p) → pool'.bucket? p = pool.bucket? p
    | .error e => ∃ a ∈ asked, (states a.1 = none ∧ e = .unknownPopulation a.1) ∨
        (Machine.vectorLimit ≤ a.2 * agentBytes ∧ e = .noRoom a.1 a.2) := by
  induction asked generalizing pool with
  | nil => exact ⟨List.forall_mem_nil _, fun _ _ => rfl⟩
  | cons a rest ih =>
    obtain ⟨p, n⟩ := a
    rw [List.pairwise_cons] at distinct
    rw [List.forall_mem_cons] at unfilled
    obtain ⟨here, others⟩ := unfilled
    dsimp only at here
    rw [reserveAll]
    cases known : states p with
    | none =>
      rw [known] at here
      rw [Pool.reserve, here]
      exact ⟨(p, n), List.mem_cons_self, .inl ⟨known, rfl⟩⟩
    | some state =>
      rw [known] at here
      rw [reserve_filled here]
      by_cases room : n * agentBytes < Machine.vectorLimit
      · have own : (pool.put p (.filled p n state)).bucket? p = some (.filled p n state) := by
          rw [Pool.bucket?_put, if_pos rfl]
        have apart : ∀ q, p ≠ q → (pool.put p (.filled p n state)).bucket? q = pool.bucket? q := by
          intro q apart
          rw [Pool.bucket?_put, if_neg apart]
        -- The others are other populations, whose buckets are as they were.
        have spec := ih (pool.put p (.filled p n state)) distinct.2 fun a later =>
          (apart a.1 (distinct.1 a later)).trans (others a later)
        simp only [if_pos room]
        rcases reserved : reserveAll agentBytes (pool.put p (.filled p n state)) rest with e | pool'
        · rw [reserved] at spec
          obtain ⟨a, later, refused⟩ := spec
          exact ⟨a, List.mem_cons_of_mem _ later, refused⟩
        · rw [reserved] at spec
          obtain ⟨filled, kept⟩ := spec
          refine ⟨List.forall_mem_cons.mpr ⟨⟨by simp [known], room, ?_⟩, filled⟩, fun q away => ?_⟩
          · rw [known]
            exact (kept p fun a later => (distinct.1 a later).symm).trans own
          · rw [List.forall_mem_cons] at away
            exact (kept q away.2).trans (apart q away.1)
      · simp only [if_neg room]
        exact ⟨(p, n), List.mem_cons_self, .inr ⟨Nat.le_of_not_lt room, rfl⟩⟩

variable {setup : Setup σ μ η}

/-- There is a machine word for the number of agents, and a vector for the agents. -/
def Holdable (setup : Setup σ μ η) (n : Nat) : Prop :=
  n < UInt64.size ∧ n * setup.agentBytes < Machine.vectorLimit

/-- What can be wrong with the storage that is asked for: of one population there is no prototype, or
what is asked for it altogether, or a part of that, cannot be held. Where several things are wrong, any
one of them may be found. -/
inductive Overdrawn (setup : Setup σ μ η) : AgentError → Prop where
  | unknown {p : Population} : about setup.capacities p ≠ [] → about setup.prototypes p = [] →
      Overdrawn setup (.unknownPopulation p)
  | noRoom {p : Population} {n : Nat} : ¬setup.Holdable n → n ≤ (about setup.capacities p).sum →
      Overdrawn setup (.noRoom p n)

theorem Holdable.mono {m n : Nat} (holdable : setup.Holdable n) (less : m ≤ n) : setup.Holdable m :=
  ⟨Nat.lt_of_le_of_lt less holdable.1,
    Nat.lt_of_le_of_lt (Nat.mul_le_mul_right _ less) holdable.2⟩

theorem stockedPool_of_totals {asked : Std.TreeMap Population Nat}
    (added : totals setup.capacities = .ok asked) :
    setup.stockedPool = reserveAll setup.agentBytes setup.registered asked.toList := by
  rw [stockedPool, added]
  rfl

theorem stockedPool_spec (setup : Setup σ μ η) :
    match setup.stockedPool with
    | .ok pool => ∀ p, (about setup.capacities p ≠ [] → about setup.prototypes p ≠ []) ∧
        setup.Holdable (about setup.capacities p).sum ∧
        pool.bucket? p = (about setup.prototypes p).getLast?.map
          (.filled p (about setup.capacities p).sum)
    | .error e => setup.Overdrawn e := by
  rcases added : totals setup.capacities with e | asked
  · rw [stockedPool, added]
    obtain ⟨p, n, rfl, large, sum⟩ := totals_eq_error added
    exact .noRoom (fun holdable => Nat.not_le_of_lt holdable.1 large) sum
  · have tallied := totals_eq_ok added
    have distinct : asked.toList.Pairwise (·.1 ≠ ·.1) :=
      Std.TreeMap.distinct_keys_toList.imp fun apart same =>
        apart (Std.compare_eq_iff_eq.mpr same)
    have spec := reserveAll_spec setup.agentBytes setup.registered
      (fun p => (about setup.prototypes p).getLast?) distinct
      fun a _ => registered_bucket? setup.prototypes a.1
    rw [stockedPool_of_totals added]
    rcases reserved : reserveAll setup.agentBytes setup.registered asked.toList with e | pool
    · rw [reserved] at spec
      obtain ⟨⟨p, n⟩, among, refused⟩ := spec
      obtain ⟨named, rfl⟩ := tallied.mem_toList.mp among
      rcases refused with ⟨unknown, rfl⟩ | ⟨large, rfl⟩
      · exact .unknown named (by simpa using unknown)
      · exact .noRoom (fun holdable => Nat.not_le_of_lt holdable.2 large) (Nat.le_refl _)
    · rw [reserved] at spec
      obtain ⟨filled, kept⟩ := spec
      intro p
      -- A population that is not named keeps the empty bucket of its registration.
      by_cases named : about setup.capacities p = []
      · have away : ∀ a ∈ asked.toList, a.1 ≠ p := by
          rintro ⟨q, n⟩ among rfl
          exact (tallied.mem_toList.mp among).1 named
        have none : setup.Holdable 0 := ⟨by decide, by rw [Nat.zero_mul]; decide⟩
        rw [named, kept p away]
        exact ⟨fun some => absurd rfl some, none, registered_bucket? setup.prototypes p⟩
      · obtain ⟨known, room, bucket⟩ := filled (p, _) (tallied.mem_toList.mpr ⟨named, rfl⟩)
        exact ⟨fun _ => by simpa using known, ⟨tallied.words p, room⟩, bucket⟩

end Setup
end Vivarium
