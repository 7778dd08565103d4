import Vivarium.Proofs.Agent.Pool

/-! The ledger of a pool. A call changes the bucket of one population at most, and what it does
there depends on that bucket alone, so storage is counted bucket by bucket: what waits, and what was
handed out again, is what was added ahead of time and what came back. -/
namespace Vivarium
variable {σ μ : Type}

/-- What a pool can be asked for. -/
inductive Pool.Call (σ μ : Type) where
  | register (population : Population) (state : σ)
  /-- `bytes` is the size of an agent. -/
  | reserve (population : Population) (capacity bytes : Nat)
  | borrow (population : Population)
  | release (a : Agent σ μ)

/-! One bucket. -/

namespace Bucket
variable {q : Population} {b : Bucket σ μ}

/-- Copies of the prototype added until `n` agents wait, if a vector holds as many. -/
def stock (b : Bucket σ μ) (n bytes : Nat) : Bucket σ μ :=
  if n - b.free.length = 0 ∨ n * bytes < Machine.vectorLimit then
    { b with free := List.replicate (n - b.free.length) b.prototype ++ b.free }
  else b

/-- The agent that is lent next, and the bucket without it. -/
def lend (b : Bucket σ μ) : Agent σ μ × Bucket σ μ :=
  match b.free with
  | a :: free => (a.resetFrom b.prototype,
      { b with free, stats := { b.stats with recycled := b.stats.recycled + 1 } })
  | [] => (b.prototype, { b with stats := { b.stats with created := b.stats.created + 1 } })

def takeBack (b : Bucket σ μ) (a : Agent σ μ) : Bucket σ μ :=
  { b with free := a :: b.free, stats := { b.stats with released := b.stats.released + 1 } }

/-- The bucket of a population after a call to its pool. -/
def after (q : Population) (b : Bucket σ μ) : Pool.Call σ μ → Bucket σ μ
  | .register r state => if r = q then { b with prototype := .prototype q state } else b
  | .reserve r n bytes => if r = q then b.stock n bytes else b
  | .borrow r => if r = q then b.lend.2 else b
  | .release a => if a.population = q ∧ a.active = false then b.takeBack a else b

/-- How many copies of the prototype a call adds. -/
def topUp (q : Population) (b : Bucket σ μ) : Pool.Call σ μ → Nat
  | .reserve r n bytes =>
    if r = q ∧ n * bytes < Machine.vectorLimit then n - b.free.length else 0
  | _ => 0

/-- One call keeps the books. -/
theorem after_balance (q : Population) (b : Bucket σ μ) (c : Pool.Call σ μ) :
    (b.after q c).free.length + (b.after q c).stats.recycled + b.stats.released =
      b.free.length + b.stats.recycled + b.topUp q c + (b.after q c).stats.released := by
  cases c with
  | register r state =>
    simp only [after, topUp]
    split <;> rfl
  | reserve r n bytes =>
    simp only [after, topUp, stock]
    by_cases same : r = q
    · by_cases fits : n * bytes < Machine.vectorLimit
      · simp only [same, fits, or_true, and_self, if_true, List.length_append,
          List.length_replicate]
        omega
      · by_cases enough : n - b.free.length = 0
        · simp [same, fits, enough]
        · simp [same, fits, enough]
    · simp [same]
  | borrow r =>
    simp only [after, topUp, lend]
    split
    · split
      · simp only [*, List.length_cons]
        omega
      · rfl
    · rfl
  | release a =>
    simp only [after, topUp, takeBack]
    split
    · simp only [List.length_cons]
      omega
    · rfl

/-- The bucket after some agents were taken back, the last of them on top. -/
def takeAll (b : Bucket σ μ) (gone : List (Agent σ μ)) : Bucket σ μ :=
  { b with
    free := gone.reverse ++ b.free
    stats := { b.stats with released := b.stats.released + gone.length } }

theorem after_releases (b : Bucket σ μ) {gone : List (Agent σ μ)}
    (inactive : ∀ a ∈ gone, a.active = false) :
    (gone.map Pool.Call.release).foldl (after q) b =
      b.takeAll (gone.filter (·.population = q)) := by
  induction gone generalizing b with
  | nil => rfl
  | cons a rest ih =>
    rw [List.forall_mem_cons] at inactive
    rw [List.map_cons, List.foldl_cons, ih _ inactive.2]
    by_cases own : a.population = q
    · have next : b.after q (.release a) = b.takeBack a := if_pos ⟨own, inactive.1⟩
      rw [next, List.filter_cons_of_pos (by simpa using own)]
      simp [takeAll, takeBack, Nat.add_assoc, Nat.add_comm 1]
    · have next : b.after q (.release a) = b := if_neg fun both => own both.1
      rw [next, List.filter_cons_of_neg (by simpa using own)]

/-- The bucket after `m` loans in a row. -/
def lendAll (b : Bucket σ μ) (m : Nat) : Bucket σ μ :=
  { b with
    free := b.free.drop m
    stats := { b.stats with
      created := b.stats.created + (m - b.free.length)
      recycled := b.stats.recycled + min m b.free.length } }

/-- What `m` loans in a row hand out: first what waits, then copies of the prototype. -/
def loans (b : Bucket σ μ) (m : Nat) : List (Agent σ μ) :=
  (b.free.take m).map (·.resetFrom b.prototype) ++
    List.replicate (m - b.free.length) b.prototype

theorem lendAll_succ (b : Bucket σ μ) (m : Nat) : b.lendAll (m + 1) = b.lend.2.lendAll m := by
  obtain ⟨prototype, free, created, recycled, released⟩ := b
  cases free with
  | nil => simp [lendAll, lend, Nat.add_assoc, Nat.add_comm 1]
  | cons a free => simp [lendAll, lend, Nat.add_assoc, Nat.add_comm 1, Nat.add_min_add_right]

theorem loans_succ (b : Bucket σ μ) (m : Nat) :
    b.loans (m + 1) = b.lend.1 :: b.lend.2.loans m := by
  obtain ⟨prototype, free, stats⟩ := b
  cases free with
  | nil => simp [loans, lend, List.replicate_succ]
  | cons a free => simp [loans, lend]

theorem lendAll_counts (b : Bucket σ μ) (m : Nat) :
    (b.lendAll m).stats.created + (b.lendAll m).stats.recycled =
      b.stats.created + b.stats.recycled + m := by
  simp only [lendAll]
  omega

theorem lendAll_one (b : Bucket σ μ) : b.lend.2 = b.lendAll 1 := by
  rw [lendAll_succ]
  simp [lendAll]

theorem after_borrows (b : Bucket σ μ) (qs : List Population) :
    (qs.map Pool.Call.borrow).foldl (after q) b = b.lendAll (qs.count q) := by
  induction qs generalizing b with
  | nil => simp [lendAll]
  | cons r rest ih =>
    rw [List.map_cons, List.foldl_cons, ih, List.count_cons]
    by_cases own : r = q
    · have next : b.after q (.borrow r) = b.lend.2 := if_pos own
      simp only [next, beq_iff_eq.mpr own, if_true, lendAll_succ]
    · have next : b.after q (.borrow r) = b := if_neg own
      simp [next, own]

/-- What is lent is of the bucket's own population. -/
theorem Serves.lend (serves : b.Serves q) : b.lend.1.population = q := by
  obtain ⟨state, pattern⟩ := serves.prototype
  have own : b.prototype.population = q := by rw [pattern]; rfl
  rw [Bucket.lend]
  split
  · exact own
  · exact own

end Bucket

/-! All buckets. -/

namespace Pool
variable {p : Pool σ μ} {q : Population} {b : Bucket σ μ}

/-- The pool after a call that succeeds. -/
def attempt (p : Pool σ μ) : Call σ μ → Except AgentError (Pool σ μ)
  | .register q state => .ok (p.register q state)
  | .reserve q n bytes => p.reserve q n bytes
  | .borrow q => (p.borrow q).map (·.2)
  | .release a => p.release a

/-- The pool after a call, whether it succeeded or failed. -/
def after (p : Pool σ μ) (c : Call σ μ) : Pool σ μ :=
  match p.attempt c with
  | .ok p => p
  | .error _ => p

def afterAll (p : Pool σ μ) (calls : List (Call σ μ)) : Pool σ μ := calls.foldl after p

/-- The population is unknown, too much is asked for, or an agent is given back that is active. -/
def Refuses (p : Pool σ μ) : Call σ μ → Prop
  | .register .. => False
  | .reserve q n bytes =>
    p.contains q = false ∨ p.available q < n ∧ Machine.vectorLimit ≤ n * bytes
  | .borrow q => p.contains q = false
  | .release a => a.active = true ∨ p.contains a.population = false

theorem contains_eq (p : Pool σ μ) (q : Population) : p.contains q = (p.bucket? q).isSome := by
  rw [Bool.eq_iff_iff, contains_iff, Option.isSome_iff_exists]

theorem borrow_eq (p : Pool σ μ) (q : Population) :
    p.borrow q = match p.bucket? q with
      | none => .error (.unknownPopulation q)
      | some b => .ok (b.lend.1, p.put q b.lend.2) := by
  rw [borrow]
  cases p.bucket? q with
  | none => rfl
  | some b =>
    obtain ⟨prototype, free, stats⟩ := b
    cases free <;> rfl

theorem after_borrow {a : Agent σ μ} {p' : Pool σ μ} (borrowed : p.borrow q = .ok (a, p')) :
    p.after (.borrow q) = p' := by
  simp only [after, attempt, borrowed, Except.map]

/-- A call fails exactly for these reasons. -/
theorem attempt_fails_iff (p : Pool σ μ) (c : Call σ μ) :
    (∃ e, p.attempt c = .error e) ↔ p.Refuses c := by
  cases c with
  | register q state => simp [attempt, Refuses]
  | reserve q n bytes =>
    simp only [attempt, Refuses, contains_eq, available, reserve]
    cases p.bucket? q with
    | none => simp
    | some b =>
      dsimp only
      split
      · rename_i fits
        simp only [reduceCtorEq, exists_false, false_iff, Option.isSome_some, Bool.true_eq_false,
          false_or]
        omega
      · rename_i large
        simp only [Except.error.injEq, exists_eq', Option.isSome_some, Bool.true_eq_false, false_or,
          true_iff]
        omega
  | borrow q =>
    simp only [attempt, Refuses, contains_eq, borrow_eq]
    cases p.bucket? q <;> simp [Except.map]
  | release a =>
    simp only [attempt, Refuses, contains_eq, release]
    cases a.active <;> cases p.bucket? a.population <;> simp

/-- What a call does to the bucket of one population. -/
theorem bucket?_after (known : p.bucket? q = some b) (c : Call σ μ) :
    (p.after c).bucket? q = some (b.after q c) := by
  cases c with
  | register r state =>
    simp only [after, attempt, register, Bucket.after, bucket?_put]
    split
    · rename_i same
      subst same
      rw [known]
    · exact known
  | reserve r n bytes =>
    simp only [after, attempt, reserve, Bucket.after, Bucket.stock]
    by_cases same : r = q
    · subst same
      rw [known]
      by_cases room : n - b.free.length = 0 ∨ n * bytes < Machine.vectorLimit
      · simp [room, bucket?_put]
      · simp [room, known]
    · rw [if_neg same, ← known]
      cases p.bucket? r with
      | none => rfl
      | some other =>
        by_cases room : n - other.free.length = 0 ∨ n * bytes < Machine.vectorLimit
        · simp [room, bucket?_put, same]
        · simp [room]
  | borrow r =>
    simp only [after, attempt, borrow_eq, Bucket.after]
    by_cases same : r = q
    · subst same
      simp [known, Except.map, bucket?_put]
    · rw [if_neg same, ← known]
      cases p.bucket? r with
      | none => rfl
      | some other => simp [Except.map, bucket?_put, same]
  | release a =>
    simp only [after, attempt, release, Bucket.after, Bucket.takeBack]
    by_cases active : a.active = true
    · simp [active, known]
    · by_cases same : a.population = q
      · subst same
        simp [active, known, bucket?_put]
      · simp only [active, same, false_and, if_false, Bool.false_eq_true]
        rw [← known]
        cases p.bucket? a.population with
        | none => rfl
        | some other => simp [bucket?_put, same]

theorem bucket?_afterAll (known : p.bucket? q = some b) (calls : List (Call σ μ)) :
    (p.afterAll calls).bucket? q = some (calls.foldl (Bucket.after q) b) := by
  induction calls generalizing p b with
  | nil => exact known
  | cons c rest ih => exact ih (bucket?_after known c)

/-- Only a registration makes a population known, with nothing waiting and nothing counted. -/
theorem bucket?_after_unknown (unknown : p.bucket? q = none) {c : Call σ μ}
    (known : (p.after c).bucket? q = some b) : b.free = [] ∧ b.stats = ⟨0, 0, 0⟩ := by
  have elsewhere : ∀ {r : Population} {other b' : Bucket σ μ}, p.bucket? r = some other →
      (p.put r b').bucket? q ≠ some b := by
    intro r other b' there here
    rw [bucket?_put] at here
    split at here
    · rename_i same
      subst same
      cases unknown.symm.trans there
    · cases unknown.symm.trans here
  cases c with
  | register r state =>
    simp only [after, attempt, register, bucket?_put] at known
    split at known
    · rename_i same
      subst same
      rw [unknown] at known
      cases known
      exact ⟨rfl, rfl⟩
    · cases unknown.symm.trans known
  | reserve r n bytes =>
    simp only [after, attempt] at known
    split at known
    · rename_i p' reserved
      obtain ⟨other, there, rfl⟩ := reserve_eq_ok reserved
      exact absurd known (elsewhere there)
    · cases unknown.symm.trans known
  | borrow r =>
    simp only [after, attempt, borrow_eq] at known
    cases there : p.bucket? r with
    | none =>
      rw [there] at known
      cases unknown.symm.trans known
    | some other =>
      rw [there] at known
      exact absurd known (elsewhere there)
  | release a =>
    simp only [after, attempt] at known
    split at known
    · rename_i p' released
      obtain ⟨-, other, there, rfl⟩ := release_eq_ok released
      exact absurd known (elsewhere there)
    · cases unknown.symm.trans known

/-- Reached from the empty pool. -/
def Made (p : Pool σ μ) : Prop := ∃ calls, p = empty.afterAll calls

theorem Made.afterAll (made : p.Made) (calls : List (Call σ μ)) : (p.afterAll calls).Made := by
  obtain ⟨earlier, rfl⟩ := made
  exact ⟨earlier ++ calls, List.foldl_append.symm⟩

/-- Calls that hand nothing out and take nothing back. -/
def Call.Prepares : Call σ μ → Prop
  | .register .. => True
  | .reserve .. => True
  | _ => False

/-- Nothing has been counted yet. -/
def Unused (p : Pool σ μ) : Prop := ∀ q b, p.bucket? q = some b → b.stats = ⟨0, 0, 0⟩

theorem empty_unused : (empty : Pool σ μ).Unused := by
  intro q b known
  simp [empty, bucket?] at known

theorem Unused.after (unused : p.Unused) {c : Call σ μ} (prepares : c.Prepares) :
    (p.after c).Unused := by
  intro q b later
  cases known : p.bucket? q with
  | none => exact (bucket?_after_unknown known later).2
  | some b' =>
    obtain rfl := Option.some.inj ((bucket?_after known c).symm.trans later)
    cases c with
    | register r state =>
      simp only [Bucket.after]
      split <;> exact unused q b' known
    | reserve r n bytes =>
      simp only [Bucket.after, Bucket.stock]
      split
      · split <;> exact unused q b' known
      · exact unused q b' known
    | borrow r => exact prepares.elim
    | release a => exact prepares.elim

theorem Stocked.after (stocked : p.Stocked) (c : Call σ μ) : (p.after c).Stocked := by
  rw [Pool.after]
  split
  · rename_i p' succeeded
    cases c with
    | register q state =>
      cases succeeded
      exact stocked.register q state
    | reserve q n bytes => exact stocked.reserve succeeded
    | borrow q =>
      simp only [attempt] at succeeded
      cases borrowed : p.borrow q with
      | error e =>
        rw [borrowed] at succeeded
        cases succeeded
      | ok loan =>
        rw [borrowed] at succeeded
        cases succeeded
        exact stocked.borrow borrowed
    | release a => exact stocked.release succeeded
  · exact stocked

/-- How many copies of the prototype of a population are added ahead of time. -/
def topUps (q : Population) : Pool σ μ → List (Call σ μ) → Nat
  | _, [] => 0
  | p, c :: rest => ((p.bucket? q).map (·.topUp q c)).getD 0 + topUps q (p.after c) rest

/-- What waits for a population that is not known, and what was counted for it, is nothing. -/
def tally (p : Pool σ μ) (q : Population) : Nat × Nat :=
  match p.bucket? q with
  | some b => (b.free.length + b.stats.recycled, b.stats.released)
  | none => (0, 0)

theorem tally_after (p : Pool σ μ) (q : Population) (c : Call σ μ) :
    ((p.after c).tally q).1 + (p.tally q).2 =
      (p.tally q).1 + ((p.bucket? q).map (·.topUp q c)).getD 0 + ((p.after c).tally q).2 := by
  cases known : p.bucket? q with
  | some b =>
    simp only [tally, known, bucket?_after known c, Option.map_some, Option.getD_some]
    exact b.after_balance q c
  | none =>
    simp only [tally, known]
    cases later : (p.after c).bucket? q with
    | none => rfl
    | some b =>
      obtain ⟨free, stats⟩ := bucket?_after_unknown known later
      simp [free, stats]

theorem tally_afterAll (p : Pool σ μ) (q : Population) (calls : List (Call σ μ)) :
    ((p.afterAll calls).tally q).1 + (p.tally q).2 =
      (p.tally q).1 + topUps q p calls + ((p.afterAll calls).tally q).2 := by
  induction calls generalizing p with
  | nil => rfl
  | cons c rest ih =>
    have first := p.tally_after q c
    have others := ih (p.after c)
    rw [afterAll, List.foldl_cons, ← afterAll, topUps]
    omega

/-- The books of a pool that was empty once. -/
theorem available_balance {calls : List (Call σ μ)}
    (known : (empty.afterAll calls).bucket? q = some b) :
    (empty.afterAll calls).available q + b.stats.recycled =
      topUps q empty calls + b.stats.released := by
  have books := empty.tally_afterAll q calls
  have blank : (empty : Pool σ μ).tally q = (0, 0) := by simp [tally, empty, bucket?]
  have tallied : (empty.afterAll calls).tally q =
      (b.free.length + b.stats.recycled, b.stats.released) := by rw [tally, known]
  rw [tallied, blank, Nat.zero_add] at books
  rw [available, known]
  exact books

theorem Stocked.afterAll (stocked : p.Stocked) (calls : List (Call σ μ)) :
    (p.afterAll calls).Stocked := by
  induction calls generalizing p with
  | nil => exact stocked
  | cons c rest ih => exact ih (stocked.after c)

/-! Many calls in a row. -/

/-- Inactive agents of known populations can be given back one after the other. -/
theorem releases_succeed {gone : List (Agent σ μ)} (inactive : ∀ a ∈ gone, a.active = false)
    (known : ∀ a ∈ gone, p.contains a.population = true) :
    gone.foldlM release p = .ok (p.afterAll (gone.map .release)) := by
  induction gone generalizing p with
  | nil => rfl
  | cons a rest ih =>
    rw [List.forall_mem_cons] at inactive known
    obtain ⟨p', released⟩ := release_of_contains inactive.1 known.1
    have next : p.after (.release a) = p' := by simp only [Pool.after, attempt, released]
    have still : ∀ x ∈ rest, p'.contains x.population = true := by
      intro x among
      rw [contains_congr (release_pattern? released)]
      exact known.2 x among
    rw [List.foldlM_cons, released, List.map_cons, afterAll, List.foldl_cons, ← afterAll, next]
    exact ih inactive.2 still

/-- The agents that are handed out for some populations, one after the other. -/
def loans (p : Pool σ μ) : List Population → List (Agent σ μ)
  | [] => []
  | q :: rest =>
    match p.borrow q with
    | .ok (a, p) => a :: p.loans rest
    | .error _ => p.loans rest

/-- Each population is served from its own bucket. -/
theorem Stocked.loans_filter (stocked : p.Stocked) (known : p.bucket? q = some b)
    (qs : List Population) :
    (p.loans qs).filter (·.population = q) = b.loans (qs.count q) := by
  induction qs generalizing p b with
  | nil => simp [loans, Bucket.loans]
  | cons r rest ih =>
    have later := stocked.after (.borrow r)
    have there := bucket?_after known (.borrow r)
    rw [loans, List.count_cons]
    by_cases own : r = q
    · subst own
      have borrowed : p.borrow r = .ok (b.lend.1, p.put r b.lend.2) := by rw [borrow_eq, known]
      have lent : b.after r (.borrow r) = b.lend.2 := if_pos rfl
      rw [after_borrow borrowed] at later there
      rw [lent] at there
      simp only [borrowed, beq_self_eq_true, if_true, Bucket.loans_succ]
      rw [List.filter_cons_of_pos (by simpa using (stocked _ _ known).lend), ih later there]
    · have same : b.after q (.borrow r) = b := if_neg own
      rw [same] at there
      simp only [beq_iff_eq, own, if_false, Nat.add_zero]
      cases other : p.bucket? r with
      | none =>
        simp only [borrow_eq, other]
        exact ih stocked known
      | some b' =>
        have borrowed : p.borrow r = .ok (b'.lend.1, p.put r b'.lend.2) := by rw [borrow_eq, other]
        rw [after_borrow borrowed] at later there
        simp only [borrowed]
        rw [List.filter_cons_of_neg, ih later there]
        rw [(stocked _ _ other).lend]
        simpa using own

end Pool
end Vivarium
