import Vivarium.Proofs.Behavior.Discreet

/-! Behaviours whose acts only append to the requests and read neither these nor the chunk size. They may
read whatever else there is, also the board and the state of the picture of positions; so it shows who
acts before whom, but as long as agents act in their order it does not show how they are cut into
chunks. -/
namespace Vivarium.Behavior
variable {σ μ η : Type}

/-- Every act only appends to the requests and reads neither these nor the chunk size. -/
def Heedless (b : Behavior σ μ η) : Prop :=
  ∀ (c : Context) a shared, ∃ result body asked shared', ∀ chunkSize buffer,
    (b.turn (c.rechunked chunkSize) a buffer).run c.space shared =
      ((result, ⟨body, buffer ++ asked⟩), shared')

/-- What turns come to, with their requests behind those in a buffer. -/
def behind {α : Type} (buffer : Commands σ μ η)
    (x : Except BehaviorError (Commands σ μ η) × α) : Except BehaviorError (Commands σ μ η) × α :=
  (x.1.map (buffer ++ ·), x.2)

variable {b : Behavior σ μ η} {c : Context}

theorem performAll_append (xs ys : List (Agent σ μ)) (buffer : Commands σ μ η) (shared : Commons) :
    b.performAll c (xs ++ ys) buffer shared =
      match b.performAll c xs buffer shared with
      | (.error e, xs, shared) => (.error e, xs ++ ys, shared)
      | (.ok buffer, xs, shared) =>
        let (result, ys, shared) := b.performAll c ys buffer shared
        (result, xs ++ ys, shared) := by
  induction xs generalizing buffer shared with
  | nil => rfl
  | cons x xs ih =>
    simp only [List.cons_append, performAll]
    rcases b.perform c x buffer shared with ⟨_ | first, x', middle⟩
    · rfl
    · dsimp only
      rw [ih]
      rcases b.performAll c xs first middle with ⟨_ | second, xs', last⟩
      · rfl
      · rfl

namespace Heedless

theorem perform_rechunked (heedless : b.Heedless) (chunkSize : UInt64) (a : Agent σ μ)
    (buffer : Commands σ μ η) (shared : Commons) :
    b.perform (c.rechunked chunkSize) a buffer shared = b.perform c a buffer shared := by
  obtain ⟨result, body, asked, shared', same⟩ := heedless c a shared
  have own : (b.turn c a buffer).run c.space shared = _ := same c.config.chunkSize buffer
  have other : (b.turn (c.rechunked chunkSize) a buffer).run (c.rechunked chunkSize).space shared = _ :=
    same chunkSize buffer
  simp only [perform, own, other]

theorem performAll_rechunked (heedless : b.Heedless) (chunkSize : UInt64)
    (agents : List (Agent σ μ)) (buffer : Commands σ μ η) (shared : Commons) :
    b.performAll (c.rechunked chunkSize) agents buffer shared =
      b.performAll c agents buffer shared := by
  induction agents generalizing buffer shared with
  | nil => rfl
  | cons a rest ih => simp only [performAll, heedless.perform_rechunked, ih]

/-- What an act asks for goes behind what was asked for before. -/
theorem perform_behind (heedless : b.Heedless) (a : Agent σ μ) (buffer : Commands σ μ η)
    (shared : Commons) : b.perform c a buffer shared = behind buffer (b.perform c a .empty shared) := by
  obtain ⟨result, body, asked, shared', same⟩ := heedless c a shared
  have alone : (b.turn c a .empty).run c.space shared = _ := same c.config.chunkSize .empty
  have own : (b.turn c a buffer).run c.space shared = _ := same c.config.chunkSize buffer
  simp only [perform, alone, own, behind, Commands.empty_append]
  cases result with
  | error cause => rfl
  | ok _ => rfl

theorem performAll_behind (heedless : b.Heedless) (agents : List (Agent σ μ))
    (buffer : Commands σ μ η) (shared : Commons) :
    b.performAll c agents buffer shared = behind buffer (b.performAll c agents .empty shared) := by
  induction agents generalizing buffer shared with
  | nil => simp [performAll, behind, Except.map]
  | cons a rest ih =>
    simp only [performAll, heedless.perform_behind a buffer shared]
    rcases b.perform c a .empty shared with ⟨cause | asked, a', middle⟩
    · rfl
    · simp only [behind, Except.map]
      rw [ih (buffer ++ asked) middle, ih asked middle]
      rcases b.performAll c rest .empty middle with ⟨cause | more, rest', last⟩
      · rfl
      · simp only [behind, Except.map, Commands.append_assoc]

/-- However the agents are cut into chunks, they come to what all of them come to on one buffer. -/
theorem performChunks_eq (heedless : b.Heedless) (chunks : List (List (Agent σ μ)))
    (shared : Commons) :
    b.performChunks c chunks shared = b.performAll c chunks.flatten .empty shared := by
  induction chunks generalizing shared with
  | nil => rfl
  | cons chunk rest ih =>
    rw [List.flatten_cons, performAll_append]
    simp only [performChunks]
    rcases b.performAll c chunk .empty shared with ⟨cause | asked, chunk', middle⟩
    · rfl
    · dsimp only
      rw [ih, heedless.performAll_behind rest.flatten asked middle]
      rfl

end Heedless
end Vivarium.Behavior
