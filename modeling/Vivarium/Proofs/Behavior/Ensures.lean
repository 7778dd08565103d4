import Vivarium.Proofs.Behavior.Acts

/-! What acts ensure. An act is judged by all answers that it might get: it leaves alone what others
have put on the board, does not fail, and ends in a result that goes with the claims it has won. -/
namespace Vivarium

namespace Access

/-- The access may replace what another has put on the board. -/
def overwrites : Access → Bool
  | put _ _ => true
  | _ => false

/-- What the access has put on the board if it got this answer. -/
def won : (a : Access) → a.Answer → List (String × Value)
  | claim key value, true => [(key, value)]
  | _, _ => []

/-- Some answer that the access can get. -/
def Might (s : Space Float) (a : Access) (answer : a.Answer) : Prop := a.Gets s (fun _ => True) answer

variable {s : Space Float}

/-- A claim may be won or not. -/
theorem might_claim (key : String) (value : Value) (won : Bool) :
    (claim key value).Might s won := by
  cases won with
  | true => exact ⟨.empty, false, trivial, rfl⟩
  | false =>
    refine ⟨Board.empty.put key value, false, trivial, ?_⟩
    have taken : (Board.empty.put key value).contains key = true := by
      simp [Board.contains, Board.put]
    simp only [perform, Board.claim, taken, if_true]

theorem might_within {center : Point Float} {radius : Float} {ids : List AgentId} :
    (within center radius).Might s ids ↔ ids = (s.within center radius).1 := by
  refine ⟨gets_within, ?_⟩
  rintro rfl
  exact ⟨.empty, false, trivial, rfl⟩

end Access

namespace Turn
variable {α β : Type} {s : Space Float} {t : Turn α} {P Q : List (String × Value) → α → Prop}

/-- Whatever the answers, the turn overwrites nothing and ends in a result that goes with the claims it
has won. -/
def Ensures (s : Space Float) : Turn α → (List (String × Value) → α → Prop) → Prop
  | done x, Q => Q [] x
  | access a next, Q => a.overwrites = false ∧
    ∀ answer, a.Might s answer → (next answer).Ensures s fun won => Q (a.won answer ++ won)

theorem Ensures.mono (ensures : t.Ensures s P) (implies : ∀ won x, P won x → Q won x) :
    t.Ensures s Q := by
  induction t generalizing P Q with
  | done x => exact implies [] x ensures
  | access a next ih =>
    exact ⟨ensures.1, fun answer might =>
      ih answer (ensures.2 answer might) fun won x => implies (a.won answer ++ won) x⟩

theorem ensures_bind {f : α → Turn β} {Q : List (String × Value) → β → Prop} :
    (t >>= f).Ensures s Q ↔
      t.Ensures s fun won x => (f x).Ensures s fun more => Q (won ++ more) := by
  show (t.bind f).Ensures s Q ↔ _
  induction t generalizing Q with
  | done x => exact Iff.rfl
  | access a next ih =>
    refine and_congr_right fun _ => forall_congr' fun answer => imp_congr_right fun _ => ?_
    refine (ih answer).trans ?_
    simp only [List.append_assoc]

theorem run_bind (t : Turn α) (f : α → Turn β) (shared : Commons) :
    (t >>= f).run s shared = (f (t.run s shared).1).run s (t.run s shared).2 := by
  show (t.bind f).run s shared = _
  induction t generalizing shared with
  | done x => rfl
  | access a next ih => exact ih _ _

end Turn

namespace Board

/-- What stands on the first board stands on the second. -/
def Extends (b b' : Board) : Prop := ∀ key value, b.get? key = some value → b'.get? key = some value

/-- Claims that were won stand on the board. -/
def Holds (b : Board) (won : List (String × Value)) : Prop := ∀ x ∈ won, b.get? x.1 = some x.2

variable {b b' b'' : Board} {won : List (String × Value)}

theorem Extends.refl (b : Board) : b.Extends b := fun _ _ stands => stands

theorem Extends.trans (first : b.Extends b') (second : b'.Extends b'') : b.Extends b'' :=
  fun key value stands => second key value (first key value stands)

theorem Holds.extends (holds : b.Holds won) (extended : b.Extends b') : b'.Holds won :=
  fun x among => extended x.1 x.2 (holds x among)

theorem holds_append {more : List (String × Value)} :
    b.Holds (won ++ more) ↔ b.Holds won ∧ b.Holds more := List.forall_mem_append

/-- A claim never takes away what is there, and what it puts there if it is won stands. -/
theorem claim_extends (b : Board) (key : String) (value : Value) :
    b.Extends (b.claim key value).2 ∧
      ((b.claim key value).1 = true → (b.claim key value).2.Holds [(key, value)]) := by
  rw [claim]
  split
  · exact ⟨.refl b, fun won => absurd won Bool.false_ne_true⟩
  · rename_i vacant
    constructor
    · intro other standing stands
      have different : compare key other ≠ .eq := by
        intro same
        obtain rfl := Std.LawfulEqOrd.eq_of_compare same
        refine vacant ?_
        rw [contains, Std.TreeMap.contains_eq_isSome_getElem?]
        exact Option.isSome_of_eq_some stands
      show (b.values.insert key value)[other]? = some standing
      rw [Std.TreeMap.getElem?_insert, if_neg different]
      exact stands
    · rintro - x among
      obtain rfl := List.mem_singleton.mp among
      exact Std.TreeMap.getElem?_insert_self

end Board

/-- An access that overwrites nothing adds to what is on the board, and what it wins stands there. -/
theorem Access.perform_board {s : Space Float} {a : Access} (quiet : a.overwrites = false)
    (shared : Commons) :
    shared.board.Extends (a.perform s shared).2.board ∧
      (a.perform s shared).2.board.Holds (a.won (a.perform s shared).1) := by
  cases a with
  | put key value => cases quiet
  | claim key value =>
    obtain ⟨extended, stands⟩ := shared.board.claim_extends key value
    simp only [perform]
    cases won : (shared.board.claim key value).1 with
    | true => exact ⟨extended, stands won⟩
    | false => exact ⟨extended, List.forall_mem_nil _⟩
  | _ => exact ⟨.refl _, List.forall_mem_nil _⟩

namespace Turn.Ensures
variable {α : Type} {s : Space Float} {t : Turn α} {Q : List (String × Value) → α → Prop}
  {shared : Commons}

/-- The first access of a turn adds to what is on the board, and what it wins stands. -/
theorem advance (ensures : t.Ensures s Q) (views : s.Views shared.index) :
    ∃ won, (t.advance s shared).1.Ensures s (fun more => Q (won ++ more)) ∧
      shared.board.Extends (t.advance s shared).2.board ∧
      (t.advance s shared).2.board.Holds won := by
  cases t with
  | done x => exact ⟨[], ensures, .refl _, List.forall_mem_nil _⟩
  | access a next =>
    obtain ⟨taken, found⟩ := views
    obtain ⟨extended, stands⟩ := Access.perform_board ensures.1 shared
    exact ⟨_, ensures.2 _ (Access.perform_gets found trivial a), extended, stands⟩

/-- All accesses of a turn in a row. -/
theorem run (ensures : t.Ensures s Q) (views : s.Views shared.index) :
    ∃ won, Q won (t.run s shared).1 ∧ shared.board.Extends (t.run s shared).2.board ∧
      (t.run s shared).2.board.Holds won := by
  induction t generalizing shared Q with
  | done x => exact ⟨[], ensures, .refl _, List.forall_mem_nil _⟩
  | access a next ih =>
    obtain ⟨won, rest, extended, stands⟩ := advance ensures views
    obtain ⟨more, holds, later, stands'⟩ := ih _ rest (advance_views (.access a next) views)
    exact ⟨won ++ more, holds, extended.trans later,
      Board.holds_append.mpr ⟨stands.extends later, stands'⟩⟩

end Turn.Ensures

namespace Act
variable {σ μ η α β : Type} {act : Act σ μ η α} {d : Draft σ μ η} {s : Space Float}
  {P Q : List (String × Value) → α → Draft σ μ η → Prop}

/-- An act goes on where another has ended, unless that has failed. -/
theorem run_bind (act : Act σ μ η α) (f : α → Act σ μ η β) (d : Draft σ μ η) :
    (act >>= f).run.run d = act.run.run d >>= fun x =>
      match x.1 with
      | .ok a => (f a).run.run x.2
      | .error e => .done (.error e, x.2) := by
  refine congrArg (act.run.run d >>= ·) (funext fun x => ?_)
  obtain ⟨e | a, d'⟩ := x
  · rfl
  · rfl

theorem run_of_ok {f : α → Act σ μ η β} {a : α} {d' : Draft σ μ η} {shared shared' : Commons}
    (first : (act.run.run d).run s shared = ((.ok a, d'), shared')) :
    ((act >>= f).run.run d).run s shared = ((f a).run.run d').run s shared' := by
  rw [run_bind, Turn.run_bind, first]

/-- A query by distance that is run changes nothing but the picture. -/
theorem run_visibleNeighbours {c : Context} {id : AgentId} {radius : Float} {shared : Commons}
    (views : c.space.Views shared.index) :
    ∃ index, ((visibleNeighbours c id radius : Act σ μ η (List (Entry Float))).run.run d).run c.space
        shared = ((.ok (c.space.visibleNeighbours id radius).1, d), ⟨shared.board, index⟩) := by
  simp only [visibleNeighbours, neighboursOf, Space.visibleNeighbours, Space.neighboursOf]
  rcases c.space.entry? id with - | me
  · exact ⟨shared.index, rfl⟩
  · obtain ⟨taken, found⟩ := views
    have answer : (Access.within me.projection.position radius).Gets c.space (fun _ => True) _ :=
      Access.perform_gets found trivial _
    refine ⟨((Access.within me.projection.position radius).perform c.space shared).2.index, ?_⟩
    dsimp only
    rw [← Access.gets_within answer]
    rfl

theorem run_state_bind {f : σ → Act σ μ η α} :
    (state >>= f).run.run d = (f d.body.state).run.run d := rfl

/-- Whatever the answers, the act overwrites nothing and ends, without failing, in a result and a draft
that go with the claims it has won. -/
def Ensures (act : Act σ μ η α) (s : Space Float) (d : Draft σ μ η)
    (Q : List (String × Value) → α → Draft σ μ η → Prop) : Prop :=
  (act.run.run d).Ensures s fun won x => ∃ a, x.1 = .ok a ∧ Q won a x.2

theorem Ensures.mono (ensures : act.Ensures s d P) (implies : ∀ won a d, P won a d → Q won a d) :
    act.Ensures s d Q :=
  Turn.Ensures.mono ensures fun won x ⟨a, succeeds, holds⟩ => ⟨a, succeeds, implies won a x.2 holds⟩

@[simp] theorem ensures_pure {a : α} : (pure a : Act σ μ η α).Ensures s d Q ↔ Q [] a d :=
  ⟨fun ⟨_, succeeds, holds⟩ => Except.ok.inj succeeds ▸ holds, fun holds => ⟨a, rfl, holds⟩⟩

@[simp] theorem ensures_bind {f : α → Act σ μ η β}
    {Q : List (String × Value) → β → Draft σ μ η → Prop} :
    (act >>= f).Ensures s d Q ↔
      act.Ensures s d fun won a d => (f a).Ensures s d fun more => Q (won ++ more) := by
  rw [Ensures, run_bind, Turn.ensures_bind]
  constructor
  · intro ensures
    refine Turn.Ensures.mono ensures fun won x rest => ?_
    obtain ⟨e | a, d'⟩ := x
    · obtain ⟨b, ⟨⟩, -⟩ := rest
    · exact ⟨a, rfl, rest⟩
  · intro ensures
    refine Turn.Ensures.mono ensures fun won x rest => ?_
    obtain ⟨e | a, d'⟩ := x
    · obtain ⟨a, ⟨⟩, -⟩ := rest
    · obtain ⟨_, ⟨⟩, rest⟩ := rest
      exact rest

/-- Both ways of a choice. -/
@[simp] theorem ensures_ite {c : Prop} [Decidable c] {act' : Act σ μ η α} :
    (if c then act else act').Ensures s d Q ↔
      (c → act.Ensures s d Q) ∧ (¬c → act'.Ensures s d Q) := by
  split
  · rename_i holds
    simp [holds]
  · rename_i fails
    simp [fails]

/-! The acts there are, but for those that put something on the board or may fail. -/

section
variable {Q : List (String × Value) → Unit → Draft σ μ η → Prop}

@[simp] theorem ensures_state {Q : List (String × Value) → σ → Draft σ μ η → Prop} :
    (state : Act σ μ η σ).Ensures s d Q ↔ Q [] d.body.state d := ensures_pure

@[simp] theorem ensures_setState {x : σ} : (setState x : Act σ μ η Unit).Ensures s d Q ↔
    Q [] () { d with body := { d.body with state := x } } := ensures_pure

@[simp] theorem ensures_setMotion {m : Motion Float} :
    (setMotion m : Act σ μ η Unit).Ensures s d Q ↔
      Q [] () { d with body := { d.body with motion := m } } := ensures_pure

@[simp] theorem ensures_draw {f : Stream → α × Stream}
    {Q : List (String × Value) → α → Draft σ μ η → Prop} :
    (draw f : Act σ μ η α).Ensures s d Q ↔
      Q [] (f d.body.rng).1 { d with body := { d.body with rng := (f d.body.rng).2 } } :=
  ensures_pure

@[simp] theorem ensures_request {f : Commands σ μ η → Commands σ μ η} :
    (request f : Act σ μ η Unit).Ensures s d Q ↔
      Q [] () { d with commands := f d.commands } := ensures_pure

@[simp] theorem ensures_claim {key : String} {value : Value}
    {Q : List (String × Value) → Bool → Draft σ μ η → Prop} :
    (claim key value : Act σ μ η Bool).Ensures s d Q ↔
      Q [(key, value)] true d ∧ Q [] false d := by
  constructor
  · rintro ⟨-, all⟩
    exact ⟨ensures_pure.mp (all true (Access.might_claim key value true)),
      ensures_pure.mp (all false (Access.might_claim key value false))⟩
  · rintro ⟨won, lost⟩
    refine ⟨rfl, ?_⟩
    rintro (_ | _) -
    · exact ensures_pure.mpr lost
    · exact ensures_pure.mpr won

@[simp] theorem ensures_within {center : Point Float} {radius : Float}
    {Q : List (String × Value) → List AgentId → Draft σ μ η → Prop} :
    (within center radius : Act σ μ η (List AgentId)).Ensures s d Q ↔
      Q [] (s.within center radius).1 d := by
  constructor
  · rintro ⟨-, all⟩
    exact ensures_pure.mp (all _ (Access.might_within.mpr rfl))
  · intro holds
    refine ⟨rfl, fun ids might => ?_⟩
    obtain rfl := Access.might_within.mp might
    exact ensures_pure.mpr holds

@[simp] theorem ensures_visibleNeighbours {c : Context} {id : AgentId} {radius : Float}
    {Q : List (String × Value) → List (Entry Float) → Draft σ μ η → Prop} :
    (visibleNeighbours c id radius : Act σ μ η (List (Entry Float))).Ensures c.space d Q ↔
      Q [] (c.space.visibleNeighbours id radius).1 d := by
  simp only [visibleNeighbours, neighboursOf, Space.visibleNeighbours, Space.neighboursOf]
  rcases c.space.entry? id with - | me
  · exact ensures_pure
  · simp

end

end Act
end Vivarium
