import Vivarium.Behavior.Board
import Vivarium.Space.Basic

/-!
What an agent does in its turn with the things that it shares with the others, one access after the
other: it uses the board, and it makes queries by distance, the first of which takes a new picture of
positions if the one there is is outdated. A turn is a tree of accesses with the answers they wait
for, so the turns of several agents can be run one after the other, as `Turn.run` does, or with their
accesses in any other order.
-/
namespace Vivarium

/-- What the agents of a step share and change: the board, and the picture of the positions, which do
not change before all have acted. -/
structure Commons where
  board : Board
  index : SpatialIndex Float

inductive Access where
  | put (key : String) (value : Value)
  | claim (key : String) (value : Value)
  | look (key : String)
  | count
  | within (center : Point Float) (radius : Float)
  | nearest (center : Point Float) (limit : Nat)
  /-- Whether the picture is outdated. -/
  | outdated
  /-- How many pictures have been taken. -/
  | rebuilds

namespace Access

abbrev Answer : Access → Type
  | put _ _ => Unit
  | claim _ _ => Bool
  | look _ => Option Value
  | count => Nat
  | within _ _ => List AgentId
  | nearest _ _ => Option (List AgentId)
  | outdated => Bool
  | rebuilds => Nat

/-- An access in a space, with its answer and what it leaves. -/
def perform (s : Space Float) : (a : Access) → Commons → a.Answer × Commons
  | put key value, x => ((), { x with board := x.board.put key value })
  | claim key value, x =>
    let (won, board) := x.board.claim key value
    (won, { x with board })
  | look key, x => (x.board.get? key, x)
  | count, x => (x.board.size, x)
  | within center radius, x =>
    let (ids, s) := (s.pictured x.index).within center radius
    (ids, { x with index := s.index })
  | nearest center limit, x =>
    let (ids, s) := (s.pictured x.index).nearest? center limit
    (ids, { x with index := s.index })
  | outdated, x => (x.index.outdated, x)
  | rebuilds, x => (x.index.rebuilds, x)

end Access

inductive Turn (α : Type) where
  | done (result : α)
  | access (a : Access) (next : a.Answer → Turn α)

namespace Turn
variable {α β : Type}

protected def bind : Turn α → (α → Turn β) → Turn β
  | done x, f => f x
  | access a next, f => access a fun answer => (next answer).bind f

instance : Monad Turn where
  pure := done
  bind := Turn.bind

/-- The first access of a turn: what remains of the turn, and what it leaves. -/
def advance (s : Space Float) : Turn α → Commons → Turn α × Commons
  | done result, x => (done result, x)
  | access a next, x =>
    let (answer, x) := a.perform s x
    (next answer, x)

/-- All accesses in a row. -/
def run (s : Space Float) : Turn α → Commons → α × Commons
  | done result, x => (result, x)
  | access a next, x => (next (a.perform s x).1).run s (a.perform s x).2

end Turn
end Vivarium
