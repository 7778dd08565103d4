import Vivarium.Datum.Number
import Vivarium.Datum.Record
import Vivarium.Script.Basic

/-!
Scripts as data. An action is a record with its kind in the field `a`, and a program is a list of
lists of actions. A field that is missing counts as zero, empty or absent; what is no action is read
as a complaint about it.
-/
namespace Vivarium.Script

/-- How deep data is nested; reading never goes deeper. -/
def depth : Datum → Nat
  | .list items => depthOfItems items + 1
  | .fields items => depthOfFields items + 1
  | _ => 0
where
  depthOfItems : List Datum → Nat
    | [] => 0
    | d :: rest => max (depth d) (depthOfItems rest)
  depthOfFields : List (String × Datum) → Nat
    | [] => 0
    | (_, d) :: rest => max (depth d) (depthOfFields rest)

def number (d : Datum) (name : String) : Float := ((d.get name).float?).getD 0.0

def whole (d : Datum) (name : String) : Int := ((d.get name).int?).getD 0

def words (d : Datum) (name : String) : String := ((d.get name).text?).getD ""

def idOf (d : Datum) : AgentId := ⟨.ofNat (d.nat?.getD 0)⟩

def optionalId (d : Datum) (name : String) : Option AgentId :=
  if (d.get name).isNull then none else some (idOf (d.get name))

/-- A motion given by both of its fields. -/
def motionOf? (make : Float → Float → Motion Float) (d : Datum) : Option (Motion Float) := do
  return make (← (d.get "rotation").float?) (← (d.get "translation").float?)

def projectionOf (d : Datum) : Projection Float :=
  ⟨⟨number d "x", number d "y"⟩, number d "orientation", ((d.get "collided").bool?).getD false⟩

def audienceOf (d : Datum) : Audience :=
  match d.get "to" with
  | .text "others" => .others
  | .text "near" => .near (number d "radius")
  | .text "visible" => .visible (number d "radius")
  | .text "self" => .self
  | ids => .listed (ids.items.map idOf)

def bequestOf? (d : Datum) : Option Bequest :=
  match d.get "heritage" with
  | .text "value" => some .value
  | h => h.int?.map .number

/-- How a newborn is brought up, with actions read by `action`. -/
def upbringingOf? (action : Datum → Action) (d : Datum) : Option (Upbringing Action) :=
  if d.isNull then none
  else some {
    add := (d.get "add").int?
    program := if (d.get "program").isNull then none
      else some ((d.get "program").items.map fun row => row.items.map action)
    motion := motionOf? Motion.of d }

def actionWithin : Nat → Datum → Action
  | 0, _ => .misconfigure "no action"
  | n + 1, d =>
    let inner := actionWithin n
    match words d "a" with
    | "motion" => .move (number d "rotation") (number d "translation")
    | "motion_raw" => .moveRaw ⟨number d "rotation", number d "translation"⟩
    | "stop" => .stop
    | "toward" => .toward (number d "heading") (number d "translation")
    | "wander" => .wander (number d "turn") (number d "dist")
    | "draw" => .draw
    | "spawn" => .spawn {
        population := (d.get "population").text?
        place := if (d.get "x").isNull then none else some (projectionOf d)
        bequest := bequestOf? d
        upbringing := upbringingOf? inner (d.get "init") }
    | "remove" => .remove (optionalId d "id")
    | "send" => .send (audienceOf d) (d.get "content").int?
    | "event" => .report (words d "source") (words d "message")
    | "publish" => .publish (words d "key") (whole d "value")
    | "claim" => .claim (words d "key")
    | "read" => .read (words d "key")
    | "add" => .add (whole d "n")
    | "sum_inbox" => .sumInbox
    | "sense" => .sense (number d "radius")
    | "world" => .world
    | "when" => .whenStep (whole d "step").toNat ((d.get "do").items.map inner)
    | "if_value" => .ifValue (whole d "min") ((d.get "do").items.map inner)
    | "fail" => .fail (words d "reason")
    | "misconfig" => .misconfigure (words d "reason")
    | other => .misconfigure ("no action " ++ Text.quoted other)

def actionOf (d : Datum) : Action := actionWithin (depth d) d

def programOf (d : Datum) : Program := d.items.map fun row => row.items.map actionOf

/-- A request for a scripted agent. -/
def additionOf (d : Datum) : Addition State Int Int where
  population := words d "population"
  projection := projectionOf d
  heritage := (d.get "heritage").int?
  init := (upbringingOf? actionOf (d.get "init")).map fun u => u.apply

end Vivarium.Script
