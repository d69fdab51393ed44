import ReplyTree.Position.Acceptance

/- How deep a node is shown. Below the limit a node is shown at its own depth and from the
   limit on at the limit, so that long chains stop moving to the right. -/
namespace ReplyTree

def levelUnder (limit : Value) (depth : Nat) : Except Fault Nat :=
  match limit.natural? with
  | none => .error (.badSetting .limit limit)
  | some most => .ok (min depth most)

def depthOf (bound : Decimal.Bound) (node : Value) (choice : LayoutChoice) : Outcome Nat :=
  match node with
  | .position _ | .text _ => do
    return (← Position.ofValue bound node choice).depth
  | _ =>
    match node.natural? with
    | none => Outcome.fail (.badDepth node)
    | some depth => pure depth

/-- The level at which a node is shown. The node is examined before the limit. -/
def shownLevel (bound : Decimal.Bound) (node limit : Value) (choice : LayoutChoice) :
    Outcome Nat := do
  let depth ← depthOf bound node choice
  Outcome.ofExcept (levelUnder limit depth)

namespace Ceiling

/-- A ceiling at the given limit or, without one, at the limit of whatever stands for its
    layout. -/
def accept (limit settings : Value) : Except Fault Ceiling :=
  let layout? := (LayoutChoice.ofValue settings).layout?
  match limit with
  | .nothing =>
    match layout?, settings.limit? with
    | some l, _ => .ok ⟨l.limit, layout?⟩
    | none, some most => .ok ⟨most, layout?⟩
    | none, none => .error .noAttribute
  | _ =>
    match limit.natural? with
    | none => .error (.badSetting .limit limit)
    | some most => .ok ⟨most, layout?⟩

def move (c : Ceiling) (limit : Value) : Except Fault Ceiling :=
  match limit.natural? with
  | none => .error (.badSetting .limit limit)
  | some most => .ok ⟨most, c.layout?⟩

def shownLevel (bound : Decimal.Bound) (c : Ceiling) (node : Value) : Outcome Nat :=
  ReplyTree.shownLevel bound node (.ofNat c.limit) c.choice

end Ceiling

end ReplyTree
