import ReplyTree.Indentation
import ReplyTree.Value.Access

/- Listings of a tree: the order in which nodes are shown, and the levels to open and close
   between them. A listing is made line by line and keeps the lines before a fault. -/
namespace ReplyTree

/-- Oldest siblings first, or newest first. Among positions with the same two marks a node
    comes before everything below it either way. What sorts alike stays in the order
    given. -/
def arrange (newestFirst : Bool) (ps : List Position) : List Position :=
  if newestFirst then ps.mergeSort fun p q => !decide (p.letters < q.letters)
  else ps.mergeSort fun p q => !decide (q.body < p.body)

def arrangeValues (bound : Decimal.Bound) (newestFirst : Bool) (choice : LayoutChoice)
    (items : List Value) : Outcome (List Position) := do
  let ps ← Position.ofValues bound choice items
  return arrange newestFirst ps

structure Line where
  position : Position
  depth : Nat
  shown : Nat
  indent : Int
  deriving DecidableEq, Repr

def Line.value (line : Line) : Value :=
  .line (.position line.position) (.ofNat line.depth) (.ofNat line.shown) (.whole line.indent)

structure Listing where
  lines : List Line
  fault? : Option Fault
  log : List Record

namespace Listing

def stopped (fault : Fault) (log : List Record) : Listing := ⟨[], some fault, log⟩

def after (line : Line) (log : List Record) (rest : Listing) : Listing :=
  ⟨line :: rest.lines, rest.fault?, log ++ rest.log⟩

def outline (bound : Decimal.Bound) (limit : Value) (choice : LayoutChoice) (current : Nat) :
    List Value → Listing
  | [] => ⟨[], none, []⟩
  | v :: rest =>
    let seen := Position.ofValue bound v choice
    match seen.result with
    | .error fault => stopped fault seen.log
    | .ok p =>
      match levelUnder limit p.depth with
      | .error fault => stopped fault seen.log
      | .ok shown =>
        after ⟨p, p.depth, shown, (shown : Int) - current⟩ seen.log
          (outline bound limit choice shown rest)

def ofValues (bound : Decimal.Bound) (limit : Value) (choice : LayoutChoice)
    (items : List Value) : Listing :=
  outline bound limit choice 0 items

/-- The listing of whatever yields the nodes. Nothing is looked at before the first line. -/
def ofValue (bound : Decimal.Bound) (limit : Value) (choice : LayoutChoice) (nodes : Value) :
    Listing :=
  match nodes.asItems with
  | .ok items => ofValues bound limit choice items
  | .error fault => stopped fault []

def openLevels (lines : List Line) : Nat :=
  match lines.getLast? with
  | none => 0
  | some line => line.shown

end Listing

def openLevelsOf (lines : Value) : Except Fault Value :=
  if lines.truth then
    match lines with
    | .list items | .tuple items =>
      match items.getLast? with
      | some (.line _ _ shown _) => .ok shown
      | _ => .error .noAttribute
    | .text _ | .bytes _ => .error .noAttribute
    | .record _ => .error .noEntry
    | _ => .error .typeMismatch
  else .ok (.ofNat 0)

end ReplyTree
