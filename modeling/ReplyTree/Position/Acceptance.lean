import ReplyTree.Outcome

/- Positions from values: built from ordinals, read from text, or taken as they are. Only a
   refusal to read leaves a record. What reads takes the bound on numerals. -/
namespace ReplyTree

namespace Layout

/-- The ordinals that a list of values gives, or the fault of the leftmost bad one: too large
    a number is an overflow at its depth, anything else spoils the whole list. -/
def checkOrdinals (l : Layout) (all : List Value) : Nat → List Value →
    Except Fault {ns : List Nat // ∀ n ∈ ns, n < l.capacity}
  | _, [] => .ok ⟨[], l.nil_fits⟩
  | depth, v :: rest =>
    match v.natural? with
    | none => .error (.malformed (.tuple all) (.badOrdinal v))
    | some n =>
      if fits : n < l.capacity then
        match l.checkOrdinals all (depth + 1) rest with
        | .error fault => .error fault
        | .ok ns => .ok ⟨n :: ns.val, by
            intro m hm
            rcases List.mem_cons.mp hm with rfl | hm
            · exact fits
            · exact ns.property m hm⟩
      else .error (.overflow n l.width depth)

def build (l : Layout) (items : List Value) : Except Fault Position :=
  match l.checkOrdinals items 0 items with
  | .error fault => .error fault
  | .ok ns =>
    if nonempty : ns.val ≠ [] then .ok ⟨l, ns.val, nonempty, ns.property⟩
    else .error (.malformed (.tuple items) .noOrdinals)

end Layout

namespace Position

/-- Builds a position under a chosen layout. A choice that is no layout is a fault only when
    the first ordinal has to be measured against it. -/
def build (items : List Value) (choice : LayoutChoice) : Except Fault Position :=
  match choice.layout?, items with
  | some l, _ => l.build items
  | none, [] => .error (.malformed (.tuple []) .noOrdinals)
  | none, v :: _ =>
    match v.natural? with
    | none => .error (.malformed (.tuple items) (.badOrdinal v))
    | some _ => .error .noAttribute

def refuse {α : Type} (v : Value) (why : Reason) : Outcome α :=
  ⟨.error (.malformed v why), [.rejected v why]⟩

def readIn (bound : Decimal.Bound) (l : Layout) (v : Value) : Outcome l.Path :=
  match v with
  | .text s =>
    match l.readLetters bound s.toList with
    | .ok path => pure path
    | .error (.malformed why) => refuse v (.unreadable why)
    | .error (.tooLong digits most) => Outcome.fail (.unreadableNumber digits most)
  | _ => refuse v (.notText v.kind)

/-- Reads a position under a chosen layout. What is no text is refused without looking at
    the choice. -/
def read (bound : Decimal.Bound) (v : Value) (choice : LayoutChoice) : Outcome Position :=
  match choice.layout?, v with
  | some l, _ => do return ofPath l (← readIn bound l v)
  | none, .text _ => Outcome.fail .noAttribute
  | none, _ => refuse v (.notText v.kind)

def receive (bound : Decimal.Bound) (l : Layout) (v : Value) :
    Outcome {p : Position // p.layout.width = l.width} :=
  match v with
  | .position p =>
    if same : p.layout.width = l.width then pure ⟨p, same⟩
    else Outcome.fail (.malformed v (.otherWidth p.layout.width l.width))
  | _ => do return ⟨ofPath l (← readIn bound l v), rfl⟩

/-- Takes a position as it is, if it has the width of a layout given by name, and reads
    anything else. -/
def ofValue (bound : Decimal.Bound) (v : Value) (choice : LayoutChoice) : Outcome Position :=
  match v, choice with
  | .position p, .unset => pure p
  | .position _, .named l => do return (← receive bound l v).val
  | .position _, _ => Outcome.fail .noAttribute
  | _, _ => read bound v choice

def ofValues (bound : Decimal.Bound) (choice : LayoutChoice) :
    List Value → Outcome (List Position)
  | [] => pure []
  | v :: rest => do
    let p ← ofValue bound v choice
    let ps ← ofValues bound choice rest
    return p :: ps

end Position

end ReplyTree
