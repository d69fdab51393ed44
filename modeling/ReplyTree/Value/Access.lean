import ReplyTree.Outcome

/- What callers can ask for: the names under which the library is offered, and what a value has,
   with the fault if its kind does not have it. -/
namespace ReplyTree

def version : String := "0.1.0"

def publicNames : List String :=
  ["ThreadKey", "KeyAllocator", "allocate", "next_ordinal", "DepthLimiter", "display_depth",
    "ThreadEntry", "thread_order", "iter_thread", "final_indent", "ThreadSettings",
    "DEFAULT_MAX_DEPTH", "DEFAULT_SEGMENT_WIDTH", "ThreadKeyError", "SegmentOverflowError",
    "MalformedKeyError", "InvalidOrdinalError"]

namespace Value

def asItems (v : Value) : Except Fault (List Value) :=
  match v.items? with
  | some items => .ok items
  | none => .error .typeMismatch

def asPosition : Value → Except Fault Position
  | .position p => .ok p
  | _ => .error .noAttribute

def asLayout : Value → Except Fault Layout
  | .layout l => .ok l
  | _ => .error .noAttribute

def asIssuer : Value → Except Fault Layout
  | .issuer _ l => .ok l
  | _ => .error .noAttribute

def asLimit (v : Value) : Except Fault Nat :=
  match v.limit? with
  | some limit => .ok limit
  | none => .error .noAttribute

/-- A ceiling that can be asked for levels. A line has a level of its own in that place,
    which answers no questions. -/
def asCeiling : Value → Except Fault Ceiling
  | .ceiling _ c => .ok c
  | .line .. => .error .typeMismatch
  | _ => .error .noAttribute

def assignmentFault : Value → Fault
  | .layout _ | .line .. => .frozen
  | _ => .noAttribute

def asMovable : Value → Except Fault (Nat × Ceiling)
  | .ceiling tag c => .ok (tag, c)
  | v => .error v.assignmentFault

def asDirection : Value → Except Fault Bool
  | .flag b => .ok b
  | .whole n => .ok (n != 0)
  | _ => .error .typeMismatch

/-- A number that is to be written down, or why it cannot be. -/
def ofCount (bound : Decimal.Bound) (n : Nat) : Except Fault Value :=
  match bound.surpassed? n with
  | none => .ok (.ofNat n)
  | some most => .error (.unwritableNumber most)

end Value

def LayoutChoice.asLayout (choice : LayoutChoice) : Except Fault Layout :=
  match choice.layout? with
  | some l => .ok l
  | none => .error .noAttribute

end ReplyTree
