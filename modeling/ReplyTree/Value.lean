import ReplyTree.Position

/- What a caller may hand in. Arguments are checked, not assumed: every operation says what it
   does with a value of any of these kinds. Things that are told apart only by having been made
   separately carry a tag. Left out are numbers of a kind that callers make themselves, which may
   answer as they like, and texts with code points that are no characters. -/
namespace ReplyTree

/-- A `decimal` is kept as its shortest numeral, and `undefined` is the number that differs
    from every number. The entries of a `line` are those of a listing, unchecked. -/
inductive Value where
  | nothing
  | flag (b : Bool)
  | whole (n : Int)
  | decimal (numeral : String)
  | undefined (tag : Nat)
  | text (s : String)
  | bytes (bs : List UInt8)
  | list (items : List Value)
  | tuple (items : List Value)
  | record (fields : List (String × Value))
  | layout (l : Layout)
  | position (p : Position)
  | line (who depth shown indent : Value)
  | issuer (tag : Nat) (l : Layout)
  | ceiling (tag : Nat) (c : Ceiling)

namespace Value

def ofNat (n : Nat) : Value := .whole n

/-- The number a value stands for where a count or an ordinal is asked for. Flags are not
    numbers here. -/
def natural? : Value → Option Nat
  | .whole (.ofNat n) => some n
  | _ => none

def truth : Value → Bool
  | .nothing => false
  | .flag b => b
  | .whole n => n != 0
  | .decimal numeral => !(numeral == "0.0" || numeral == "-0.0")
  | .text s => !s.isEmpty
  | .bytes bs => !bs.isEmpty
  | .list items | .tuple items => !items.isEmpty
  | .record fields => !fields.isEmpty
  | _ => true

def items? : Value → Option (List Value)
  | .list items | .tuple items => some items
  | .text s => some (s.toList.map fun c => .text (String.singleton c))
  | .bytes bs => some (bs.map fun byte => .whole byte.toNat)
  | .record fields => some (fields.map fun field => .text field.1)
  | _ => none

def limit? : Value → Option Nat
  | .layout l => some l.limit
  | .ceiling _ c => some c.limit
  | _ => none

mutual

/-- Whether a value can be told from others by hashing. Lists and records cannot, nor what
    holds one. -/
def hashable : Value → Bool
  | .list _ | .record _ => false
  | .tuple items => hashableAll items
  | .line who depth shown indent =>
    hashable who && hashable depth && hashable shown && hashable indent
  | _ => true

def hashableAll : List Value → Bool
  | [] => true
  | v :: rest => hashable v && hashableAll rest

end

mutual

def withCeiling (tag : Nat) (c : Ceiling) : Value → Value
  | .ceiling other held => .ceiling other (if other = tag then c else held)
  | .list items => .list (withCeilingAll tag c items)
  | .tuple items => .tuple (withCeilingAll tag c items)
  | .record fields => .record (withCeilingFields tag c fields)
  | .line who depth shown indent =>
    .line (withCeiling tag c who) (withCeiling tag c depth) (withCeiling tag c shown)
      (withCeiling tag c indent)
  | v => v

def withCeilingAll (tag : Nat) (c : Ceiling) : List Value → List Value
  | [] => []
  | v :: rest => withCeiling tag c v :: withCeilingAll tag c rest

def withCeilingFields (tag : Nat) (c : Ceiling) : List (String × Value) → List (String × Value)
  | [] => []
  | (name, v) :: rest => (name, withCeiling tag c v) :: withCeilingFields tag c rest

end

theorem natural_eq_some {v : Value} {n : Nat} : v.natural? = some n ↔ v = .whole n := by
  constructor
  · intro h
    unfold natural? at h
    split at h <;> simp_all
  · rintro rfl
    rfl

@[simp] theorem natural_ofNat (n : Nat) : (ofNat n).natural? = some n := rfl

theorem natural_eq_none {v : Value} : v.natural? = none ↔ ∀ n : Nat, v ≠ .ofNat n := by
  simp only [Option.eq_none_iff_forall_ne_some, ne_eq, natural_eq_some, ofNat]

end Value

/-- What was given where a layout may be given: nothing at all, some other value that counts
    as false, a layout, or a value that is none. -/
inductive LayoutChoice where
  | unset
  | blank
  | named (l : Layout)
  | foreign
  deriving DecidableEq, Repr

namespace LayoutChoice

def ofValue : Value → LayoutChoice
  | .nothing => .unset
  | .layout l => .named l
  | v => if v.truth then .foreign else .blank

def layout? : LayoutChoice → Option Layout
  | .unset | .blank => some .standard
  | .named l => some l
  | .foreign => none

end LayoutChoice

def Ceiling.choice (c : Ceiling) : LayoutChoice :=
  match c.layout? with
  | some l => .named l
  | none => .foreign

end ReplyTree
