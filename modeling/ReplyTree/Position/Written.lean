import ReplyTree.Decimal
import ReplyTree.Position
import ReplyTree.Sorting

/- The text of a position: its ordinals as numerals of one width, the separator between
   them and the terminator at the end. Reading accepts such texts and no others, as far as
   numerals of that width are converted. Sameness goes by the text. Order goes by the ordinals
   and is defined within one width only, so it answers with an option. -/
namespace ReplyTree

namespace Position

/-- The text without its last mark. In ascending order of these, a node comes before
    everything below it. -/
def body (p : Position) : List Char :=
  [p.layout.separator].intercalate (p.ordinals.map (Decimal.padded p.layout.width))

/-- The complete text. In descending order of these, a node still comes before everything
    below it, because the separator sorts below the terminator. -/
def letters (p : Position) : List Char := p.body ++ [p.layout.terminator]

def text (p : Position) : String := String.ofList p.letters

end Position

inductive Misreading where
  | unterminated (terminator : Char)
  | wrongWidth (segment : List Char) (width : Nat)
  | notDecimal (segment : List Char)
  deriving DecidableEq, Repr

inductive Obstacle where
  | malformed (why : Misreading)
  | tooLong (digits most : Nat)
  deriving DecidableEq, Repr

namespace Layout

theorem numeral_fits (l : Layout) {segment : List Char} (width : segment.length = l.width)
    (digits : segment.all Char.isDigit = true) : Decimal.value segment < l.capacity := by
  rw [capacity, ← width]
  exact Decimal.value_lt (List.all_eq_true.mp digits)

/-- The ordinal of a segment. That the segment is a numeral of the right width is checked
    before its length is. -/
def readSegment (bound : Decimal.Bound) (l : Layout) (segment : List Char) :
    Except Obstacle {n : Nat // n < l.capacity} :=
  if width : segment.length = l.width then
    if digits : segment.all Char.isDigit = true then
      match bound.exceeded? l.width with
      | none => .ok ⟨Decimal.value segment, l.numeral_fits width digits⟩
      | some most => .error (.tooLong l.width most)
    else .error (.malformed (.notDecimal segment))
  else .error (.malformed (.wrongWidth segment l.width))

def readSegments (bound : Decimal.Bound) (l : Layout) : (segments : List (List Char)) →
    Except Obstacle
      {ns : List Nat // ns.length = segments.length ∧ ∀ n ∈ ns, n < l.capacity}
  | [] => .ok ⟨[], rfl, l.nil_fits⟩
  | segment :: rest =>
    match l.readSegment bound segment with
    | .error fault => .error fault
    | .ok n =>
      match l.readSegments bound rest with
      | .error fault => .error fault
      | .ok ns => .ok ⟨n.val :: ns.val, by simp [ns.property.1], by
          intro m hm
          rcases List.mem_cons.mp hm with rfl | hm
          · exact n.property
          · exact ns.property.2 m hm⟩

theorem ne_nil_of_length {segments : List (List Char)} {ns : List Nat}
    (some_segment : segments ≠ []) (length : ns.length = segments.length) : ns ≠ [] := by
  rw [← List.length_pos_iff, length]
  exact List.length_pos_iff.mpr some_segment

def readPath (bound : Decimal.Bound) (l : Layout) (segments : List (List Char))
    (some_segment : segments ≠ []) : Except Obstacle l.Path :=
  match l.readSegments bound segments with
  | .error fault => .error fault
  | .ok ns => .ok ⟨ns.val, ne_nil_of_length some_segment ns.property.1, ns.property.2⟩

def readLetters (bound : Decimal.Bound) (l : Layout) (letters : List Char) :
    Except Obstacle l.Path :=
  if letters.getLast? = some l.terminator then
    l.readPath bound (letters.dropLast.splitOn l.separator) (List.splitOnP_ne_nil _ _)
  else .error (.malformed (.unterminated l.terminator))

end Layout

namespace Position

def Same (p q : Position) : Prop := p.letters = q.letters

instance (p q : Position) : Decidable (p.Same q) :=
  inferInstanceAs (Decidable (p.letters = q.letters))

def compare? (test : List Nat → List Nat → Bool) (p q : Position) : Option Bool :=
  if p.layout.width = q.layout.width then some (test p.ordinals q.ordinals) else none

def lt? : Position → Position → Option Bool := compare? fun a b => decide (a < b)
def le? : Position → Position → Option Bool := compare? fun a b => !decide (b < a)
def gt? (p q : Position) : Option Bool := q.lt? p
def ge? (p q : Position) : Option Bool := q.le? p

def Sibling (p q : Position) : Prop :=
  p.layout.width = q.layout.width ∧ p.parent?.map letters = q.parent?.map letters

instance (p q : Position) : Decidable (p.Sibling q) := inferInstanceAs (Decidable (_ ∧ _))

def sort? : List Position → Option (List Position) := sortBy? lt?

def sortDescending? : List Position → Option (List Position) := sortBy? gt?

end Position

end ReplyTree
