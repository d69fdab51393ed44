import ReplyTree.Decimal

/- How the positions of one tree are written down. A layout is valid by construction:
   whoever holds one may rely on the order of its two marks and of the digits. -/
namespace ReplyTree

/-- The digits of one ordinal, the marks between and after ordinals, and the deepest level
    that is shown. The separator sorts below the terminator and both below every digit. -/
structure Layout where
  width : Nat
  limit : Nat
  separator : Char
  terminator : Char
  width_pos : 0 < width
  separator_lt : separator < terminator
  terminator_lt : terminator < '0'
  deriving DecidableEq, Repr

namespace Layout

def standard : Layout := ⟨2, 3, '.', '/', by decide, by decide, by decide⟩

def capacity (l : Layout) : Nat := Decimal.span l.width

def top (l : Layout) : Nat := l.capacity - 1

theorem capacity_pos (l : Layout) : 0 < l.capacity := Decimal.span_pos l.width

theorem lt_capacity_iff (l : Layout) (n : Nat) : n < l.capacity ↔ n ≤ l.top := by
  have := l.capacity_pos
  simp only [top]; omega

theorem separator_lt_zero (l : Layout) : l.separator < '0' :=
  Nat.lt_trans l.separator_lt l.terminator_lt

end Layout

inductive Setting where
  | width | limit | separator | terminator
  deriving DecidableEq, Repr

def Setting.name : Setting → String
  | .width => "segment_width"
  | .limit => "max_depth"
  | .separator => "separator"
  | .terminator => "terminator"

def Setting.all : List Setting := [.width, .limit, .separator, .terminator]

/-- A deepest shown level that can be moved while it is in use, with the layout under which texts
    are read. There is none if the ceiling was set up with something that is no layout. -/
structure Ceiling where
  limit : Nat
  layout? : Option Layout
  deriving DecidableEq, Repr

end ReplyTree
