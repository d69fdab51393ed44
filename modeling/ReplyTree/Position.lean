import ReplyTree.Layout

/- Places in a reply tree: the ordinals from a root node down to the node, each counted
   among its siblings. A position is never empty and every ordinal fits its layout. -/
namespace ReplyTree

abbrev Layout.Path (l : Layout) : Type :=
  {ordinals : List Nat // ordinals ≠ [] ∧ ∀ n ∈ ordinals, n < l.capacity}

theorem Layout.nil_fits (l : Layout) : ∀ n ∈ ([] : List Nat), n < l.capacity := by simp

structure Position where
  layout : Layout
  ordinals : List Nat
  nonempty : ordinals ≠ []
  fits : ∀ n ∈ ordinals, n < layout.capacity
  deriving DecidableEq, Repr

namespace Position

def ofPath (l : Layout) (path : l.Path) : Position :=
  ⟨l, path.val, path.property.1, path.property.2⟩

theorem eq_of_ordinals {p q : Position} (layout : p.layout = q.layout)
    (ordinals : p.ordinals = q.ordinals) : p = q := by
  cases p; cases q
  simp_all

theorem fits_width (p : Position) {l : Layout} (same : p.layout.width = l.width) :
    ∀ n ∈ p.ordinals, n < l.capacity := by
  intro n hn
  have fits := p.fits n hn
  rwa [Layout.capacity, same] at fits

def depth (p : Position) : Nat := p.ordinals.length - 1

def ordinal (p : Position) : Nat := p.ordinals.getLast p.nonempty

def isRoot (p : Position) : Bool := p.depth == 0

theorem length_ordinals (p : Position) : p.ordinals.length = p.depth + 1 := by
  have := List.length_pos_iff.mpr p.nonempty
  simp only [depth]; omega

def upTo (p : Position) (d : Nat) : Position where
  layout := p.layout
  ordinals := p.ordinals.take (d + 1)
  nonempty := by simp [p.nonempty]
  fits := fun n hn => p.fits n (List.mem_of_mem_take hn)

def parent? (p : Position) : Option Position :=
  match p.depth with
  | 0 => none
  | d + 1 => some (p.upTo d)

def ancestors (p : Position) : List Position := (List.range p.depth).reverse.map p.upTo

/-- The second position lies strictly below the first. Positions of different widths are
    never related. -/
def Above (p q : Position) : Prop :=
  p.layout.width = q.layout.width ∧ p.ordinals.length < q.ordinals.length ∧
    p.ordinals <+: q.ordinals

instance (p q : Position) : Decidable (p.Above q) :=
  inferInstanceAs (Decidable (_ ∧ _ ∧ _))

theorem depth_upTo (p : Position) {d : Nat} (h : d ≤ p.depth) : (p.upTo d).depth = d := by
  have := p.length_ordinals
  simp only [depth, upTo, List.length_take] at *
  omega

theorem upTo_depth (p : Position) : p.upTo p.depth = p :=
  eq_of_ordinals rfl (by simp [upTo, ← p.length_ordinals])

theorem length_ancestors (p : Position) : p.ancestors.length = p.depth := by simp [ancestors]

end Position

end ReplyTree
