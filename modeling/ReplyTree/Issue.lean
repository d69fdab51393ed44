import ReplyTree.Layout.Acceptance
import ReplyTree.Position.Acceptance

/- New places in a tree. Whoever stores the tree names the parent and the place among its
   children; a position that fits below that parent is the answer. -/
namespace ReplyTree

namespace Layout

def parentOrdinals (bound : Decimal.Bound) (l : Layout) (parent : Value) :
    Outcome {ns : List Nat // ∀ n ∈ ns, n < l.capacity} :=
  match parent with
  | .nothing => pure ⟨[], l.nil_fits⟩
  | _ => do
    let p ← Position.receive bound l parent
    return ⟨p.val.ordinals, p.val.fits_width p.property⟩

/-- The child with the given ordinal below a parent. The ordinal is checked before the
    parent, and its size last. -/
def issue (bound : Decimal.Bound) (l : Layout) (parent ordinal : Value) : Outcome Position :=
  match ordinal.natural? with
  | none => Outcome.fail (.badSibling ordinal)
  | some n => do
    let above ← l.parentOrdinals bound parent
    if fits : n < l.capacity then
      let p : Position :=
        { layout := l
          ordinals := above.val ++ [n]
          nonempty := by simp
          fits := fun m hm => by
            rcases List.mem_append.mp hm with hm | hm
            · exact above.property m hm
            · rw [List.mem_singleton.mp hm]; exact fits }
      Outcome.record (.allocated p parent)
      return p
    else Outcome.fail (.overflow n l.width above.val.length)

end Layout

def issueAt (bound : Decimal.Bound) (parent ordinal width : Value) : Outcome Position :=
  if width.hashable then do
    let l ← Outcome.ofExcept (Layout.ofFields [(Setting.width.name, width)])
    l.issue bound parent ordinal
  else Outcome.fail .typeMismatch

def Position.reply (bound : Decimal.Bound) (p : Position) (ordinal : Value) : Outcome Position :=
  p.layout.issue bound (.position p) ordinal

def freshAfter (bound : Decimal.Bound) (choice : LayoutChoice) (first : Position) (next : Nat) :
    List Value → Outcome Nat
  | [] => pure next
  | v :: rest => do
    let p ← Position.ofValue bound v choice
    if p.Sibling first then
      freshAfter bound choice first (max next (p.ordinal + 1)) rest
    else Outcome.fail (.notSiblings p first)

/-- The first ordinal above those of the given siblings. Gaps below are not filled. -/
def freshOrdinal (bound : Decimal.Bound) (choice : LayoutChoice) : List Value → Outcome Nat
  | [] => pure 0
  | v :: rest => do
    let first ← Position.ofValue bound v choice
    freshAfter bound choice first (first.ordinal + 1) rest

end ReplyTree
