import ReplyTree.Issue
import ReplyTree.Proofs.Ancestry
import ReplyTree.Proofs.Batches

/- What issuing a position and looking for a free ordinal come to when they are given what they
   ask for. The free ordinal is the least one above all that are there. -/
namespace ReplyTree

theorem Outcome.pure_bind {α β : Type} (a : α) (f : α → Outcome β) :
    (pure a : Outcome α) >>= f = f a := rfl

theorem Position.ofValue_named (bound : Decimal.Bound) {l : Layout} {p : Position}
    (width : p.layout.width = l.width) : ofValue bound (.position p) (.named l) = pure p := by
  simp only [ofValue, receive, dif_pos width]
  rfl

variable {bound : Decimal.Bound} {l : Layout} {choice : LayoutChoice} {v : Value}
  {p q first : Position} {items front : List Value} {ps : List Position} {m n : Nat}

theorem Position.Sibling.symm (sibling : p.Sibling q) : q.Sibling p :=
  ⟨sibling.1.symm, sibling.2.symm⟩

theorem Position.Sibling.trans {r : Position} (sibling : p.Sibling q) (sibling' : q.Sibling r) :
    p.Sibling r :=
  ⟨sibling.1.trans sibling'.1, sibling.2.trans sibling'.2⟩

def SiblingsOfFirst (ps : List Position) : Prop :=
  ∀ first, ps.head? = some first → ∀ p ∈ ps, p.Sibling first

theorem siblings_of_first_iff : SiblingsOfFirst ps ↔ ∀ p ∈ ps, ∀ q ∈ ps, p.Sibling q := by
  constructor
  · intro siblings p member q member'
    cases ps with
    | nil => simp at member
    | cons first rest =>
      exact (siblings first rfl p member).trans (siblings first rfl q member').symm
  · intro siblings first head p member
    exact siblings p member first (List.mem_of_head? head)

theorem SiblingsOfFirst.concat (siblings : SiblingsOfFirst ps)
    (joins : ∀ first, ps.head? = some first → p.Sibling first) : SiblingsOfFirst (ps ++ [p]) := by
  cases ps with
  | nil =>
    intro first head q member
    cases head
    rw [List.mem_singleton.mp member]
    exact ⟨rfl, rfl⟩
  | cons start rest =>
    intro first head q member
    cases head
    rcases List.mem_append.mp member with before | last
    · exact siblings start rfl q before
    · rw [List.mem_singleton.mp last]
      exact joins start rfl

/-- The first ordinal above those of some positions: zero for none of them, and otherwise the one
    after the largest. -/
structure FirstFree (ps : List Position) (n : Nat) : Prop where
  above : ∀ p ∈ ps, p.ordinal < n
  reached : (ps = [] ∧ n = 0) ∨ ∃ p ∈ ps, n = p.ordinal + 1

theorem FirstFree.empty : FirstFree [] 0 := ⟨by simp, Or.inl ⟨rfl, rfl⟩⟩

theorem FirstFree.concat (free : FirstFree ps n) (p : Position) :
    FirstFree (ps ++ [p]) (max n (p.ordinal + 1)) := by
  constructor
  · intro q member
    rcases List.mem_append.mp member with before | last
    · have := free.above q before
      omega
    · rw [List.mem_singleton.mp last]
      omega
  · refine Or.inr ?_
    by_cases larger : n ≤ p.ordinal + 1
    · exact ⟨p, by simp, by omega⟩
    · rcases free.reached with ⟨_, zero⟩ | ⟨q, member, next⟩
      · omega
      · exact ⟨q, by simp [member], by omega⟩

theorem FirstFree.unique (free : FirstFree ps m) (free' : FirstFree ps n) : m = n := by
  rcases free.reached with ⟨rfl, zero⟩ | ⟨p, member, next⟩
  · rcases free'.reached with ⟨_, zero'⟩ | ⟨_, member, _⟩
    · omega
    · simp at member
  · rcases free'.reached with ⟨rfl, _⟩ | ⟨q, member', next'⟩
    · simp at member
    · have := free.above q member'
      have := free'.above p member
      omega

theorem fresh_after_run {seen : List Position} {next : Nat} (free : FirstFree seen next)
    (yields : YieldsAll bound choice front ps) (siblings : ∀ p ∈ ps, p.Sibling first)
    (rest : List Value) :
    ∃ n, FirstFree (seen ++ ps) n ∧ (freshAfter bound choice first next (front ++ rest)).result =
      (freshAfter bound choice first n rest).result := by
  -- Each sibling joins those that were seen, so these vary along the list.
  induction yields generalizing seen next with
  | nil => exact ⟨next, by rwa [List.append_nil], rfl⟩
  | @cons v p front ps head _ ih =>
    obtain ⟨n, free', run⟩ := ih (free.concat p) fun q member => siblings q (by simp [member])
    refine ⟨n, by rwa [List.append_cons], ?_⟩
    rw [List.cons_append, freshAfter, Outcome.bind_of_ok head, if_pos (siblings p (by simp))]
    exact run

theorem fresh_ordinal_run (yields : YieldsAll bound choice (v :: front) (first :: ps))
    (siblings : SiblingsOfFirst (first :: ps)) (rest : List Value) :
    ∃ n, FirstFree (first :: ps) n ∧ (freshOrdinal bound choice (v :: front ++ rest)).result =
      (freshAfter bound choice first n rest).result := by
  cases yields with
  | cons head tail =>
    have start : FirstFree [first] (first.ordinal + 1) := by
      simpa using FirstFree.empty.concat first
    obtain ⟨n, free, run⟩ := fresh_after_run start tail
      (fun p member => siblings first rfl p (by simp [member])) rest
    refine ⟨n, free, ?_⟩
    rw [List.cons_append, freshOrdinal, Outcome.bind_of_ok head]
    exact run

theorem fresh_ordinal_siblings (yields : YieldsAll bound choice items ps)
    (siblings : SiblingsOfFirst ps) :
    ∃ n, FirstFree ps n ∧ (freshOrdinal bound choice items).result = .ok n := by
  cases yields with
  | nil => exact ⟨0, .empty, rfl⟩
  | cons head tail =>
    obtain ⟨n, free, run⟩ := fresh_ordinal_run (.cons head tail) siblings []
    rw [List.append_nil] at run
    exact ⟨n, free, run⟩

namespace Layout

theorem issue_of_parent {parent : Value} {above : {ns : List Nat // ∀ n ∈ ns, n < l.capacity}}
    (given : (l.parentOrdinals bound parent).result = .ok above) (n : Nat) :
    (n < l.capacity → ∃ p, (l.issue bound parent (.ofNat n)).result = .ok p ∧ p.layout = l ∧
      p.ordinals = above.val ++ [n]) ∧
    (l.capacity ≤ n → (l.issue bound parent (.ofNat n)).result =
      .error (.overflow n l.width above.val.length)) := by
  constructor
  · intro fits
    simp only [issue, Value.natural_ofNat, Outcome.bind_of_ok given, dif_pos fits]
    exact ⟨_, rfl, rfl, rfl⟩
  · intro large
    simp only [issue, Value.natural_ofNat, Outcome.bind_of_ok given,
      dif_neg (Nat.not_lt.mpr large)]
    rfl

end Layout

end ReplyTree
