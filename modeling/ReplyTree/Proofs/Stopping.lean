import ReplyTree.Proofs.Batches
import ReplyTree.Proofs.Lines

/- Where a listing stops. Items are looked at one after the other and a line stays as it was made,
   so that later items only add lines after it, or nothing once the listing has stopped. -/
namespace ReplyTree.Listing

variable {bound : Decimal.Bound} {limit : Value} {choice : LayoutChoice} {v : Value}
  {fault : Fault} {p : Position} {most : Nat}

def Passes (bound : Decimal.Bound) (limit : Value) (choice : LayoutChoice) (v : Value) : Prop :=
  ∀ fault, ¬ EndsAt bound limit choice v fault

theorem passes_of_read (read : (Position.ofValue bound v choice).result = .ok p)
    (natural : limit.natural? = some most) : Passes bound limit choice v := by
  intro fault ends
  cases ends with
  | refused error => cases read.symm.trans error
  | limitless _ unnatural => exact unnatural most (Value.natural_eq_some.mp natural)

def continued (first rest : Listing) : Listing :=
  match first.fault? with
  | some _ => first
  | none => ⟨first.lines ++ rest.lines, rest.fault?, first.log ++ rest.log⟩

theorem prefix_continued (first rest : Listing) :
    first.lines <+: (first.continued rest).lines := by
  unfold continued
  split
  · exact List.prefix_refl _
  · exact List.prefix_append _ _

theorem continued_of_fault {first : Listing} (stop : first.fault? = some fault)
    (rest : Listing) : first.continued rest = first := by
  simp only [continued, stop]

theorem after_continued (line : Line) (log : List Record) (first rest : Listing) :
    after line log (first.continued rest) = (after line log first).continued rest := by
  cases stop : first.fault? with
  | none => simp only [continued, after, stop, List.cons_append, List.append_assoc]
  | some fault => simp only [continued, after, stop]

theorem outline_append (bound : Decimal.Bound) (limit : Value) (choice : LayoutChoice)
    (current : Nat) (xs ys : List Value) :
    outline bound limit choice current (xs ++ ys) =
      (outline bound limit choice current xs).continued
        (outline bound limit choice
          (levelAfter current (outline bound limit choice current xs).lines) ys) := by
  induction xs generalizing current with
  | nil => rfl
  | cons v xs ih =>
    rw [List.cons_append]
    rcases ends_or_reads bound limit choice v with ⟨fault, ends⟩ | ⟨p, most, read, natural⟩
    · rw [outline_ended ends, outline_ended ends]
      rfl
    · rw [outline_passed read natural, outline_passed read natural, ih, after_continued]
      rfl

theorem lines_of_take (bound : Decimal.Bound) (limit : Value) (choice : LayoutChoice)
    (current n : Nat) (items : List Value) :
    (outline bound limit choice current (items.take n)).lines =
      (outline bound limit choice current items).lines.take n := by
  induction items generalizing current n with
  | nil => simp [outline]
  | cons v rest ih =>
    cases n with
    | zero => simp [outline]
    | succ n =>
      rw [List.take_succ_cons]
      rcases ends_or_reads bound limit choice v with ⟨fault, ends⟩ | ⟨p, most, read, natural⟩
      · rw [outline_ended ends, outline_ended ends]
        rfl
      · rw [outline_passed read natural, outline_passed read natural]
        exact congrArg _ (ih (min p.depth most) n)

abbrev LinesOf (bound : Decimal.Bound) (choice : LayoutChoice) : List Value → List Line → Prop :=
  List.Forall₂ fun v line => Yields bound choice v line.position

/-- What items are listed as: a line for each of them, or a line for each of those before the first
    at which the listing ends. -/
inductive Lists (bound : Decimal.Bound) (limit : Value) (choice : LayoutChoice)
    (items : List Value) : Listing → Prop
  | whole {lines : List Line} {log : List Record} :
      (∀ v ∈ items, Passes bound limit choice v) → LinesOf bound choice items lines →
        Lists bound limit choice items ⟨lines, none, log⟩
  | stopped {front back : List Value} {v : Value} {fault : Fault} {lines : List Line}
      {log : List Record} : items = front ++ v :: back →
      (∀ w ∈ front, Passes bound limit choice w) → EndsAt bound limit choice v fault →
        LinesOf bound choice front lines → Lists bound limit choice items ⟨lines, some fault, log⟩

theorem Lists.after {rest : List Value} {later : Listing} {line : Line} {log : List Record}
    (passes : Passes bound limit choice v) (yields : Yields bound choice v line.position)
    (lists : Lists bound limit choice rest later) :
    Lists bound limit choice (v :: rest) (Listing.after line log later) := by
  cases lists with
  | whole others lines =>
    exact .whole (List.forall_mem_cons.mpr ⟨passes, others⟩) (.cons yields lines)
  | stopped split before ends lines =>
    subst split
    exact .stopped rfl (List.forall_mem_cons.mpr ⟨passes, before⟩) ends (.cons yields lines)

theorem lists_outline (bound : Decimal.Bound) (limit : Value) (choice : LayoutChoice)
    (current : Nat) (items : List Value) :
    Lists bound limit choice items (outline bound limit choice current items) := by
  induction items generalizing current with
  | nil => exact .whole (by simp) .nil
  | cons v rest ih =>
    rcases ends_or_reads bound limit choice v with ⟨fault, ends⟩ | ⟨p, most, read, natural⟩
    · rw [outline_ended ends]
      exact .stopped rfl (by simp) ends .nil
    · rw [outline_passed read natural]
      exact (ih (min p.depth most)).after (passes_of_read read natural) read

theorem ends_at_first (unnatural : ∀ n : Nat, limit ≠ .ofNat n) (current : Nat) (v : Value)
    (rest : List Value) :
    ∃ fault, EndsAt bound limit choice v fault ∧
      outline bound limit choice current (v :: rest) =
        stopped fault (Position.ofValue bound v choice).log := by
  rcases ends_or_reads bound limit choice v with ⟨fault, ends⟩ | ⟨_, most, _, natural⟩
  · exact ⟨fault, ends, outline_ended ends current rest⟩
  · exact absurd (Value.natural_eq_some.mp natural) (unnatural most)

/-- A listing only grows by later items, and stops at the first item that gives no position. -/
theorem listing_stops_at_first_fault (bound : Decimal.Bound) (limit : Value)
    (choice : LayoutChoice) (xs ys : List Value) :
    let listed := ofValues bound limit choice
    (listed xs).lines <+: (listed (xs ++ ys)).lines ∧
    (∀ fault, (listed xs).fault? = some fault → listed (xs ++ ys) = listed xs) ∧
    (∀ n, (listed (xs.take n)).lines = (listed xs).lines.take n) ∧
    Lists bound limit choice xs (listed xs) ∧
    ((∀ n : Nat, limit ≠ .ofNat n) → (Fault.badSetting .limit limit).family = .badValue ∧
      ∀ v rest, xs = v :: rest → ∃ fault log, EndsAt bound limit choice v fault ∧
        listed xs = stopped fault log) ∧
    listed [] = ⟨[], none, []⟩ := by
  intro listed
  have grown := outline_append bound limit choice 0 xs ys
  refine ⟨?_, ?_, fun n => lines_of_take bound limit choice 0 n xs,
    lists_outline bound limit choice 0 xs, ?_, rfl⟩
  · simp only [listed, ofValues, grown]
    exact prefix_continued _ _
  · intro fault stop
    simp only [listed, ofValues, grown]
    exact continued_of_fault stop _
  · intro unnatural
    refine ⟨rfl, ?_⟩
    rintro v rest rfl
    obtain ⟨fault, ends, stop⟩ := ends_at_first unnatural 0 v rest
    exact ⟨fault, _, ends, stop⟩

end ReplyTree.Listing
