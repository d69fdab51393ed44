import ReplyTree.Fault

/- What an operation comes to: a result or a fault, and the records it left on the way. A
   fault keeps the records that were made before it. -/
namespace ReplyTree

inductive Record where
  | allocated (p : Position) (parent : Value)
  | rejected (given : Value) (why : Reason)

def Record.text : Record → String
  | .allocated p parent => "Allocated thread key " ++ p.text ++ " under " ++ parent.display
  | .rejected given why => "Rejected thread key " ++ given.literal ++ ": " ++ why.text

structure Outcome (α : Type) where
  result : Except Fault α
  log : List Record

namespace Outcome

variable {α β : Type}

def ofExcept (result : Except Fault α) : Outcome α := ⟨result, []⟩

def fail (fault : Fault) : Outcome α := ⟨.error fault, []⟩

def record (entry : Record) : Outcome Unit := ⟨.ok (), [entry]⟩

def andThen (x : Outcome α) (f : α → Outcome β) : Outcome β :=
  match x.result with
  | .ok a => ⟨(f a).result, x.log ++ (f a).log⟩
  | .error fault => ⟨.error fault, x.log⟩

instance : Monad Outcome where
  pure a := ⟨.ok a, []⟩
  bind := andThen

@[simp] theorem result_pure (a : α) : (pure a : Outcome α).result = .ok a := rfl

@[simp] theorem log_pure (a : α) : (pure a : Outcome α).log = [] := rfl

theorem bind_of_ok {x : Outcome α} {a : α} (ok : x.result = .ok a) (f : α → Outcome β) :
    x >>= f = ⟨(f a).result, x.log ++ (f a).log⟩ := by
  change andThen x f = _
  simp [andThen, ok]

theorem bind_of_error {x : Outcome α} {fault : Fault} (error : x.result = .error fault)
    (f : α → Outcome β) : x >>= f = ⟨.error fault, x.log⟩ := by
  change andThen x f = _
  simp [andThen, error]

theorem ok_of_bind {x : Outcome α} {f : α → Outcome β} {b : β}
    (ok : (x >>= f).result = .ok b) : ∃ a, x.result = .ok a ∧ (f a).result = .ok b := by
  cases first : x.result with
  | error fault =>
    rw [bind_of_error first] at ok
    cases ok
  | ok a =>
    rw [bind_of_ok first] at ok
    exact ⟨a, rfl, ok⟩

theorem bind_pure_eq (x : Outcome α) (f : α → β) :
    (x >>= fun a => pure (f a)) = ⟨x.result.map f, x.log⟩ := by
  cases first : x.result with
  | error fault =>
    rw [bind_of_error first]
    rfl
  | ok a =>
    rw [bind_of_ok first, log_pure, List.append_nil]
    rfl

end Outcome

/-- A description of answers that holds of some answer, and of no other than the one that is given,
    says exactly which answer is given. -/
theorem answer_iff {α : Type} {given : α} {describes : α → Prop}
    (described : ∀ answer, describes answer → given = answer) (holds : ∃ answer, describes answer)
    (answer : α) : given = answer ↔ describes answer := by
  constructor
  · rintro rfl
    obtain ⟨answer, description⟩ := holds
    rwa [described answer description]
  · exact described answer

end ReplyTree
