/- Decimal numerals of a fixed width: zeros in front, ASCII digits only. Reading and
   writing undo each other on the numbers that fit. How long a numeral may be to be
   converted at all is a bound that callers choose. -/
namespace ReplyTree.Decimal

def span (width : Nat) : Nat := Nat.pow 10 width

def padded (width n : Nat) : List Char := (Nat.toDigits 10 n).leftpad width '0'

def value (digits : List Char) : Nat := Nat.ofDigitChars 10 digits 0

/-- How many digits a numeral may have to be converted, zeros in front among them. The bound
    concerns reading, and numbers that are asked for. Texts of faults and records that arise on
    the way are made whatever the length of their numbers. -/
inductive Bound where
  | unbounded
  | atMost (digits : Nat)
  deriving DecidableEq, Repr

namespace Bound

def standard : Bound := .atMost 4300

def exceeded? : Bound → Nat → Option Nat
  | .unbounded, _ => none
  | .atMost most, digits => if most < digits then some most else none

def surpassed? : Bound → Nat → Option Nat
  | .unbounded, _ => none
  | .atMost most, n => if n < span most then none else some most

end Bound

theorem span_succ (width : Nat) : span (width + 1) = span width * 10 := rfl

theorem span_pos (width : Nat) : 0 < span width := Nat.pow_pos (by decide)

theorem value_cons (c : Char) (cs : List Char) :
    value (c :: cs) = (c.toNat - 48) * span cs.length + value cs := by
  simp only [value, Nat.ofDigitChars_cons]
  rw [Nat.ofDigitChars_eq_ofDigitChars_zero]
  simp [span, Nat.mul_comm]

theorem digit_bounds {c : Char} (h : c.isDigit = true) : 48 ≤ c.toNat ∧ c.toNat < 58 := by
  simp only [Char.isDigit, Bool.and_eq_true, decide_eq_true_eq] at h
  obtain ⟨lo, hi⟩ := h
  have lo' : 48 ≤ c.val.toNat := lo
  have hi' : c.val.toNat ≤ 57 := hi
  exact ⟨lo', Nat.lt_succ_of_le hi'⟩

theorem value_lt {cs : List Char} (digits : ∀ c ∈ cs, c.isDigit = true) :
    value cs < span cs.length := by
  induction cs with
  | nil => simp [value, span]
  | cons c cs ih =>
    have rest := ih (fun x hx => digits x (by simp [hx]))
    have small : c.toNat - 48 ≤ 9 := by have := digit_bounds (digits c (by simp)); omega
    have scaled := Nat.mul_le_mul_right (span cs.length) small
    rw [value_cons, List.length_cons, span_succ]
    omega

theorem value_padded (width n : Nat) : value (padded width n) = n := by
  simp [value, padded, List.leftpad, Nat.ofDigitChars_append, Nat.ofDigitChars_replicate_zero,
    Nat.ofDigitChars_toDigits]

theorem padded_digits (width n : Nat) : ∀ c ∈ padded width n, c.isDigit = true := by
  intro c hc
  simp only [padded, List.leftpad, List.mem_append, List.mem_replicate] at hc
  rcases hc with ⟨_, rfl⟩ | hc
  · decide
  · exact Nat.isDigit_of_mem_toDigits (by decide) (by decide) hc

theorem padded_length {width n : Nat} (pos : 0 < width) :
    (padded width n).length = width ↔ n < span width := by
  have fits : (Nat.toDigits 10 n).length ≤ width ↔ n < span width :=
    Nat.length_toDigits_le_iff (by decide) pos
  rw [← fits]
  simp only [padded, List.length_leftpad]
  omega

theorem value_injective {cs ds : List Char} (length : cs.length = ds.length)
    (digits : ∀ c ∈ cs, c.isDigit = true) (digits' : ∀ d ∈ ds, d.isDigit = true)
    (same : value cs = value ds) : cs = ds := by
  induction cs generalizing ds with
  | nil => exact (List.length_eq_zero_iff.mp length.symm).symm
  | cons c cs ih =>
    cases ds with
    | nil => simp at length
    | cons d ds =>
      have tails : cs.length = ds.length := by simpa using length
      have rest : ∀ x ∈ cs, x.isDigit = true := fun x hx => digits x (by simp [hx])
      have rest' : ∀ x ∈ ds, x.isDigit = true := fun x hx => digits' x (by simp [hx])
      have below := value_lt rest
      have below' := value_lt rest'
      have low := (digit_bounds (digits c (by simp))).1
      have low' := (digit_bounds (digits' d (by simp))).1
      rw [value_cons, value_cons, tails] at same
      rw [tails] at below
      have fronts : c.toNat - 48 = d.toNat - 48 := by
        have quotient := congrArg (· / span ds.length) same
        simpa [Nat.mul_comm _ (span ds.length), Nat.mul_add_div (span_pos _),
          Nat.div_eq_of_lt below, Nat.div_eq_of_lt below'] using quotient
      have backs : value cs = value ds := by rw [fronts] at same; omega
      have heads : c = d := Char.toNat_inj.mp (by omega)
      rw [heads, ih tails rest rest' backs]

theorem padded_value {cs : List Char} (pos : 0 < cs.length)
    (digits : ∀ c ∈ cs, c.isDigit = true) : padded cs.length (value cs) = cs :=
  value_injective ((padded_length pos).mpr (value_lt digits)) (padded_digits _ _) digits
    (value_padded _ _)

end ReplyTree.Decimal
