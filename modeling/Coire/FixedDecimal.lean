import Mathlib.Algebra.Order.Group.Nat
import Mathlib.Data.Char
import Mathlib.Data.List.Lex
import Mathlib.Data.List.Sort

/-!
# Decimals of a fixed width

A number written with a fixed count of decimal digits, leading zeros included.
Such numerals are compared as texts the way their numbers are
(`digits_lt_digits`), so a directory that names its files by them lists them, by
name, in the order of the numbers: the names of consecutive numbers are sorted
already (`pairwise_numbered`), and no two are the same (`numbered_injective`).
-/

namespace FixedDecimal

def digit (d : ℕ) : Char := Char.ofNat (48 + d)

/-- The last `w` decimal digits of a number, the most significant first. -/
def digits : ℕ → ℕ → List Char
  | 0, _ => []
  | w + 1, n => digit (n / 10 ^ w % 10) :: digits w n

theorem length_digits (w n : ℕ) : (digits w n).length = w := by
  induction w with
  | zero => rfl
  | succ w ih => rw [digits, List.length_cons, ih]

theorem digit_lt_digit : ∀ a < 10, ∀ b < 10, a < b → digit a < digit b := by
  decide

theorem isDigit_digit : ∀ a < 10, (digit a).isDigit = true := by
  decide

theorem isDigit_of_mem_digits {w n : ℕ} {c : Char} (h : c ∈ digits w n) :
    c.isDigit = true := by
  induction w with
  | zero => cases h
  | succ w ih =>
    rcases List.mem_cons.mp h with rfl | h
    · exact isDigit_digit _ (Nat.mod_lt _ (by decide))
    · exact ih h

theorem digits_lt_of_mod_lt {w m n : ℕ} (h : m % 10 ^ w < n % 10 ^ w) :
    digits w m < digits w n := by
  induction w with
  | zero => simp [Nat.mod_one] at h
  | succ w ih =>
    rw [digits, digits, List.cons_lt_cons_iff]
    rw [Nat.mod_pow_succ, Nat.mod_pow_succ] at h
    have hm : m % 10 ^ w < 10 ^ w := Nat.mod_lt _ (Nat.pow_pos (by decide))
    have hn : n % 10 ^ w < 10 ^ w := Nat.mod_lt _ (Nat.pow_pos (by decide))
    rcases lt_trichotomy (m / 10 ^ w % 10) (n / 10 ^ w % 10) with hlt | heq | hgt
    · exact .inl (digit_lt_digit _ (Nat.mod_lt _ (by decide)) _
        (Nat.mod_lt _ (by decide)) hlt)
    · grind
    -- the leading digit outweighs the rest
    have := Nat.mul_le_mul_left (10 ^ w) (Nat.succ_le_of_lt hgt)
    rw [Nat.succ_eq_add_one, Nat.mul_add, Nat.mul_one] at this
    omega

theorem digits_lt_digits {w m n : ℕ} (hn : n < 10 ^ w) (h : m < n) :
    digits w m < digits w n := by
  refine digits_lt_of_mod_lt ?_
  rwa [Nat.mod_eq_of_lt (h.trans hn), Nat.mod_eq_of_lt hn]

/-! ## Numbered names -/

/-- A name with a number in it: what stands before, the number, and what stands
after. -/
def numbered (before after : List Char) (w n : ℕ) : String :=
  String.ofList (before ++ digits w n ++ after)

section

variable {before after : List Char} {w m n : ℕ}

theorem toList_numbered :
    (numbered before after w n).toList = before ++ digits w n ++ after :=
  String.toList_ofList

theorem append_lt_append {as bs : List Char} (xs ys : List Char)
    (h : as < bs) (hl : as.length = bs.length) : as ++ xs < bs ++ ys := by
  induction as generalizing bs with
  | nil =>
    cases bs with
    | nil => exact absurd h (List.lt_irrefl _)
    | cons b bs => cases hl
  | cons a as ih =>
    cases bs with
    | nil => cases hl
    | cons b bs => grind [List.cons_lt_cons_iff]

theorem prepend_lt_prepend (as : List Char) {xs ys : List Char} (h : xs < ys) :
    as ++ xs < as ++ ys := by
  induction as with
  | nil => exact h
  | cons a as ih => exact List.cons_lt_cons_iff.mpr (.inr ⟨rfl, ih⟩)

theorem numbered_lt_numbered (hn : n < 10 ^ w) (h : m < n) :
    (numbered before after w m).toList < (numbered before after w n).toList := by
  grind [toList_numbered, List.append_assoc, prepend_lt_prepend, append_lt_append,
    digits_lt_digits, length_digits]

theorem numbered_injective (hm : m < 10 ^ w) (hn : n < 10 ^ w)
    (h : numbered before after w m = numbered before after w n) : m = n := by
  rcases lt_trichotomy m n with hlt | heq | hgt
  · exact absurd (h ▸ numbered_lt_numbered hn hlt) (List.lt_irrefl _)
  · exact heq
  · exact absurd (h ▸ numbered_lt_numbered hm hgt) (List.lt_irrefl _)

/-- The order of names as texts. -/
def NameLe (a b : String) : Prop := a.toList ≤ b.toList

instance : DecidableRel NameLe := fun a b =>
  inferInstanceAs (Decidable (a.toList ≤ b.toList))

theorem pairwise_numbered (start count : ℕ) (h : start + count ≤ 10 ^ w) :
    ((List.range' start count).map (numbered before after w)).Pairwise
      NameLe := by
  rw [List.pairwise_map]
  refine List.Pairwise.imp_of_mem ?_ (List.pairwise_lt_range' 1)
  intro a b _ hb hab
  rw [List.mem_range'_1] at hb
  have hbound : b < 10 ^ w := by omega
  show (numbered before after w a).toList ≤ (numbered before after w b).toList
  exact le_of_lt (numbered_lt_numbered hbound hab)

end

end FixedDecimal
