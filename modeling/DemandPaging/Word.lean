/-
  Arithmetic on machine words.

  Addresses, sizes and offsets are 64-bit words, sectors and transfer counts
  32-bit words.  A sum or product that does not fit is a panic; nothing wraps.
-/
import DemandPaging.Layout
import DemandPaging.Outcome

namespace DemandPaging.Word

/-- The sum of two words, which must be a word. -/
def add (a b : Nat) : Outcome Nat :=
  if a + b < wordLimit then pure (a + b) else .halt .addOverflow

/-- The product of two words, which must be a word. -/
def mul (a b : Nat) : Outcome Nat :=
  if a * b < wordLimit then pure (a * b) else .halt .multiplyOverflow

/-- The sum of two words, or the largest word if the sum is no word. -/
def saturatingAdd (a b : Nat) : Nat :=
  min (a + b) (wordLimit - 1)

/-- The sum of two 32-bit words, which must be one. -/
def add32 (a b : Nat) : Outcome Nat :=
  if a + b < sectorLimit then pure (a + b) else .halt .addOverflow

/-- The product of two 32-bit words, which must be one. -/
def mul32 (a b : Nat) : Outcome Nat :=
  if a * b < sectorLimit then pure (a * b) else .halt .multiplyOverflow

theorem add_eq_ok_iff {a b c : Nat} :
    (add a b).result = .ok c ↔ a + b < wordLimit ∧ c = a + b := by
  by_cases h : a + b < wordLimit <;> simp [add, h, eq_comm]

theorem mul_eq_ok_iff {a b c : Nat} :
    (mul a b).result = .ok c ↔ a * b < wordLimit ∧ c = a * b := by
  by_cases h : a * b < wordLimit <;> simp [mul, h, eq_comm]

theorem add32_eq_ok_iff {a b c : Nat} :
    (add32 a b).result = .ok c ↔ a + b < sectorLimit ∧ c = a + b := by
  by_cases h : a + b < sectorLimit <;> simp [add32, h, eq_comm]

theorem mul32_eq_ok_iff {a b c : Nat} :
    (mul32 a b).result = .ok c ↔ a * b < sectorLimit ∧ c = a * b := by
  by_cases h : a * b < sectorLimit <;> simp [mul32, h, eq_comm]

end DemandPaging.Word
