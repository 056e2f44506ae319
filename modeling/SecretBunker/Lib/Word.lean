import Mathlib.Algebra.Group.Nat.Defs

/-!
# 溢れを見る語の算術

符号なし 64 bit の加減算を、溢れれば `none` を返すものとして持つ。
`checked_add` の答えも、溢れれば panic する `+` の成否も、同じ関数で読む。
どの補題も `toNat`、つまり溢れない整数の言葉で述べる。
-/

namespace Word

/-- 溢れれば `none`。 -/
def checkedAdd (a b : UInt64) : Option UInt64 :=
  if a.toNat + b.toNat < 2 ^ 64 then some (a + b) else none

/-- 負になれば `none`。 -/
def checkedSub (a b : UInt64) : Option UInt64 :=
  if b ≤ a then some (a - b) else none

theorem checkedAdd_eq_some {a b c : UInt64} :
    checkedAdd a b = some c ↔ c.toNat = a.toNat + b.toNat := by
  unfold checkedAdd
  by_cases h : a.toNat + b.toNat < 2 ^ 64
  · rw [if_pos h, Option.some.injEq, ← UInt64.toNat_inj, UInt64.toNat_add, Nat.mod_eq_of_lt h]
    exact eq_comm
  · rw [if_neg h]
    refine iff_of_false nofun fun hc => h ?_
    rw [← hc]
    exact c.toNat_lt

theorem checkedSub_eq_some {a b c : UInt64} :
    checkedSub a b = some c ↔ c.toNat + b.toNat = a.toNat := by
  unfold checkedSub
  by_cases h : b ≤ a
  · have hle := UInt64.le_iff_toNat_le.mp h
    rw [if_pos h, Option.some.injEq, ← UInt64.toNat_inj, UInt64.toNat_sub_of_le a b h]
    omega
  · have hlt : ¬ b.toNat ≤ a.toNat := fun hle => h (UInt64.le_iff_toNat_le.mpr hle)
    rw [if_neg h]
    refine iff_of_false nofun fun hc => hlt ?_
    omega

end Word
