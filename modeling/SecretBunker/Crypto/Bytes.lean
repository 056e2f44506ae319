import SecretBunker.Crypto
import SecretBunker.Lib.Delimited

/-!
# byte の列の読み戻し

固定幅の整数と文字列の byte の列は、もとの値を一つに決める。長さを前に置いた欄はさらに、続きが
何であっても境目が決まる。
-/

namespace SecretBunker

open Delimited

theorem mod_eq_of_ofNat_eq {m n : Nat} (h : UInt8.ofNat m = UInt8.ofNat n) :
    m % 256 = n % 256 := by
  have hm := UInt8.toNat_ofNat' (n := m)
  rw [h, UInt8.toNat_ofNat'] at hm
  exact hm.symm

theorem asBytes_inj {a b : String} (h : asBytes a = asBytes b) : a = b := by
  have hutf : a.toUTF8 = b.toUTF8 := ByteArray.ext (Array.toList_inj.mp h)
  exact String.toByteArray_inj.mp hutf

/-- 下から `k` 個の byte が同じなら、`256 ^ k` で割った余りも同じである。 -/
theorem mod_pow_eq_of_bytes {m n : Nat} : ∀ {k : Nat},
    (∀ i < k, m / 256 ^ i % 256 = n / 256 ^ i % 256) → m % 256 ^ k = n % 256 ^ k
  | 0, _ => by rw [Nat.pow_zero, Nat.mod_one, Nat.mod_one]
  | k + 1, h => by
    have ih := mod_pow_eq_of_bytes fun i hi => h i (Nat.lt_succ_of_lt hi)
    rw [Nat.mod_pow_succ, Nat.mod_pow_succ, ih, h k (Nat.lt_succ_self k)]

theorem toBeBytes_inj {m n : Nat} (hm : m < 2 ^ 64) (hn : n < 2 ^ 64)
    (h : toBeBytes m = toBeBytes n) : m = n := by
  have hmod : m % 256 ^ 8 = n % 256 ^ 8 := by
    refine mod_pow_eq_of_bytes fun i hi => ?_
    have hmem : i ∈ [7, 6, 5, 4, 3, 2, 1, 0] := by
      simp only [List.mem_cons, List.not_mem_nil, or_false]
      omega
    exact mod_eq_of_ofNat_eq (List.map_inj_left.mp h i hmem)
  rwa [Nat.mod_eq_of_lt (b := 256 ^ 8) hm, Nat.mod_eq_of_lt (b := 256 ^ 8) hn] at hmod

theorem selfDelimiting_toBeBytes : SelfDelimiting (· < 2 ^ 64) toBeBytes :=
  .of_length (n := 8) (fun _ => rfl) fun _ _ hm hn h => toBeBytes_inj hm hn h

end SecretBunker
