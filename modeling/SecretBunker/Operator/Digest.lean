import SecretBunker.Crypto.Bytes
import SecretBunker.Operator.Render

/-!
# 中身の hash

`contentHash` は、鍵と値の長さを 8 byte で前に置いて並べたものの sha256 である。長さが u64 に
収まるかぎり並びから中身が戻るので、二つの中身の hash が同じになるのは sha256 が衝突したとき
だけである。
-/

namespace SecretBunker

open Ordered Delimited

namespace Operator

theorem selfDelimiting_toLeBytes : SelfDelimiting (· < 2 ^ 64) toLeBytes :=
  .of_length (n := 8) (fun _ => rfl) fun _ _ hm hn h => toBeBytes_inj hm hn (List.reverse_inj.mp h)

/-! ## 16 進 -/

theorem hexDigit_inj : ∀ m < 16, ∀ n < 16, hexDigit m = hexDigit n → m = n := by decide

theorem hexLower_inj {a b : Bytes} (h : hexLower a = hexLower b) : a = b := by
  have hcode : SelfDelimiting (fun _ : UInt8 => True)
      fun b => [hexDigit (b.toNat / 16), hexDigit (b.toNat % 16)] := by
    refine .of_length (n := 2) (fun _ => rfl) fun x y _ _ h => ?_
    obtain ⟨hhi, hlo⟩ := List.cons.inj h
    have hx := x.toNat_lt
    have hy := y.toNat_lt
    have hhi := hexDigit_inj _ (by omega) _ (by omega) hhi
    have hlo := hexDigit_inj _ (by omega) _ (by omega) (List.cons.inj hlo).1
    exact UInt8.toNat_inj.mp (by omega)
  exact hcode.flatMap_inj (fun _ => List.cons_ne_nil _ _) (fun _ _ => trivial)
    (fun _ _ => trivial) (String.ofList_inj.mp h)

/-! ## 中身 -/

/-- 鍵も値も、長さが u64 に収まる。Rust の slice はつねにそうである。 -/
def Fits (data : SortedMap String Bytes) : Prop :=
  ∀ e ∈ data.entries, (asBytes e.1).length < 2 ^ 64 ∧ e.2.length < 2 ^ 64

theorem hashInput_inj {a b : SortedMap String Bytes} (ha : Fits a) (hb : Fits b)
    (h : hashInput a = hashInput b) : a = b := by
  have hsized := selfDelimiting_toLeBytes.sized
  have hcode := (hsized.comap (f := asBytes) fun _ _ => asBytes_inj).pair hsized
  have hentries : a.entries = b.entries := by
    refine hcode.flatMap_inj (fun e hnil => ?_) ha hb ?_
    · cases hnil
    · simpa only [hashInput, List.append_assoc] using h
  cases a
  cases b
  cases hentries
  rfl

/-- 二つの中身の並びについて sha256 が衝突しない。 -/
def CollisionFree (prim : Primitives) (a b : SortedMap String Bytes) : Prop :=
  prim.sha256 (hashInput a) = prim.sha256 (hashInput b) → hashInput a = hashInput b

/-- **hash の比べは中身の比べである。** sha256 が衝突しないかぎり。 -/
theorem contentHash_eq_iff {prim : Primitives} {a b : SortedMap String Bytes} (ha : Fits a)
    (hb : Fits b) (hfree : CollisionFree prim a b) :
    contentHash prim a = contentHash prim b ↔ a = b := by
  constructor
  · intro h
    have hhex : hexLower (prim.sha256 (hashInput a)) = hexLower (prim.sha256 (hashInput b)) :=
      (String.append_right_inj _).mp h
    exact hashInput_inj ha hb (hfree (hexLower_inj hhex))
  · exact congrArg (contentHash prim)

end Operator

end SecretBunker
