import Mathlib.Data.List.Basic
import Mathlib.Tactic.Linarith

/-!
# CBOR の符号化

serde の型を書き出すのに使う範囲の CBOR。値の木は作らず、書き出した byte の列をつないでいく。
長さはどれも先に書き、整数はいちばん短い形にする。

見出し（`head`）の長さは中身の長さで 1 から 9 まで変わる。書き出した全体の長さは、見出しの長さ
`headLen` と中身の長さの和になる。
-/

namespace Cbor

/-- `n` の下位 `width` byte。big-endian である。 -/
def beBytes : Nat → Nat → List UInt8
  | 0, _ => []
  | width + 1, n => UInt8.ofNat (n / 256 ^ width) :: beBytes width n

@[simp] theorem length_beBytes (width n : Nat) : (beBytes width n).length = width := by
  induction width with
  | zero => rfl
  | succ width ih => rw [beBytes, List.length_cons, ih]

/-- big-endian の byte の列が表す数。 -/
def ofBeBytes (b : List UInt8) : Nat := b.foldl (fun n x => 256 * n + x.toNat) 0

theorem foldl_beBytes (width n acc : Nat) :
    (beBytes width n).foldl (fun n x => 256 * n + x.toNat) acc =
      256 ^ width * acc + n % 256 ^ width := by
  induction width generalizing acc with
  | zero => simp [beBytes, Nat.mod_one]
  | succ width ih =>
    have hbyte : (UInt8.ofNat (n / 256 ^ width)).toNat = n / 256 ^ width % 256 :=
      UInt8.toNat_ofNat
    rw [beBytes, List.foldl_cons, ih, hbyte, Nat.pow_succ, Nat.mod_mul,
      Nat.mul_add, Nat.mul_assoc]
    omega

theorem ofBeBytes_beBytes {width n : Nat} (h : n < 256 ^ width) :
    ofBeBytes (beBytes width n) = n := by
  rw [ofBeBytes, foldl_beBytes, Nat.mul_zero, Nat.zero_add, Nat.mod_eq_of_lt h]

/-- 種別 `major` と引数 `n` の見出し。 -/
def head (major n : Nat) : List UInt8 :=
  if n < 24 then [UInt8.ofNat (32 * major + n)]
  else if n < 2 ^ 8 then UInt8.ofNat (32 * major + 24) :: beBytes 1 n
  else if n < 2 ^ 16 then UInt8.ofNat (32 * major + 25) :: beBytes 2 n
  else if n < 2 ^ 32 then UInt8.ofNat (32 * major + 26) :: beBytes 4 n
  else UInt8.ofNat (32 * major + 27) :: beBytes 8 n

/-- 見出しの長さ。 -/
def headLen (n : Nat) : Nat :=
  if n < 24 then 1 else if n < 2 ^ 8 then 2 else if n < 2 ^ 16 then 3 else if n < 2 ^ 32 then 5 else 9

@[simp] theorem length_head (major n : Nat) : (head major n).length = headLen n := by
  unfold head headLen
  split
  · rfl
  · split
    · simp
    · split
      · simp
      · split <;> simp

theorem headLen_pos (n : Nat) : 1 ≤ headLen n := by
  unfold headLen
  split_ifs <;> omega

theorem headLen_le (n : Nat) : headLen n ≤ 9 := by
  unfold headLen
  split_ifs <;> omega

theorem headLen_mono {m n : Nat} (h : m ≤ n) : headLen m ≤ headLen n := by
  unfold headLen
  split_ifs <;> omega

/-- 32 bit に収まるうちは、少し長くなっても見出しは 2 byte しか伸びない。 -/
theorem headLen_add_le {n k : Nat} (hk : k ≤ 24) (h : n + k < 2 ^ 32) :
    headLen (n + k) ≤ headLen n + 2 := by
  unfold headLen
  split_ifs <;> omega

/-! ## 値 -/

/-- major type 0。 -/
def unsigned (n : Nat) : List UInt8 := head 0 n

/-- 負の整数 `-1 - n` の引数は `n` である。 -/
def integer : Int → List UInt8
  | .ofNat n => head 0 n
  | .negSucc n => head 1 n

/-- major type 2。 -/
def byteString (b : List UInt8) : List UInt8 := head 2 b.length ++ b

/-- 文字列の UTF-8。 -/
def utf8 (s : String) : List UInt8 := s.toUTF8.data.toList

/-- major type 3。 -/
def textString (s : String) : List UInt8 := head 3 (utf8 s).length ++ utf8 s

/-- major type 4。 -/
def array (items : List (List UInt8)) : List UInt8 := head 4 items.length ++ items.flatten

/-- 鍵が文字列の map。 -/
def map (entries : List (String × List UInt8)) : List UInt8 :=
  head 5 entries.length ++ entries.flatMap fun e => textString e.1 ++ e.2

/-- major type 7 の真偽値。 -/
def boolean (b : Bool) : List UInt8 := [if b then 0xf5 else 0xf4]

/-- serde の外側に札の付いた enum。名前を鍵とする一つ組の map になる。 -/
def variant (name : String) (body : List UInt8) : List UInt8 := map [(name, body)]

/-! ### 長さ -/

theorem utf8_ofList (l : List Char) : utf8 (String.ofList l) = l.flatMap String.utf8EncodeChar := by
  rw [utf8, String.toUTF8_eq_toByteArray, String.toByteArray_ofList, List.utf8Encode,
    List.data_toByteArray]

/-- 一文字は 1 byte 以上である。 -/
theorem length_le_utf8 (s : String) : s.length ≤ (utf8 s).length := by
  rw [← String.ofList_toList (s := s), utf8_ofList, String.length_ofList]
  generalize s.toList = l
  induction l with
  | nil => exact Nat.le_refl _
  | cons c l ih =>
    have hc := Char.utf8Size_pos c
    rw [List.flatMap_cons, List.length_append, String.length_utf8EncodeChar, List.length_cons]
    omega

@[simp] theorem length_unsigned (n : Nat) : (unsigned n).length = headLen n := length_head _ _

theorem length_integer_le (i : Int) : (integer i).length ≤ 9 := by
  cases i with
  | ofNat n => exact (length_head 0 n).trans_le (headLen_le n)
  | negSucc n => exact (length_head 1 n).trans_le (headLen_le n)

@[simp] theorem length_byteString (b : List UInt8) :
    (byteString b).length = headLen b.length + b.length := by
  simp [byteString]

@[simp] theorem length_textString (s : String) :
    (textString s).length = headLen (utf8 s).length + (utf8 s).length := by
  simp [textString]

theorem length_array (items : List (List UInt8)) :
    (array items).length = headLen items.length + (items.map List.length).sum := by
  simp [array, List.length_flatten]

theorem length_map (entries : List (String × List UInt8)) :
    (map entries).length = headLen entries.length +
      (entries.map fun e => (textString e.1).length + e.2.length).sum := by
  simp [map, List.length_flatMap]

theorem length_variant (name : String) (body : List UInt8) :
    (variant name body).length = 1 + (textString name).length + body.length := by
  rw [variant, length_map]
  simp [headLen, Nat.add_assoc]

/-- field を並べた枝。field の数が少なければ、二つの map の見出しは 1 byte ずつである。 -/
theorem length_variant_map (name : String) {fields : List (String × List UInt8)}
    (h : fields.length < 24) :
    (variant name (map fields)).length = 2 + (textString name).length +
      (fields.map fun e => (textString e.1).length + e.2.length).sum := by
  rw [length_variant, length_map, headLen, if_pos h]
  omega

@[simp] theorem length_boolean (b : Bool) : (boolean b).length = 1 := rfl

end Cbor
