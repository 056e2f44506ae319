import Mathlib.Data.List.Basic

/-!
# 読めない byte を置き換える UTF-8 の復号

`String::from_utf8_lossy`。先頭の byte が、続く byte の個数と、それぞれの範囲を決める。範囲を外れた
ところまでの byte を U+FFFD 一つに置き換え、外れた byte から読み直す。

UTF-8 で書かれた文字列は、もとの文字列に読める（`fromUtf8Lossy_encode`）。
-/

namespace Utf8

/-- 読めなかったところに置く文字。 -/
def replacement : Char := '�'

/-- 先頭の byte が運ぶ bit と、続く byte の範囲。最短でない形、surrogate、U+10FFFF の先を除く。 -/
def lead (b : Nat) : Option (Nat × List (Nat × Nat)) :=
  if b < 0x80 then some (b, [])
  else if b < 0xC2 then none
  else if b < 0xE0 then some (b % 32, [(0x80, 0xBF)])
  else if b = 0xE0 then some (b % 16, [(0xA0, 0xBF), (0x80, 0xBF)])
  else if b = 0xED then some (b % 16, [(0x80, 0x9F), (0x80, 0xBF)])
  else if b < 0xF0 then some (b % 16, [(0x80, 0xBF), (0x80, 0xBF)])
  else if b = 0xF0 then some (b % 8, [(0x90, 0xBF), (0x80, 0xBF), (0x80, 0xBF)])
  else if b < 0xF4 then some (b % 8, [(0x80, 0xBF), (0x80, 0xBF), (0x80, 0xBF)])
  else if b = 0xF4 then some (b % 8, [(0x80, 0x8F), (0x80, 0xBF), (0x80, 0xBF)])
  else none

/-- 読みかけの文字。次の byte の範囲と、その後の範囲を覚える。 -/
structure Pending where
  bits : Nat
  next : Nat × Nat
  later : List (Nat × Nat)

/-- 残りの byte を待つか、文字を一つ出す。 -/
def settle (bits : Nat) : List (Nat × Nat) → List Char × Option Pending
  | [] => ([Char.ofNat bits], none)
  | range :: ranges => ([], some ⟨bits, range, ranges⟩)

/-- 文字の先頭の byte。 -/
def start (b : Nat) : List Char × Option Pending :=
  match lead b with
  | none => ([replacement], none)
  | some (bits, ranges) => settle bits ranges

/-- byte を一つ読む。書き出す文字と、次の状態を返す。 -/
def step (pending : Option Pending) (b : Nat) : List Char × Option Pending :=
  match pending with
  | none => start b
  | some p =>
    if p.next.1 ≤ b ∧ b ≤ p.next.2 then settle (p.bits * 64 + b % 64) p.later
    else (replacement :: (start b).1, (start b).2)

/-- 途中で切れた文字は、置き換えの文字になる。 -/
def decode : Option Pending → List UInt8 → List Char
  | none, [] => []
  | some _, [] => [replacement]
  | pending, b :: rest => (step pending b.toNat).1 ++ decode (step pending b.toNat).2 rest

/-- `String::from_utf8_lossy`。 -/
def fromUtf8Lossy (bytes : List UInt8) : String := String.ofList (decode none bytes)

/-! ## 書いた文字の読み戻し -/

theorem decode_cons (pending : Option Pending) (b : UInt8) (rest : List UInt8) :
    decode pending (b :: rest) =
      (step pending b.toNat).1 ++ decode (step pending b.toNat).2 rest := by
  cases pending with
  | none => rfl
  | some p => rfl

/-- 範囲の中の byte は、読みかけの文字に bit を足す。 -/
theorem decode_follow {bits lo hi n : Nat} {later : List (Nat × Nat)} (rest : List UInt8)
    (hlo : lo ≤ n % 64 + 128) (hhi : n % 64 + 128 ≤ hi) :
    decode (some ⟨bits, (lo, hi), later⟩) (UInt8.ofNat (n % 64 + 128) :: rest) =
      (settle (bits * 64 + n % 64) later).1 ++
        decode (settle (bits * 64 + n % 64) later).2 rest := by
  have hbyte : (UInt8.ofNat (n % 64 + 128)).toNat = n % 64 + 128 := by
    rw [UInt8.toNat_ofNat']
    omega
  have hbits : (n % 64 + 128) % 64 = n % 64 := by omega
  rw [decode_cons, hbyte, step, if_pos ⟨hlo, hhi⟩, hbits]

theorem decode_lead {b bits : Nat} {ranges : List (Nat × Nat)} (rest : List UInt8) (hb : b < 256)
    (hlead : lead b = some (bits, ranges)) :
    decode none (UInt8.ofNat b :: rest) =
      (settle bits ranges).1 ++ decode (settle bits ranges).2 rest := by
  have hbyte : (UInt8.ofNat b).toNat = b := by
    rw [UInt8.toNat_ofNat']
    omega
  rw [decode_cons, hbyte]
  simp only [step, start, hlead]

theorem lead_two {v : Nat} (hlo : 0x80 ≤ v) (hhi : v ≤ 0x7FF) :
    lead (v / 64 % 32 + 192) = some (v / 64, [(0x80, 0xBF)]) := by
  unfold lead
  rw [if_neg (by omega), if_neg (by omega), if_pos (by omega)]
  congr 2
  omega

/-- 三 byte の文字。先頭が E0 と ED のときだけ、次の範囲が狭い。 -/
theorem lead_three {v : Nat} (hlo : 0x800 ≤ v) (hhi : v ≤ 0xFFFF)
    (hvalid : v < 0xD800 ∨ 0xDFFF < v) :
    ∃ lo hi, lead (v / 4096 % 16 + 224) = some (v / 4096, [(lo, hi), (0x80, 0xBF)]) ∧
      lo ≤ v / 64 % 64 + 128 ∧ v / 64 % 64 + 128 ≤ hi := by
  have hbits : (v / 4096 % 16 + 224) % 16 = v / 4096 := by omega
  unfold lead
  rw [if_neg (by omega), if_neg (by omega), if_neg (by omega), hbits]
  by_cases hfirst : v / 4096 % 16 + 224 = 0xE0
  · exact ⟨0xA0, 0xBF, by rw [if_pos hfirst], by omega, by omega⟩
  · rw [if_neg hfirst]
    by_cases hsurrogate : v / 4096 % 16 + 224 = 0xED
    · exact ⟨0x80, 0x9F, by rw [if_pos hsurrogate], by omega, by omega⟩
    · exact ⟨0x80, 0xBF, by rw [if_neg hsurrogate, if_pos (by omega)], by omega, by omega⟩

/-- 四 byte の文字。先頭が F0 と F4 のときだけ、次の範囲が狭い。 -/
theorem lead_four {v : Nat} (hlo : 0x10000 ≤ v) (hhi : v ≤ 0x10FFFF) :
    ∃ lo hi, lead (v / 262144 % 8 + 240) =
        some (v / 262144, [(lo, hi), (0x80, 0xBF), (0x80, 0xBF)]) ∧
      lo ≤ v / 4096 % 64 + 128 ∧ v / 4096 % 64 + 128 ≤ hi := by
  have hbits : (v / 262144 % 8 + 240) % 8 = v / 262144 := by omega
  unfold lead
  rw [if_neg (by omega), if_neg (by omega), if_neg (by omega), if_neg (by omega),
    if_neg (by omega), if_neg (by omega), hbits]
  by_cases hfirst : v / 262144 % 8 + 240 = 0xF0
  · exact ⟨0x90, 0xBF, by rw [if_pos hfirst], by omega, by omega⟩
  · rw [if_neg hfirst]
    by_cases hmiddle : v / 262144 % 8 + 240 < 0xF4
    · exact ⟨0x80, 0xBF, by rw [if_pos hmiddle], by omega, by omega⟩
    · exact ⟨0x80, 0x8F, by rw [if_neg hmiddle, if_pos (by omega)], by omega, by omega⟩

/-- 一文字の符号は、その文字に戻る。 -/
theorem decode_encodeChar (c : Char) (rest : List UInt8) :
    decode none (String.utf8EncodeChar c ++ rest) = c :: decode none rest := by
  have hchar : Char.ofNat c.val.toNat = c := Char.ofNat_toNat c
  have hvalid : c.val.toNat < 0xD800 ∨ 0xDFFF < c.val.toNat ∧ c.val.toNat < 0x110000 := c.valid
  unfold String.utf8EncodeChar
  generalize c.val.toNat = v at *
  simp only
  -- 文字の値で、書いた byte の個数が決まる
  split
  · next hone =>
    have hlead : lead v = some (v, []) := by
      unfold lead
      rw [if_pos (by omega)]
    rw [List.singleton_append, decode_lead _ (by omega) hlead]
    simp only [settle, hchar, List.singleton_append]
  · split
    · next hone htwo =>
      rw [List.cons_append, List.singleton_append,
        decode_lead _ (by omega) (lead_two (by omega) htwo)]
      simp only [settle, List.nil_append]
      rw [decode_follow _ (by omega) (by omega)]
      simp only [settle, List.singleton_append]
      rw [show v / 64 * 64 + v % 64 = v by omega, hchar]
    · split
      · next htwo hthree =>
        obtain ⟨lo, hi, hlead, hlo, hhi⟩ := lead_three (by omega) hthree (by omega)
        rw [List.cons_append, decode_lead _ (by omega) hlead]
        simp only [settle, List.nil_append, List.cons_append]
        rw [decode_follow _ hlo hhi]
        simp only [settle, List.nil_append]
        rw [decode_follow _ (by omega) (by omega)]
        simp only [settle, List.singleton_append]
        rw [show (v / 4096 * 64 + v / 64 % 64) * 64 + v % 64 = v by omega, hchar]
      · next hthree =>
        obtain ⟨lo, hi, hlead, hlo, hhi⟩ := lead_four (v := v) (by omega) (by omega)
        rw [List.cons_append, decode_lead _ (by omega) hlead]
        simp only [settle, List.nil_append, List.cons_append]
        rw [decode_follow _ hlo hhi]
        simp only [settle, List.nil_append]
        rw [decode_follow _ (by omega) (by omega)]
        simp only [settle, List.nil_append]
        rw [decode_follow _ (by omega) (by omega)]
        simp only [settle, List.singleton_append]
        rw [show ((v / 262144 * 64 + v / 4096 % 64) * 64 + v / 64 % 64) * 64 + v % 64 = v by omega,
          hchar]

theorem decode_flatMap (l : List Char) : decode none (l.flatMap String.utf8EncodeChar) = l := by
  induction l with
  | nil => rfl
  | cons c l ih => rw [List.flatMap_cons, decode_encodeChar, ih]

/-- **UTF-8 で書かれた文字列は、置き換えなしに読める。** -/
theorem fromUtf8Lossy_encode (s : String) : fromUtf8Lossy s.toUTF8.data.toList = s := by
  have hbytes : s.toUTF8.data.toList = s.toList.flatMap String.utf8EncodeChar := by
    have hutf : s.toUTF8 = s.toList.utf8Encode := by
      rw [String.utf8Encode_toList]
      rfl
    rw [hutf, List.utf8Encode]
    simp
  rw [fromUtf8Lossy, hbytes, decode_flatMap, String.ofList_toList]

end Utf8
