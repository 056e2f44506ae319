import Mathlib.Data.List.Forall2
import SecretBunker.Lib.Cbor
import SecretBunker.Lib.Utf8

/-!
# CBOR の読み戻し

一つの item を値の木（`Value`）に読み、残りの byte を返す。長さを先に書いた形だけを読み、入れ子の深さに
上限がある。上限を超えた入れ子は読まない。

`ReadsBack k code v` は、後に何が続いても、深さ `k` までの読み手が `code` をちょうど使い切って `v` を返す
ことをいう。`code` が 2^64 byte に満たなければよいので、部品の長さを一つずつ見なくてすむ。書き手を
つないだものの読み戻しは、部品の読み戻しから従う。
-/

namespace Cbor

variable {α β : Type}

/-- 値を一つ読み、残りを返す。 -/
abbrev Reader (α : Type) := List UInt8 → Option (α × List UInt8)

/-- CBOR の値。 -/
inductive Value where
  | unsigned (n : Nat)
  /-- `-1 - n` である。 -/
  | negative (n : Nat)
  | bytes (b : List UInt8)
  | text (s : String)
  | array (items : List Value)
  | map (entries : List (Value × Value))
  | boolean (b : Bool)

/-! ## 読み手 -/

/-- 先頭の `n` 個。 -/
def readTake (n : Nat) : Reader (List UInt8) := fun b =>
  if n ≤ b.length then some (b.take n, b.drop n) else none

/-- 見出しの引数。短い数は見出しの byte に入り、長い数は 1、2、4、8 byte で続く。 -/
def readArgument (info : Nat) : Reader Nat := fun b =>
  if info < 24 then some (info, b)
  else if info < 28 then (readTake (2 ^ (info - 24)) b).map fun r => (ofBeBytes r.1, r.2)
  else none

/-- 値の見出し。 -/
structure Head where
  major : Nat
  info : Nat
  argument : Nat

/-- 先頭の byte とそれに続く引数。 -/
def readHead : Reader Head
  | [] => none
  | x :: b =>
    (readArgument (x.toNat % 32) b).map fun r => (⟨x.toNat / 32, x.toNat % 32, r.1⟩, r.2)

/-- 正しい UTF-8 だけを文字列にする。置き換えて読んだ文字列が同じ byte の列に戻るかどうかで決まる。 -/
def readUtf8 (b : List UInt8) : Option String :=
  if utf8 (Utf8.fromUtf8Lossy b) = b then some (Utf8.fromUtf8Lossy b) else none

/-- 同じ読み手を `n` 回。 -/
def readMany (item : Reader α) : Nat → Reader (List α)
  | 0, b => some ([], b)
  | n + 1, b => do
    let (a, b) ← item b
    let (as, b) ← readMany item n b
    some (a :: as, b)

/-- 二つを順に読む。 -/
def readPair (first : Reader α) (second : Reader β) : Reader (α × β) := fun b => do
  let (a, b) ← first b
  let (c, b) ← second b
  some ((a, c), b)

/-- 名前の付いた値。真偽のほかは読まない。 -/
def readSimple (h : Head) : Option Value :=
  if 24 < h.info then none
  else if h.argument = 20 then some (.boolean false)
  else if h.argument = 21 then some (.boolean true)
  else none

/-- 見出しに続く中身。`item` は一段深いところの読み手である。 -/
def readBody (item : Reader Value) (h : Head) : Reader Value := fun b =>
  match h.major with
  | 0 => some (.unsigned h.argument, b)
  | 1 => some (.negative h.argument, b)
  | 2 => (readTake h.argument b).map fun r => (.bytes r.1, r.2)
  | 3 => do
    let (raw, b) ← readTake h.argument b
    let s ← readUtf8 raw
    some (.text s, b)
  | 4 => (readMany item h.argument b).map fun r => (.array r.1, r.2)
  | 5 => (readMany (readPair item item) h.argument b).map fun r => (.map r.1, r.2)
  | 7 => (readSimple h).map fun v => (v, b)
  | _ => none

/-- 先頭の item を読む。`limit` は入れ子の深さの上限である。不定長の列、tag、浮動小数、`null` と
`undefined` は読まない。これらを受け入れる読み手より狭い。 -/
def read : Nat → Reader Value
  | 0, _ => none
  | limit + 1, b => do
    let (h, b) ← readHead b
    readBody (read limit) h b

/-! ## 見出しの読み戻し -/

variable {n : Nat} {code : List UInt8}

theorem readTake_append {a : List UInt8} (h : a.length = n) (rest : List UInt8) :
    readTake n (a ++ rest) = some (a, rest) := by
  have hle : n ≤ (a ++ rest).length := by simp [h]
  rw [readTake, if_pos hle, List.take_left' h, List.drop_left' h]

theorem readArgument_beBytes {info width : Nat} (hlo : 24 ≤ info) (hhi : info < 28)
    (hwidth : width = 2 ^ (info - 24)) (hn : n < 256 ^ width) (rest : List UInt8) :
    readArgument info (beBytes width n ++ rest) = some (n, rest) := by
  rw [readArgument, if_neg (by omega), if_pos hhi, ← hwidth,
    readTake_append (length_beBytes width n), Option.map_some, ofBeBytes_beBytes hn]

/-- 見出しの最初の byte は、種別と付き番に分かれる。 -/
theorem readHead_cons {major info : Nat} {rest : List UInt8} (hm : major < 8) (hi : info < 32)
    (h : readArgument info (code ++ rest) = some (n, rest)) :
    readHead (UInt8.ofNat (32 * major + info) :: (code ++ rest)) =
      some (⟨major, info, n⟩, rest) := by
  have hbyte : (UInt8.ofNat (32 * major + info)).toNat = 32 * major + info := by
    rw [UInt8.toNat_ofNat']
    omega
  have hmod : (32 * major + info) % 32 = info := by omega
  have hdiv : (32 * major + info) / 32 = major := by omega
  rw [readHead, hbyte, hmod, hdiv, h, Option.map_some]

/-- 書いた head は読み戻せる。 -/
theorem readHead_head {major : Nat} (hm : major < 8) (hn : n < 2 ^ 64) (rest : List UInt8) :
    ∃ info, readHead (head major n ++ rest) = some (⟨major, info, n⟩, rest) := by
  unfold head
  split
  · next h =>
    have hshort : readArgument n ([] ++ rest) = some (n, rest) := by
      rw [readArgument, if_pos h]
      rfl
    exact ⟨n, readHead_cons hm (by omega) hshort⟩
  split
  · next h =>
    exact ⟨24, readHead_cons hm (by omega)
      (readArgument_beBytes (by omega) (by omega) rfl (by omega) rest)⟩
  split
  · next h =>
    exact ⟨25, readHead_cons hm (by omega)
      (readArgument_beBytes (by omega) (by omega) rfl (by omega) rest)⟩
  split
  · next h =>
    exact ⟨26, readHead_cons hm (by omega)
      (readArgument_beBytes (by omega) (by omega) rfl (by omega) rest)⟩
  · exact ⟨27, readHead_cons hm (by omega)
      (readArgument_beBytes (by omega) (by omega) rfl (by omega) rest)⟩

theorem readUtf8_utf8 (s : String) : readUtf8 (utf8 s) = some s := by
  have hs : Utf8.fromUtf8Lossy (utf8 s) = s := Utf8.fromUtf8Lossy_encode s
  rw [readUtf8, hs, if_pos rfl]

/-! ## 書いたものの読み戻し -/

/-- 読み手は、後に何が続いても、書いた分をちょうど使い切る。 -/
def Reads (item : Reader α) (code : List UInt8) (a : α) : Prop :=
  ∀ rest, item (code ++ rest) = some (a, rest)

theorem Reads.pair {first : Reader α} {second : Reader β} {ca cb : List UInt8} {a : α} {b : β}
    (ha : Reads first ca a) (hb : Reads second cb b) :
    Reads (readPair first second) (ca ++ cb) (a, b) := by
  intro rest
  simp [readPair, ha _, hb _, List.append_assoc]

/-- 見出しと中身を続けて書いたものは、中身を読み戻せれば読み戻せる。 -/
theorem Reads.headed {limit major : Nat} {v : Value} (hm : major < 8) (hn : n < 2 ^ 64)
    (h : ∀ info rest, readBody (read limit) ⟨major, info, n⟩ (code ++ rest) = some (v, rest)) :
    Reads (read (limit + 1)) (head major n ++ code) v := by
  intro rest
  obtain ⟨info, hhead⟩ := readHead_head hm hn (code ++ rest)
  rw [List.append_assoc, read, hhead]
  exact h info rest

/-- 2^64 byte に満たなければ、深さ `k` までの読み手で読み戻せる。 -/
def ReadsBack (k : Nat) (code : List UInt8) (v : Value) : Prop :=
  code.length < 2 ^ 64 → Reads (read k) code v

theorem read_nil (k : Nat) : read k [] = none := by
  cases k with
  | zero => rfl
  | succ k => rfl

theorem ReadsBack.pos {k : Nat} {v : Value} (h : ReadsBack k code v) : 0 < code.length := by
  refine List.length_pos_iff.mpr fun hnil => ?_
  have hread := h (by simp [hnil]) []
  rw [hnil, List.append_nil, read_nil] at hread
  cases hread

variable {k : Nat}

@[simp] theorem ReadsBack.unsigned (h : n < 2 ^ 64) :
    ReadsBack (k + 1) (Cbor.unsigned n) (.unsigned n) := by
  intro _
  rw [← List.append_nil (Cbor.unsigned n)]
  exact Reads.headed (by omega) h fun _ _ => rfl

/-- 符号の付いた整数の値。 -/
def Value.integer : Int → Value
  | .ofNat n => .unsigned n
  | .negSucc n => .negative n

@[simp] theorem ReadsBack.integer {i : Int} (hlo : -2 ^ 63 ≤ i) (hhi : i < 2 ^ 63) :
    ReadsBack (k + 1) (Cbor.integer i) (.integer i) := by
  intro _
  rw [← List.append_nil (Cbor.integer i)]
  cases i with
  | ofNat n => exact Reads.headed (by omega) (by simp at hhi; omega) fun _ _ => rfl
  | negSucc n => exact Reads.headed (by omega) (by omega) fun _ _ => rfl

@[simp] theorem ReadsBack.boolean (b : Bool) : ReadsBack (k + 1) (Cbor.boolean b) (.boolean b) := by
  intro _ rest
  cases b with
  | false => rfl
  | true => rfl

@[simp] theorem ReadsBack.byteString (b : List UInt8) :
    ReadsBack (k + 1) (Cbor.byteString b) (.bytes b) := by
  intro hlen
  rw [length_byteString] at hlen
  refine Reads.headed (by omega) (by omega) fun info rest => ?_
  simp [readBody, readTake_append rfl]

@[simp] theorem ReadsBack.textString (s : String) :
    ReadsBack (k + 1) (Cbor.textString s) (.text s) := by
  intro hlen
  rw [length_textString] at hlen
  refine Reads.headed (by omega) (by omega) fun info rest => ?_
  simp [readBody, readTake_append rfl, readUtf8_utf8]

/-- 並べた部品は、その個数だけ読めばみな読み戻せる。空の部品は無いので、個数は byte の数を超えない。 -/
theorem Reads.many {item : Reader α} {codes : List (List UInt8)} {as : List α}
    (h : List.Forall₂ (fun c a => 0 < c.length ∧ (c.length < 2 ^ 64 → Reads item c a)) codes as)
    (hlen : codes.flatten.length < 2 ^ 64) :
    codes.length ≤ codes.flatten.length ∧
      Reads (readMany item codes.length) codes.flatten as := by
  induction h with
  | nil => exact ⟨Nat.le_refl _, fun rest => rfl⟩
  | cons hc _ ih =>
    rw [List.flatten_cons, List.length_append] at hlen ⊢
    obtain ⟨hcount, hrest⟩ := ih (by omega)
    refine ⟨by rw [List.length_cons]; omega, fun rest => ?_⟩
    simp [readMany, hc.2 (by omega) _, hrest _, List.append_assoc]

theorem ReadsBack.array {codes : List (List UInt8)} {vs : List Value}
    (h : List.Forall₂ (ReadsBack k) codes vs) : ReadsBack (k + 1) (Cbor.array codes) (.array vs) := by
  intro hlen
  rw [Cbor.array, List.length_append] at hlen
  obtain ⟨hcount, hitems⟩ := Reads.many (h.imp fun _ _ hc => ⟨hc.pos, hc⟩) (by omega)
  refine Reads.headed (by omega) (by omega) fun info rest => ?_
  simp [readBody, hitems _]

/-- 同じ種類の値の列。 -/
theorem ReadsBack.list {l : List α} {code : α → List UInt8} {value : α → Value}
    (h : ∀ a ∈ l, ReadsBack k (code a) (value a)) :
    ReadsBack (k + 1) (Cbor.array (l.map code)) (.array (l.map value)) := by
  refine ReadsBack.array (List.forall₂_map_left_iff.mpr (List.forall₂_map_right_iff.mpr ?_))
  exact List.forall₂_same.mpr h

/-- 鍵が文字列の map の値。 -/
def Value.record (fields : List (String × Value)) : Value :=
  .map (fields.map fun f => (.text f.1, f.2))

/-- 欄ごとに読み戻せる map は、読み戻せる。 -/
theorem ReadsBack.record {entries : List (String × List UInt8)} {fields : List (String × Value)}
    (h : List.Forall₂ (fun e f => e.1 = f.1 ∧ ReadsBack (k + 1) e.2 f.2) entries fields) :
    ReadsBack (k + 2) (Cbor.map entries) (.record fields) := by
  intro hlen
  rw [Cbor.map, List.length_append] at hlen
  have hentries : List.Forall₂
      (fun c a => 0 < c.length ∧ (c.length < 2 ^ 64 →
        Reads (readPair (read (k + 1)) (read (k + 1))) c a))
      (entries.map fun e => Cbor.textString e.1 ++ e.2)
      (fields.map fun f => (Value.text f.1, f.2)) := by
    refine List.forall₂_map_left_iff.mpr (List.forall₂_map_right_iff.mpr (h.imp ?_))
    rintro ⟨name, code⟩ ⟨_, v⟩ ⟨rfl, (hv : ReadsBack (k + 1) code v)⟩
    have hname : ReadsBack (k + 1) (Cbor.textString name) (.text name) := .textString name
    refine ⟨by rw [List.length_append]; exact Nat.add_pos_right _ hv.pos, fun hle => ?_⟩
    simp only [List.length_append] at hle
    exact (hname (by omega)).pair (hv (by omega))
  rw [List.flatMap_def] at hlen
  obtain ⟨hcount, hfields⟩ := Reads.many hentries (by omega)
  rw [List.length_map] at hcount hfields
  refine Reads.headed (by omega) (by omega) fun info rest => ?_
  rw [List.flatMap_def]
  simp [readBody, hfields _, Value.record]

/-- 外側に札の付いた enum の値。 -/
def Value.tagged (name : String) (body : Value) : Value := .record [(name, body)]

theorem ReadsBack.variant {name : String} {v : Value} (h : ReadsBack (k + 1) code v) :
    ReadsBack (k + 2) (Cbor.variant name code) (.tagged name v) :=
  .record (.cons ⟨rfl, h⟩ .nil)

/-! ## 値から型へ -/

namespace Value

/-- 文字列なら、その中身。 -/
@[simp] def toText? : Value → Option String
  | .text s => some s
  | _ => none

/-- bytes なら、その中身。 -/
@[simp] def toBytes? : Value → Option (List UInt8)
  | .bytes b => some b
  | _ => none

/-- 真偽値なら、その値。 -/
@[simp] def toBoolean? : Value → Option Bool
  | .boolean b => some b
  | _ => none

/-- `bound` に満たない自然数。 -/
def toNat? (bound : Nat) : Value → Option Nat
  | .unsigned n => if n < bound then some n else none
  | _ => none

/-- 64 bit の符号付き整数。 -/
def toInt64? : Value → Option Int
  | .unsigned n => if n < 2 ^ 63 then some n else none
  | .negative n => if n < 2 ^ 63 then some (.negSucc n) else none
  | _ => none

/-- 列なら、要素を順に読む。 -/
def toList? (item : Value → Option α) : Value → Option (List α)
  | .array items => items.mapM item
  | _ => none

/-- 長さ二の列なら、二つの要素を読む。 -/
def toPair? (first : Value → Option α) (second : Value → Option β) : Value → Option (α × β)
  | .array [a, b] => do some (← first a, ← second b)
  | _ => none

/-- map の鍵と値。鍵はみな文字列でなければならない。 -/
def fields? : Value → Option (List (String × Value))
  | .map entries => entries.mapM fun e => e.1.toText?.map fun name => (name, e.2)
  | _ => none

/-- map を、その field から作る。 -/
def ofRecord (build : List (String × Value) → Option α) (v : Value) : Option α :=
  v.fields?.bind build

/-- ちょうど一度だけ現れる field。ほかの名前の field は見ない。 -/
def field? (name : String) : List (String × Value) → Option Value
  | [] => none
  | f :: fields =>
    if f.1 = name then (if fields.any fun g => g.1 = name then none else some f.2)
    else field? name fields

/-- enum の枝の名前と中身。中身の無い枝は名前だけである。 -/
def variant? : Value → Option (String × Option Value)
  | .text name => some (name, none)
  | .map [(.text name, body)] => some (name, some body)
  | _ => none

@[simp] theorem toNat?_unsigned {bound n : Nat} (h : n < bound) :
    toNat? bound (.unsigned n) = some n := if_pos h

@[simp] theorem toInt64?_integer {i : Int} (hlo : -2 ^ 63 ≤ i) (hhi : i < 2 ^ 63) :
    (Value.integer i).toInt64? = some i := by
  cases i with
  | ofNat n => exact if_pos (by simp at hhi; omega)
  | negSucc n => exact if_pos (by omega)

theorem toList?_map {item : Value → Option α} {value : α → Value} {l : List α}
    (h : ∀ a ∈ l, item (value a) = some a) : toList? item (.array (l.map value)) = some l := by
  rw [toList?]
  induction l with
  | nil => rfl
  | cons a l ih =>
    rw [List.map_cons, List.mapM_cons, h a List.mem_cons_self,
      ih fun b hb => h b (List.mem_cons_of_mem _ hb)]
    rfl

theorem fields?_record (fields : List (String × Value)) :
    fields? (.record fields) = some fields := by
  rw [record, fields?]
  induction fields with
  | nil => rfl
  | cons f fields ih =>
    rw [List.map_cons, List.mapM_cons, ih]
    rfl

@[simp] theorem ofRecord_record (build : List (String × Value) → Option α)
    (fields : List (String × Value)) : ofRecord build (.record fields) = build fields := by
  rw [ofRecord, fields?_record, Option.bind_some]

@[simp] theorem variant?_text (name : String) : variant? (.text name) = some (name, none) := rfl

@[simp] theorem variant?_tagged (name : String) (body : Value) :
    variant? (.tagged name body) = some (name, some body) := rfl

end Value

end Cbor
