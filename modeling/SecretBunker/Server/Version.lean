import SecretBunker.Lib.Word
import SecretBunker.Server.Refinement

/-!
# Put の version の算術

`Bunker::put` と `Store::put_secret` は version をそれぞれ別に計算する。database の列は i64、
wire と計算は u64 で、その間を `as` が結ぶ。ここでは version に関わる所だけを語のまま書き写し、
溢れも符号の反転も起きないこと、二つの計算が同じ答えを出すことを示す。

列の値 c は i64 の非負の範囲にあるとする。expected_version は 64 bit のどの値でもよい。
-/

namespace SecretBunker

open Store Word

/-! ## 語のままの書き写し -/

/-- `CasOutcome` と、書かれた列の値。 -/
inductive CasWord where
  | applied (newVersion : UInt64) (column : Int64)
  | conflict (current : UInt64)
  deriving DecidableEq

/-- `put_secret` の、行が見つかった（または作った）後の計算。溢れは `none` である。 -/
def commitWord (current expected : UInt64) : Option CasWord :=
  if current ≠ expected then some (.conflict current)
  else do
    let newVersion ← checkedAdd current 1
    some (.applied newVersion newVersion.toInt64)

/-- `Store::put_secret` の version の計算。 -/
def putSecretWord (column : Option Int64) (expected : UInt64) : Option CasWord :=
  match column with
  | some v => commitWord v.toUInt64 expected
  | none => if expected ≠ 0 then some (.conflict 0) else commitWord 0 expected

/-- `Bunker::put` の答え。成功のときは、associated data に結んだ version と書いた列の値も持つ。 -/
inductive PutWord where
  | version (answer bound : UInt64) (column : Int64)
  | conflict (current : UInt64)
  deriving DecidableEq

/-- `Bunker::put` の version の計算。 -/
def putWord (column : Option Int64) (expected : UInt64) : Option PutWord := do
  let newVersion ← checkedAdd ((column.map Int64.toUInt64).getD 0) 1
  match checkedAdd expected 1 with
  | none => (checkedSub newVersion 1).map .conflict
  | some targetVersion =>
    if targetVersion ≠ newVersion ∧ expected ≠ 0 then (checkedSub newVersion 1).map .conflict
    else do
      match ← putSecretWord column expected with
      | .applied newVersion column => some (.version newVersion targetVersion column)
      | .conflict current => some (.conflict current)

/-! ## 溢れないこと -/

section Words

variable {c : Nat}

theorem toNat_word (h : c < 2 ^ 64) : (UInt64.ofNat c).toNat = c :=
  UInt64.toNat_ofNat_of_lt' h

/-- 列から読んだ語。無い secret は 0 と読む。 -/
theorem column_word (v : Option Nat) :
    ((v.map Int64.ofNat).map Int64.toUInt64).getD 0 = UInt64.ofNat (v.getD 0) := by
  cases v <;> rfl

theorem next_word (h : c + 1 < 2 ^ 63) :
    checkedAdd (UInt64.ofNat c) 1 = some (UInt64.ofNat (c + 1)) := by
  rw [checkedAdd_eq_some, toNat_word (by omega), toNat_word (by omega)]
  rfl

theorem word_eq_iff (h : c < 2 ^ 64) (e : UInt64) : UInt64.ofNat c = e ↔ c = e.toNat := by
  rw [← UInt64.toNat_inj, toNat_word h]

/-- 幅に収まる間、語の上の比較は自然数の比較と同じである。 -/
theorem putSecretWord_eq (v : Option Nat) (h : v.getD 0 + 1 < 2 ^ 63) (e : UInt64) :
    putSecretWord (v.map Int64.ofNat) e = some (if v.getD 0 = e.toNat
      then .applied (UInt64.ofNat (v.getD 0 + 1)) (Int64.ofNat (v.getD 0 + 1))
      else .conflict (UInt64.ofNat (v.getD 0))) := by
  have hcommit : commitWord (UInt64.ofNat (v.getD 0)) e = some (if v.getD 0 = e.toNat
      then .applied (UInt64.ofNat (v.getD 0 + 1)) (Int64.ofNat (v.getD 0 + 1))
      else .conflict (UInt64.ofNat (v.getD 0))) := by
    unfold commitWord
    by_cases he : v.getD 0 = e.toNat
    · rw [if_neg (not_not.mpr ((word_eq_iff (by omega) e).mpr he)), if_pos he, next_word h]
      rfl
    · rw [if_pos fun hc => he ((word_eq_iff (by omega) e).mp hc), if_neg he]
  cases v with
  | some c => exact hcommit
  | none =>
    unfold putSecretWord
    by_cases he : e = 0
    · rw [he] at hcommit ⊢
      exact hcommit
    · have hne : ¬ (0 : Nat) = e.toNat := fun hc => he (UInt64.toNat_inj.mp hc.symm)
      simp only [Option.map_none, Option.getD_none, hne, ↓reduceIte]
      exact if_pos he

/-- どの経路でも溢れず、答えは版が一致するかどうかだけで決まる。 -/
theorem putWord_eq (v : Option Nat) (h : v.getD 0 + 1 < 2 ^ 63) (e : UInt64) :
    putWord (v.map Int64.ofNat) e = some (if v.getD 0 = e.toNat
      then .version (UInt64.ofNat (v.getD 0 + 1)) (UInt64.ofNat (v.getD 0 + 1))
        (Int64.ofNat (v.getD 0 + 1))
      else .conflict (UInt64.ofNat (v.getD 0))) := by
  have hback : checkedSub (UInt64.ofNat (v.getD 0 + 1)) 1 = some (UInt64.ofNat (v.getD 0)) := by
    rw [checkedSub_eq_some, toNat_word (by omega), toNat_word (by omega)]
    rfl
  unfold putWord
  rw [column_word, next_word h, putSecretWord_eq v h]
  simp only [Option.bind_eq_bind, Option.bind_some, hback, Option.map_some]
  by_cases he : v.getD 0 = e.toNat
  · have htarget : checkedAdd e 1 = some (UInt64.ofNat (v.getD 0 + 1)) := by
      rw [← (word_eq_iff (by omega) e).mpr he]
      exact next_word h
    simp [htarget, he]
  · rw [if_neg he, if_neg he]
    cases htarget : checkedAdd e 1 with
    | none => rfl
    | some target =>
      dsimp only
      split <;> rfl

end Words

/-! ## Put の答え -/

section Put

variable {prim : Primitives} {db : Db} {inner : Inner} {ident : Identity}

/-- 成功した Put の行。associated data の version は行の version である。 -/
theorem put_bound (hc : Complete db) {group name : String} {gid : Nat}
    (hauth : authorizeGroup db ident group permWrite ident.serviceAdmin = some gid) {amb : Ambient}
    {value : Bytes} {e : UInt64} {v : Nat}
    (h : (Bunker.put prim inner amb db ident group name value e).1 = .version v) :
    ∃ dv dek row, Bunker.unwrapOperational prim inner.opIdentity db gid dv = some dek ∧
      secretVersion (Bunker.put prim inner amb db ident group name value e).2 gid name = some v ∧
      secretDataCurrent (Bunker.put prim inner amb db ident group name value e).2 gid name =
        some row ∧
      row.version = v ∧ row.dekVersion = dv ∧
      row.ciphertext = prim.aeadEncrypt dek amb.nonce (secretAad group name v dv) value := by
  have hstep := secretStep_effect hc (@effect_put prim inner amb db ident group name value e)
  rw [h] at hstep
  generalize (Bunker.put prim inner amb db ident group name value e).2 = db' at hstep ⊢
  cases hstep with
  | keep _ quiet => exact absurd trivial quiet
  | @put _ _ writer _ _ gid' dv dek located _ _ unwrapped stored =>
    obtain rfl : gid = gid' := Option.some.inj ((groupId_of_authorizeGroup hauth).symm.trans located)
    have hrow := stored.current gid name
    rw [if_pos ⟨rfl, rfl⟩] at hrow
    refine ⟨dv, dek, _, unwrapped, ?_, hrow, rfl, rfl, rfl⟩
    rw [stored.complete.secretVersion_eq, hrow]
    rfl

/-- **Put の version の計算は store の compare-and-set と一致する。**
いまの version が c なら、64 bit のどの expected_version についても、答えは `put_secret` が単独で
下す判断そのもので、語の計算はどの経路でも溢れない。成功したとき、associated data に結んだ
version は行の version である。 -/
theorem put_agrees_with_cas (laws : prim.Lawful) (hc : Consistent prim db)
    (hm : inner.Matches prim db) {group name : String} {gid c : Nat}
    (hauth : authorizeGroup db ident group permWrite ident.serviceAdmin = some gid)
    (hcur : (secretVersion db gid name).getD 0 = c) (hlt : c + 1 < 2 ^ 63) (amb : Ambient)
    (value : Bytes) (e : UInt64) :
    (Bunker.put prim inner amb db ident group name value e).1 =
        (if c = e.toNat then .version (c + 1) else .versionConflict c) ∧
      (∀ dv nonce ct now by_, ∃ db', putSecret db gid name e.toNat dv nonce ct now by_ =
        some (if c = e.toNat then .applied (c + 1) else .conflict c, db')) ∧
      putWord ((secretVersion db gid name).map Int64.ofNat) e = some (if c = e.toNat
        then .version (UInt64.ofNat (c + 1)) (UInt64.ofNat (c + 1)) (Int64.ofNat (c + 1))
        else .conflict (UInt64.ofNat c)) ∧
      putSecretWord ((secretVersion db gid name).map Int64.ofNat) e = some (if c = e.toNat
        then .applied (UInt64.ofNat (c + 1)) (Int64.ofNat (c + 1))
        else .conflict (UInt64.ofNat c)) ∧
      ((UInt64.ofNat c).toNat = c ∧ (UInt64.ofNat (c + 1)).toNat = c + 1 ∧
        (Int64.ofNat c).toInt = c ∧ (Int64.ofNat (c + 1)).toInt = (c + 1 : Nat)) ∧
      ∀ v, (Bunker.put prim inner amb db ident group name value e).1 = .version v →
        ∃ dv dek row, Bunker.unwrapOperational prim inner.opIdentity db gid dv = some dek ∧
          secretVersion (Bunker.put prim inner amb db ident group name value e).2 gid name =
            some v ∧
          secretDataCurrent (Bunker.put prim inner amb db ident group name value e).2 gid name =
            some row ∧
          row.version = v ∧ row.dekVersion = dv ∧
          row.ciphertext = prim.aeadEncrypt dek amb.nonce (secretAad group name v dv) value := by
  subst hcur
  have hgroup := mem_group_of_groupId (groupId_of_authorizeGroup hauth)
  refine ⟨?_, ?_, putWord_eq _ hlt e, putSecretWord_eq _ hlt e,
    ⟨toNat_word (by omega), toNat_word (by omega), Int64.toInt_ofNat_of_lt (by omega),
      Int64.toInt_ofNat_of_lt hlt⟩, fun v => put_bound hc.secrets hauth⟩
  · rw [put_answer laws hc hm hauth (by omega) amb value e]
    split
    · next he => rw [he]
    · rfl
  · intro dv nonce ct now by_
    by_cases he : (secretVersion db gid name).getD 0 = e.toNat
    · rw [if_pos he, ← he]
      exact putSecret_succeeds hc.secrets hgroup
    · rw [if_neg he]
      exact ⟨db, putSecret_of_ne he⟩

/-- version 1 の secret を一つ持つ database。 -/
def onePut : Db :=
  Node.exec plain sampleDb (sampleCalls [('a', .createGroup "g"), ('a', .put "g" "n" [7] 0)])

theorem put_agrees_with_cas_sample :
    (Bunker.put plain sampleInner (sampleAmbient 9) onePut ⟨1, samplePeer 'a', "admin", true⟩ "g" "n"
      [8] 18446744073709551615).1 = .versionConflict 1 := by
  have hc : Consistent plain onePut :=
    consistent_exec plain_lawful (consistent_init (by decide) init_sampleDb) _
  have hnew : Bunker.new plain onePut ⟨"o"⟩ = some sampleInner := by decide +kernel
  exact (put_agrees_with_cas plain_lawful hc (matches_of_new plain_lawful hnew).1
    (show authorizeGroup onePut _ "g" permWrite _ = some 1 by decide +kernel)
    (show (secretVersion onePut 1 "n").getD 0 = 1 by decide +kernel) (by decide) (sampleAmbient 9) [8]
    18446744073709551615).1

end Put

end SecretBunker
