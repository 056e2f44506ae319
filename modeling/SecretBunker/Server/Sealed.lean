import SecretBunker.Server.Secrets

/-!
# 暗号文と平文の対応

secret の行は、その DEK version の wrap に入っている鍵で値を暗号化したものである。
DEK は version ごとに変わらないので、この対応は鍵の回転や recovery の後も残る。
-/

namespace SecretBunker

open Relational Store

variable {prim : Primitives} {db db' : Db}

/-- `row` は `(group, name)` に書かれた `value` の暗号文である。 -/
structure Sealed (prim : Primitives) (db : Db) (gid : Nat) (group name : String)
    (row : SecretDataRow) (value : Bytes) : Prop where
  registered : ⟨gid, row.dekVersion⟩ ∈ db.groupDek
  encrypted : ∃ dek nonce,
    (∀ r b, ⟨gid, row.dekVersion, r, b⟩ ∈ db.dekWrap → WrappedAs prim db dek r b) ∧
    row.nonce = nonce.bytes ∧
    row.ciphertext =
      prim.aeadEncrypt dek nonce (secretAad group name row.version row.dekVersion) value

/-- 前の database の DEK は、後の database でも同じ version の wrap に入っている。 -/
structure Stable (prim : Primitives) (db db' : Db) : Prop where
  registered : ∀ d ∈ db.groupDek, d ∈ db'.groupDek
  groups : ∀ g ∈ db.secretGroup, g ∈ db'.secretGroup
  opens : ∀ {gid v dek}, ⟨gid, v⟩ ∈ db.groupDek →
    (∀ r b, ⟨gid, v, r, b⟩ ∈ db.dekWrap → WrappedAs prim db dek r b) →
      ∀ r b, ⟨gid, v, r, b⟩ ∈ db'.dekWrap → WrappedAs prim db' dek r b

namespace Stable

theorem refl (db : Db) : Stable prim db db := ⟨fun _ h => h, fun _ h => h, fun _ h => h⟩

theorem trans {mid : Db} (h : Stable prim db mid) (h' : Stable prim mid db') :
    Stable prim db db' where
  registered := fun d hd => h'.registered d (h.registered d hd)
  groups := fun g hg => h'.groups g (h.groups g hg)
  opens := fun hv hdek => h'.opens (h.registered _ hv) (h.opens hv hdek)

theorem of_turn (laws : prim.Lawful) (h : Turn prim db db') : Stable prim db db' where
  registered := fun d hd => (h.keys d.groupId).version_mono hd
  groups := h.groups
  opens := fun hv hdek => (h.keys _).opens_of_old laws h.recipients hv hdek

theorem of_recover (laws : prim.Lawful) (hk : KeyWrap prim db) {amb : Ambient}
    {backup : AgeIdentity} {pubkey : String}
    (h : Node.recover prim amb db backup pubkey = some db') : Stable prim db db' := by
  have hopens := @recover_opens prim db db' amb backup pubkey laws hk h
  obtain ⟨newOp, rewrapped, -, ⟨t, hw, rfl, -⟩, -, -⟩ := recover_spec h
  exact ⟨fun _ h => h, fun _ h => h, fun hv hdek => hopens hv hdek⟩

theorem groupId (h : Stable prim db db') {g : String} {gid : Nat} (hg : groupId db g = some gid) :
    Store.groupId db' g = some gid :=
  groupId_eq_some.mpr (h.groups _ (groupId_eq_some.mp hg))

end Stable

/-- どの一歩も、DEK と wrap の中身を保つ。 -/
theorem stable_step (laws : prim.Lawful) (hk : KeyWrap prim db) (op : Node.Op) (amb : Ambient) :
    Stable prim db (Node.step prim db op amb).2 :=
  step_relation laws .refl (fun _ _ _ h h' => h.trans h') (fun _ _ _ h => .of_turn laws h)
    (fun _ _ _ _ _ hk h => .of_recover laws hk h) hk op amb

namespace Sealed

variable {gid : Nat} {group name : String} {row : SecretDataRow} {value : Bytes}

/-- 封じた行は、後でも開く。 -/
theorem stable (h : Sealed prim db gid group name row value) (hs : Stable prim db db') :
    Sealed prim db' gid group name row value := by
  obtain ⟨hreg, dek, nonce, hdek, hn, hc⟩ := h
  exact ⟨hs.registered _ hreg, dek, nonce, hs.opens hreg hdek, hn, hc⟩

/-- 宛先の鍵を持つ者は、その version の wrap から値を取り出せる。 -/
theorem decrypts (laws : prim.Lawful) (h : Sealed prim db gid group name row value) {r : String}
    {b : Bytes} (hb : ⟨gid, row.dekVersion, r, b⟩ ∈ db.dekWrap) {key : AgeIdentity}
    (hkey : recipientOf prim db r = some (prim.toPublic key)) :
    ∃ dek, unwrapDek prim b key = some dek ∧
      decryptSecret prim dek (secretAad group name row.version row.dekVersion) row.nonce
        row.ciphertext = some value := by
  obtain ⟨-, dek, nonce, hdek, hn, hc⟩ := h
  obtain ⟨seed, recipient, hrec, rfl⟩ := hdek r b hb
  obtain rfl : prim.toPublic key = recipient := Option.some.inj (hkey.symm.trans hrec)
  refine ⟨dek, unwrapDek_wrapDek laws seed dek key, ?_⟩
  rw [hn, hc]
  exact decryptSecret_encryptSecret laws nonce dek _ value

end Sealed

/-- 成功した Put が残す行は、書かれた値の暗号文である。 -/
theorem sealed_put (laws : prim.Lawful) (hk : KeyWrap prim db) (hs : Stable prim db db')
    {op : AgeIdentity} {gid dv version : Nat} {dek : Dek} {nonce : Nonce} {group name by_ : String}
    {value : Bytes} {now : Int} (hdv : currentDekVersion db gid = some dv)
    (hu : Bunker.unwrapOperational prim op db gid dv = some dek) :
    Sealed prim db' gid group name ⟨version, dv, nonce.bytes,
      prim.aeadEncrypt dek nonce (secretAad group name version dv) value, now, by_⟩ value := by
  have hreg := (currentDekVersion_eq_some.mp hdv).1
  refine Sealed.stable ?_ hs
  exact ⟨hreg, dek, nonce, hk.wrapped_of_unwrapOperational laws hreg hu, rfl, rfl⟩

end SecretBunker
